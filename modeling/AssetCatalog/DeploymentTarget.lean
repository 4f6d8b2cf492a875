import AssetCatalog.Text.Blank
/-! # The minimum deployment target

A build configuration assigns the deployment target in a line such as

    mac_deployment_target = "12.0"  # Keep in sync with Info.plist

`assignments` lists the values assigned, in order.  An assignment begins at the beginning of a
line; its parts may have any white space between them, line ends included.  The value lies on
one line and ends at the last double quote of that line behind which the assignment may end:
at the end of the line, or at a comment, with white space before it that may again cross lines.
The search goes on behind the assignment, its comment included. -/

set_option autoImplicit false

namespace AssetCatalog.DeploymentTarget

open AssetCatalog.Text (isBlank endsLine skipBlanks)

def variableName : String := "mac_deployment_target"

/-- How many characters the rest of an assignment takes up behind its closing quote; none if the
assignment cannot end there. -/
def tail (behind : List Char) : Option Nat :=
  let blanks := behind.takeWhile isBlank
  match behind.drop blanks.length, behind with
  | '#' :: comment, _ =>
    some (blanks.length + 1 + (comment.takeWhile fun c => !endsLine c).length)
  | _, [] => some 0
  | _, c :: _ => if endsLine c then some 0 else none

/-- The value at the beginning of `line`, up to the last quote behind which the assignment may
end, and how many characters value, quote and tail take up. -/
def closeValue (line behind : List Char) : Option (List Char × Nat) :=
  match line with
  | [] => none
  | c :: rest =>
    match closeValue rest behind with
    | some (value, used) => some (c :: value, used + 1)
    | none => if c = '"' then (tail (rest ++ behind)).map fun used => ([], used + 1) else none

def expect (expected : List Char) (taken : Nat) (cs : List Char) : Option (List Char × Nat) :=
  let blanks := cs.takeWhile isBlank
  (expected.isPrefixOf? (cs.drop blanks.length)).map fun rest =>
    (rest, taken + blanks.length + expected.length)

def assignment (cs : List Char) : Option (List Char × Nat) := do
  let (rest, taken) ← expect variableName.toList 0 cs
  let (rest, taken) ← expect ['='] taken rest
  let (rest, taken) ← expect ['"'] taken rest
  let line := rest.takeWhile fun c => !endsLine c
  let (value, used) ← closeValue line (rest.drop line.length)
  return (value, taken + used)

def assignmentsFrom (lineStart : Bool) (skip : Nat) : List Char → List (List Char)
  | [] => []
  | c :: rest =>
    match skip with
    | more + 1 => assignmentsFrom false more rest
    | 0 =>
      match if lineStart then assignment (c :: rest) else none with
      | some (value, used) => value :: assignmentsFrom false (used - 1) rest
      | none => assignmentsFrom (endsLine c) 0 rest

def assignments (configuration : String) : List String :=
  (assignmentsFrom true 0 configuration.toList).map String.ofList

/-- The value of the only assignment; otherwise how many there are. -/
def extract (configuration : String) : Except Nat String :=
  match assignments configuration with
  | [value] => .ok value
  | values => .error values.length

example : assignments "mac_deployment_target = \"12.0\"\n# x\n mac_deployment_target=\"\"\"\n"
    = ["12.0", "\""] := by decide +kernel
example : assignments "mac_deployment_target\n= \"a\" # say \"b\" # c" = ["a\" # say \"b"] := by
  decide +kernel

end AssetCatalog.DeploymentTarget
