import AssetCatalog.Text.Blank
/-! # Names and characters of a marked-up document

A name begins with a letter, an underscore or a colon, and goes on with these, digits, dots,
hyphens and joining marks; letters are the ranges that the document format lists.  A qualified
name is a name without colon, or two of them with one colon between. -/

set_option autoImplicit false

namespace AssetCatalog.Markup

open AssetCatalog.Text (inRanges)

/-- Code points that may begin a name, the colon aside. -/
def nameStartRanges : List (Nat × Nat) :=
  [(0x41, 0x5A), (0x5F, 0x5F), (0x61, 0x7A), (0xC0, 0xD6), (0xD8, 0xF6), (0xF8, 0x2FF),
    (0x370, 0x1FFF), (0x200C, 0x200D), (0x2070, 0x218F), (0x2C00, 0x2FEF),
    (0x3001, 0xD7FF), (0xF900, 0xFDCF), (0xFDF0, 0xFFFD), (0x10000, 0x10FFFF)]

/-- Code points that may stand in a name but not at its beginning. -/
def nameRestRanges : List (Nat × Nat) :=
  [(0x2D, 0x2E), (0x30, 0x39), (0xB7, 0xB7), (0x300, 0x36F), (0x203F, 0x2040)]

def beginsPlainName (c : Char) : Bool := inRanges nameStartRanges c.toNat

def continuesPlainName (c : Char) : Bool := beginsPlainName c || inRanges nameRestRanges c.toNat

def beginsName (c : Char) : Bool := c = ':' || beginsPlainName c

def continuesName (c : Char) : Bool := c = ':' || continuesPlainName c

def isPlainName : List Char → Bool
  | [] => false
  | c :: rest => beginsPlainName c && rest.all continuesPlainName

def isQualifiedName (cs : List Char) : Bool :=
  match cs.dropWhile (· ≠ ':') with
  | [] => isPlainName cs
  | _ :: localPart => isPlainName (cs.takeWhile (· ≠ ':')) && isPlainName localPart

def prefixOf (name : String) : Option String :=
  let cs := name.toList
  if ':' ∈ cs then some (String.ofList (cs.takeWhile (· ≠ ':'))) else none

def leadingName : List Char → List Char
  | [] => []
  | c :: rest => if beginsName c then c :: rest.takeWhile continuesName else []

def leadingPlainName : List Char → List Char
  | [] => []
  | c :: rest => if beginsPlainName c then c :: rest.takeWhile continuesPlainName else []

def leadingQualifiedName (cs : List Char) : List Char :=
  let first := leadingPlainName cs
  match first, cs.drop first.length with
  | _ :: _, ':' :: rest =>
    match leadingPlainName rest with
    | [] => first
    | second => first ++ ':' :: second
  | _, _ => first

def isSpace (c : Char) : Bool := c = ' ' || c = '\t' || c = '\n' || c = '\r'

def isAllowed (c : Char) : Bool :=
  isSpace c || (decide (0x20 ≤ c.toNat) && c.toNat != 0xFFFE && c.toNat != 0xFFFF)

end AssetCatalog.Markup
