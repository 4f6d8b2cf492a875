import AssetCatalog.Number.Basic
import AssetCatalog.Text.Units
/-! # References in text

A reference is an ampersand, a word and a semicolon.  Five words name a character; a word that
begins with `#` gives the code of one, in decimal or after `x` in hexadecimal.  Whatever else
begins with an ampersand stands for itself.

A code is a number of double precision and stands for units of sixteen bits, not for a
character: up to `FFFF` for the one unit of that value, whatever it is, and above for two.  So
two references may make up one character between them. -/

set_option autoImplicit false

namespace AssetCatalog.Markup

def namedCharacters : List (List Char × Char) :=
  [("amp".toList, '&'), ("lt".toList, '<'), ("gt".toList, '>'), ("quot".toList, '"'),
    ("apos".toList, '\'')]

def isDecimalDigit (c : Char) : Bool := decide ('0' ≤ c) && decide (c ≤ '9')

def isHexDigit (c : Char) : Bool :=
  isDecimalDigit c || (decide ('a' ≤ c) && decide (c ≤ 'f')) || (decide ('A' ≤ c) && decide (c ≤ 'F'))

def isWordCharacter (c : Char) : Bool :=
  isDecimalDigit c || (decide ('a' ≤ c) && decide (c ≤ 'z'))
    || (decide ('A' ≤ c) && decide (c ≤ 'Z')) || c = '_'

def hexValue (c : Char) : Nat :=
  if isDecimalDigit c then c.toNat - '0'.toNat
  else if 'a' ≤ c then c.toNat - 'a'.toNat + 10
  else c.toNat - 'A'.toNat + 10

def codeOf (base : Nat) (digits : List Char) : Nat :=
  digits.foldl (fun value c => value * base + hexValue c) 0

/-- The two units of a code above `FFFF`.  What is left of it without the first plane counts as
a whole number of 32 bits with a sign: its upper part goes into the first unit and its lowest
ten bits into the second. -/
def unitPair (beyond : Int) : List Nat :=
  let word := beyond.bmod 0x100000000
  [((0xD800 + word.fdiv 0x400) % 0x10000).toNat, (0xDC00 + word % 0x400).toNat]

/-- The units that a code stands for.  A code too large for a number counts as the first one
above `FFFF`. -/
def unitsOfCode (code : Nat) : List Nat :=
  match Number.ofNat code with
  | .finite value => if value.num ≤ 0xFFFF then [value.num.toNat] else unitPair (value.num - 0x10000)
  | _ => unitPair 0

def referenced (word : List Char) : Option (List Nat) :=
  match word with
  | '#' :: 'x' :: digits =>
    if digits ≠ [] ∧ digits.all isHexDigit then some (unitsOfCode (codeOf 16 digits)) else none
  | '#' :: digits =>
    if digits ≠ [] ∧ digits.all isDecimalDigit then some (unitsOfCode (codeOf 10 digits)) else none
  | word => (namedCharacters.lookup word).map Text.unitsOf

def leadingWord (cs : List Char) : Option (List Char) :=
  let (mark, rest) := match cs with
    | '#' :: rest => (['#'], rest)
    | _ => ([], cs)
  let word := rest.takeWhile isWordCharacter
  match word, rest.dropWhile isWordCharacter with
  | _ :: _, ';' :: _ => some (mark ++ word)
  | _, _ => none

def expandFrom (skip : Nat) : List Char → List Nat
  | [] => []
  | c :: rest =>
    match skip with
    | more + 1 => expandFrom more rest
    | 0 =>
      if c = '&' then
        match (leadingWord rest).bind fun word => (referenced word).map fun units => (word, units) with
        | none => Text.unitsOf c ++ expandFrom 0 rest
        | some (word, units) => units ++ expandFrom (word.length + 1) rest
      else Text.unitsOf c ++ expandFrom 0 rest

def expand (cs : List Char) : List Nat := expandFrom 0 cs

def expanded (cs : List Char) : List Char := Text.ofUnits (expand cs)

example : expanded "a &amp;lt; &#x42;&#67; &nbsp; & &#x; &lt".toList
    = "a &lt; BC &nbsp; & &#x; &lt".toList := by decide +kernel
example : expanded "&#xD83D;&#56832;&#xD83D;".toList = ['😀', '\ufffd'] := by decide +kernel

end AssetCatalog.Markup
