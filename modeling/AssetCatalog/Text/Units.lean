/-! # Sixteen-bit units

A character is one unit of sixteen bits, or two if its code point lies beyond U+FFFF.  Lengths
are counted and texts are ordered by these units where a text is measured against others.
`ofUnits` goes back: two units that are the halves of a character make it up, and half a
character by itself counts as U+FFFD.  Nothing is lost on the way from a text to its units and
back. -/

set_option autoImplicit false

namespace AssetCatalog.Text

def unitsOf (c : Char) : List Nat :=
  let code := c.toNat
  if code < 0x10000 then [code]
  else [0xD800 + (code - 0x10000) / 0x400, 0xDC00 + (code - 0x10000) % 0x400]

def unitsOfAll (cs : List Char) : List Nat := cs.flatMap unitsOf

def units (s : String) : List Nat := unitsOfAll s.toList

def isFirstHalf (unit : Nat) : Bool := decide (0xD800 ≤ unit) && decide (unit < 0xDC00)

def isSecondHalf (unit : Nat) : Bool := decide (0xDC00 ≤ unit) && decide (unit < 0xE000)

def ofUnit (unit : Nat) : Char :=
  if h : unit.isValidChar then Char.ofNatAux unit h else '\ufffd'

def ofHalves (first second : Nat) : Char :=
  ofUnit (0x10000 + (first - 0xD800) * 0x400 + (second - 0xDC00))

def ofUnits : List Nat → List Char
  | [] => []
  | [unit] => [ofUnit unit]
  | first :: second :: rest =>
    if isFirstHalf first && isSecondHalf second then ofHalves first second :: ofUnits rest
    else ofUnit first :: ofUnits (second :: rest)

example : units "a😀" = [0x61, 0xD83D, 0xDE00] := by decide +kernel
example : ofUnits [0xD83D, 0x61, 0xD83D, 0xDE00] = ['\ufffd', 'a', '😀'] := by decide +kernel

end AssetCatalog.Text
