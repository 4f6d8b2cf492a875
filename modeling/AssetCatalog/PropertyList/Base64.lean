import AssetCatalog.Text.Units
import AssetCatalog.Text.Blank
/-! # Octets written in 64 characters

Four characters of six bits make three octets.  The two alphabets in use are both read; other
characters are passed over, an equals sign ends the text, and bits that do not fill an octet at
the end are dropped.  Of the text, white space goes first; then only the low eight bits of each
unit count. -/

set_option autoImplicit false

namespace AssetCatalog.PropertyList.Base64

def sextet (c : Char) : Option Nat :=
  if 'A' ≤ c ∧ c ≤ 'Z' then some (c.toNat - 'A'.toNat)
  else if 'a' ≤ c ∧ c ≤ 'z' then some (c.toNat - 'a'.toNat + 26)
  else if '0' ≤ c ∧ c ≤ '9' then some (c.toNat - '0'.toNat + 52)
  else if c = '+' ∨ c = '-' then some 62
  else if c = '/' ∨ c = '_' then some 63
  else none

def octets : List Nat → List UInt8
  | a :: b :: c :: d :: rest =>
    .ofNat (a * 4 + b / 16) :: .ofNat (b * 16 + c / 4) :: .ofNat (c * 64 + d) :: octets rest
  | [a, b, c] => [.ofNat (a * 4 + b / 16), .ofNat (b * 16 + c / 4)]
  | [a, b] => [.ofNat (a * 4 + b / 16)]
  | _ => []

def lowCharacter (unit : Nat) : Char := Char.ofNat (unit % 0x100)

def decode (units : List Nat) : List UInt8 :=
  let letters := (units.filter fun unit => !Text.inRanges Text.blankRanges unit).map lowCharacter
  octets ((letters.takeWhile (· ≠ '=')).filterMap sextet)

example : decode (Text.units "aGVs\n bG8=aGk=") = "hello".toUTF8.toList := by decide +kernel
example : decode (Text.units "+_8") = [0xFB, 0xFF] := by decide +kernel

end AssetCatalog.PropertyList.Base64
