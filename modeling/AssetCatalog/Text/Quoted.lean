/-! # Quoted text

A text is quoted as in a JSON document: between double quotes, with a backslash before a
double quote and before a backslash, short forms for backspace, form feed and the three
characters of ordinary layout, and the code of any other control character below U+0020 in
four digits.  All else stands for itself, so a quoted text never holds a line feed.

A text is displayed between quotes of a kind that it does not hold, if there is one, and with
other short forms. -/

set_option autoImplicit false

namespace AssetCatalog.Text

def hexDigit (n : Nat) : Char :=
  if n < 10 then Char.ofNat ('0'.toNat + n) else Char.ofNat ('a'.toNat + (n - 10))

def escaped (c : Char) : List Char :=
  if c = '"' then ['\\', '"']
  else if c = '\\' then ['\\', '\\']
  else if c = '\n' then ['\\', 'n']
  else if c = '\r' then ['\\', 'r']
  else if c = '\t' then ['\\', 't']
  else if c.toNat = 0x08 then ['\\', 'b']
  else if c.toNat = 0x0C then ['\\', 'f']
  else if c.toNat < 0x20 then
    ['\\', 'u', '0', '0', hexDigit (c.toNat / 16), hexDigit (c.toNat % 16)]
  else [c]

def quoted (s : String) : String :=
  String.ofList ('"' :: (s.toList.flatMap escaped ++ ['"']))

/-! ## Displayed texts -/

def thirdQuote : Char := Char.ofNat 0x60

/-- The quotes that a text is displayed in: single ones, if it holds them double ones, and if it
holds these too the third kind; if none will do, single ones. -/
def displayQuote (cs : List Char) : Char :=
  if !cs.contains '\'' then '\''
  else if !cs.contains '"' then '"'
  else if !cs.contains thirdQuote && !(cs.zip cs.tail).contains ('$', '\x7b') then thirdQuote
  else '\''

def displayedCharacter (mark c : Char) : List Char :=
  let code := c.toNat
  if c = '\\' || (c = '\'' && mark = '\'') then ['\\', c]
  else if c = '\n' then ['\\', 'n']
  else if c = '\r' then ['\\', 'r']
  else if c = '\t' then ['\\', 't']
  else if code = 0x08 then ['\\', 'b']
  else if code = 0x0C then ['\\', 'f']
  else if code < 0x20 || (0x7F ≤ code && code ≤ 0x9F) then
    ['\\', 'x', (hexDigit (code / 16)).toUpper, (hexDigit (code % 16)).toUpper]
  else [c]

def displayed (s : String) : String :=
  let cs := s.toList
  let mark := displayQuote cs
  String.ofList (mark :: (cs.flatMap (displayedCharacter mark) ++ [mark]))

example : displayed "x\x00'\n" = "\"x\\x00'\\n\"" := by decide +kernel
example : quoted "a\"\\\n\x01" = "\"a\\\"\\\\\\n\\u0001\"" := by decide

end AssetCatalog.Text
