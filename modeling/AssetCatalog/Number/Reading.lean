import AssetCatalog.Number.Basic
import AssetCatalog.Text.Blank
/-! # Reading numbers

Two readers take the longest beginning of a text that is a number and leave the rest aside:
`leadingWhole` for a whole number and `leadingDecimal` for a decimal, which may have a point,
an exponent, or be an infinity.  `ofText` takes a text that is a number from end to end. -/

set_option autoImplicit false

namespace AssetCatalog.Number

open AssetCatalog.Text

def isDigit (c : Char) : Bool := decide ('0' ≤ c) && decide (c ≤ '9')

def digitsValue (digits : List Char) : Nat :=
  digits.foldl (fun value c => value * 10 + (c.toNat - '0'.toNat)) 0

def takeSign : List Char → Bool × List Char
  | '-' :: rest => (true, rest)
  | '+' :: rest => (false, rest)
  | cs => (false, cs)

def signed (negative : Bool) : Number → Number
  | .notANumber => .notANumber
  | .infinite other => .infinite (negative != other)
  | .finite value => .finite (if negative then -value else value)

/-- The whole number a text begins with, after blanks; no digits, no number. -/
def leadingWhole (cs : List Char) : Number :=
  let (negative, rest) := takeSign (skipBlanks cs)
  match rest.takeWhile isDigit with
  | [] => .notANumber
  | digits => signed negative (ofNat (digitsValue digits))

/-- Decimals whose first digit stands this far from the point are infinite or nought. -/
def farPlace : Int := 400

def ofDecimal (digits : Nat) (place : Int) : Number :=
  if digits = 0 then .finite 0
  else
    let leading := ((Nat.toDigits 10 digits).length : Int) + place
    if farPlace < leading then .infinite false
    else if leading < -farPlace then .finite 0
    else if 0 ≤ place then nearest ((digits * Nat.pow 10 place.toNat : Nat) : Rat)
    else nearest (mkRat digits (Nat.pow 10 (-place).toNat))

def takeExponent : List Char → Int × List Char
  | c :: rest =>
    if c = 'e' ∨ c = 'E' then
      let (negative, tail) := takeSign rest
      match tail.takeWhile isDigit with
      | [] => (0, c :: rest)
      | digits =>
        let value : Int := digitsValue digits
        (if negative then -value else value, tail.dropWhile isDigit)
    else (0, c :: rest)
  | [] => (0, [])

def takeFraction : List Char → List Char × List Char
  | '.' :: rest => (rest.takeWhile isDigit, rest.dropWhile isDigit)
  | cs => ([], cs)

def takeMagnitude (cs : List Char) : Option (Number × List Char) :=
  match "Infinity".toList.isPrefixOf? cs with
  | some rest => some (.infinite false, rest)
  | none =>
    let whole := cs.takeWhile isDigit
    let (fraction, rest) := takeFraction (cs.dropWhile isDigit)
    match whole ++ fraction with
    | [] => none
    | digits =>
      let (exponent, rest) := takeExponent rest
      some (ofDecimal (digitsValue digits) (exponent - (fraction.length : Int)), rest)

def takeDecimal (cs : List Char) : Option (Number × List Char) :=
  let (negative, rest) := takeSign (skipBlanks cs)
  (takeMagnitude rest).map fun (magnitude, left) => (signed negative magnitude, left)

def leadingDecimal (cs : List Char) : Number :=
  match takeDecimal cs with
  | some (number, _) => number
  | none => .notANumber

/-- The number that a whole text is, blanks at its ends aside; a blank text is nought. -/
def ofText (s : String) : Number :=
  match trim s.toList with
  | [] => .finite 0
  | cs =>
    match takeDecimal cs with
    | some (number, []) => number
    | _ => .notANumber

example : leadingWhole "\n12x".toList = .finite 12 := by decide +kernel
example : leadingDecimal "-.5e1.".toList = .finite (-5) := by decide +kernel
example : leadingDecimal "1e".toList = .finite 1 := by decide +kernel
example : ofText "1e400" = .infinite false := by decide +kernel
example : ofText "5x" = .notANumber := by decide +kernel

end AssetCatalog.Number
