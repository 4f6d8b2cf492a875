import AssetCatalog.Number.Basic
/-! # Writing numbers

The digits written are the fewest that read back to the same number; of several decimals with
that many digits the nearest one, and of two equally near ones the even one.  `shortest` finds
them by trying one digit, two digits and so on: with a given count of digits only the two
decimals around the value can read back.

A value is written out in full when its point stands at most 21 places after the first digit
and at most six places before it.  Any other value has one digit before the point, and an
exponent with its sign. -/

set_option autoImplicit false

namespace AssetCatalog.Number

/-! ## The fewest digits -/

structure Decimal where
  digits : Nat
  place : Int

namespace Decimal

def value (d : Decimal) : Rat :=
  if 0 ≤ d.place then ((d.digits * Nat.pow 10 d.place.toNat : Nat) : Rat)
  else mkRat d.digits (Nat.pow 10 (-d.place).toNat)

/-- How many decimal places lie before the point: `10 ^ (k - 1) ≤ num / den < 10 ^ k`. -/
def pointOf (num den : Nat) : Int :=
  if den ≤ num then ((Nat.toDigits 10 (num / den)).length : Int)
  else 1 - ((Nat.toDigits 10 ((den - 1) / num)).length : Int)

def countBelow (num den : Nat) (place : Int) : Nat :=
  if 0 ≤ place then num / (den * Nat.pow 10 place.toNat)
  else num * Nat.pow 10 (-place).toNat / den

def readsBack (value : Rat) (d : Decimal) : Bool := decide (nearest d.value = .finite value)

/-- The decimal with `count` digits that reads back to a positive value, if there is one. -/
def withDigits (value : Rat) (count : Nat) : Option Decimal :=
  let num := value.num.natAbs
  let place := pointOf num value.den - (count : Int)
  let low : Decimal := ⟨countBelow num value.den place, place⟩
  let high : Decimal := ⟨low.digits + 1, place⟩
  match readsBack value low, readsBack value high with
  | false, false => none
  | true, false => some low
  | false, true => some high
  | true, true =>
    let below := value - low.value
    let above := high.value - value
    if below < above then some low
    else if above < below then some high
    else if low.digits % 2 = 0 then some low else some high

def enoughDigits : Nat := 17

def shortest (value : Rat) : Decimal :=
  match (List.range enoughDigits).findSome? fun n => withDigits value (n + 1) with
  | some d => d
  | none =>
    let place := pointOf value.num.natAbs value.den - (enoughDigits : Int)
    ⟨countBelow value.num.natAbs value.den place, place⟩

end Decimal

/-! ## The notation -/

def mostPlaces : Int := 21

/-- A value below one is written in full with fewer than this many noughts after the point. -/
def mostNoughts : Int := 6

def dropTrailingNoughts (digits : List Char) : List Char :=
  (digits.reverse.dropWhile (· = '0')).reverse

def layout (digits : List Char) (point : Int) : List Char :=
  let count : Int := digits.length
  if count ≤ point ∧ point ≤ mostPlaces then
    digits ++ List.replicate (point - count).toNat '0'
  else if 0 < point ∧ point ≤ mostPlaces then
    digits.take point.toNat ++ '.' :: digits.drop point.toNat
  else if -mostNoughts < point ∧ point ≤ 0 then
    '0' :: '.' :: (List.replicate (-point).toNat '0' ++ digits)
  else
    let exponent := point - 1
    let sign := if exponent < 0 then '-' else '+'
    let mantissa := match digits with
      | [] => []
      | [digit] => [digit]
      | digit :: rest => digit :: '.' :: rest
    mantissa ++ 'e' :: sign :: Nat.toDigits 10 exponent.natAbs

def positiveText (value : Rat) : List Char :=
  let d := Decimal.shortest value
  let digits := Nat.toDigits 10 d.digits
  layout (dropTrailingNoughts digits) (digits.length + d.place)

/-- The text of a value; a whole number below `2 ^ 53` is its own shortest text. -/
def valueText (value : Rat) : List Char :=
  let sign := if value.num < 0 then ['-'] else []
  if value.den = 1 ∧ value.num.natAbs < exactBound then
    sign ++ Nat.toDigits 10 value.num.natAbs
  else sign ++ positiveText (if value.num < 0 then -value else value)

def text : Number → String
  | .notANumber => "NaN"
  | .infinite negative => if negative then "-Infinity" else "Infinity"
  | .finite value => String.ofList (valueText value)

theorem text_ofNat {n : Nat} (small : n < exactBound) : (ofNat n).text = toString n := by
  have sign : ¬ (n : Rat).num < 0 := by simp
  rw [ofNat, if_pos (Nat.le_of_lt small), text, valueText, if_neg sign, if_pos ⟨rfl, small⟩,
    Nat.toString_eq_ofList_toDigits]
  rfl

def oneDecimal (value : Rat) : String :=
  let tenths := (value * 10 + mkRat 1 2).floor.toNat
  String.ofList (Nat.toDigits 10 (tenths / 10) ++ '.' :: Nat.toDigits 10 (tenths % 10))

example : text (nearest (mkRat 1 10)) = "0.1" := by decide +kernel
example : text (ofNat (10 ^ 21)) = "1e+21" := by decide +kernel
example : text (ofNat (10 ^ 23 - 1)) = "1e+23" := by decide +kernel
example : text (ofNat 18446744073709551615) = "18446744073709552000" := by decide +kernel
example : text (nearest (mkRat 1 1000000)) = "0.000001" := by decide +kernel
example : text (nearest (mkRat 15 100000000)) = "1.5e-7" := by decide +kernel
example : text (nearest (mkRat (-81) 4)) = "-20.25" := by decide +kernel

end AssetCatalog.Number
