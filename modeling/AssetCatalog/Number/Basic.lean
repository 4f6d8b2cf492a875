/-! # Numbers of double precision

A number is not a number, an infinity, or an exact rational value.  `nearest` is the one way
in: it rounds a rational to 53 significant binary places, halves to the even neighbour, never
finer than `2 ^ -1074`, and gives an infinity from `2 ^ 1024` up.  Zero has no sign, because
no text and no comparison shows one.

Comparison is that of the values.  What is not a number is neither equal to nor above
anything, itself included. -/

set_option autoImplicit false

namespace AssetCatalog

inductive Number where
  | notANumber
  | infinite (negative : Bool)
  | finite (value : Rat)
  deriving DecidableEq

namespace Number

/-! ## Rounding -/

def roundHalfEven (num den : Nat) : Nat :=
  let low := num / den
  let twice := 2 * (num % den)
  if twice < den then low
  else if den < twice then low + 1
  else if low % 2 = 0 then low else low + 1

/-- The quotient `num / den` divided by `2 ^ place`, as a fraction. -/
def scaled (num den : Nat) (place : Int) : Nat × Nat :=
  if 0 ≤ place then (num, den * Nat.pow 2 place.toNat) else (num * Nat.pow 2 (-place).toNat, den)

def leadingPlace (num den : Nat) : Int :=
  let guess : Int := (num.log2 : Int) - den.log2
  let (top, bottom) := scaled num den guess
  if bottom ≤ top then guess else guess - 1

def lastPlace (num den : Nat) : Int :=
  max (leadingPlace num den - 52) (-1074)

def units (count : Nat) (place : Int) : Rat :=
  if 0 ≤ place then ((count * Nat.pow 2 place.toNat : Nat) : Rat)
  else mkRat count (Nat.pow 2 (-place).toNat)

/-- The number nearest to a positive quotient; none when it is too large. -/
def nearestMagnitude (num den : Nat) : Option Rat :=
  let place := lastPlace num den
  let (top, bottom) := scaled num den place
  let value := units (roundHalfEven top bottom) place
  if value < (Nat.pow 2 1024 : Rat) then some value else none

def nearest (value : Rat) : Number :=
  if value.num = 0 then .finite 0
  else
    let negative := decide (value.num < 0)
    match nearestMagnitude value.num.natAbs value.den with
    | some magnitude => .finite (if negative then -magnitude else magnitude)
    | none => .infinite negative

def exactBound : Nat := Nat.pow 2 53

def ofNat (n : Nat) : Number :=
  if n ≤ exactBound then .finite (n : Rat) else nearest (n : Rat)

/-! ## Comparison -/

/-- Equal values; what is not a number equals nothing. -/
def same : Number → Number → Bool
  | .notANumber, _ => false
  | a, b => decide (a = b)

def exceeds : Number → Number → Bool
  | .notANumber, _ => false
  | _, .notANumber => false
  | .infinite negative, .infinite other => !negative && other
  | .infinite negative, .finite _ => !negative
  | .finite _, .infinite negative => negative
  | .finite a, .finite b => decide (b < a)

/-! ## Arithmetic

Each operation rounds its exact result. -/

def dividedBy (a : Number) (divisor : Nat) : Number :=
  match a with
  | .finite value => nearest (value / (divisor : Rat))
  | other => other

def floor : Number → Number
  | .finite value => nearest (value.floor : Rat)
  | other => other

/-- The whole number nearest to the value, halves upwards. -/
def round : Number → Number
  | .finite value => nearest ((value + mkRat 1 2).floor : Rat)
  | other => other

/-- What is left after taking away whole multiples of a positive number, with the sign of
the value; an infinity leaves nothing that is a number. -/
def remainder (a : Number) (divisor : Nat) : Number :=
  match a with
  | .finite value =>
    let quotient := value / (divisor : Rat)
    let whole := if quotient < 0 then -(-quotient).floor else quotient.floor
    .finite (value - (whole : Rat) * (divisor : Rat))
  | _ => .notANumber

example : ofNat 9007199254740993 = .finite 9007199254740992 := by decide +kernel
example : ofNat (10 ^ 400) = .infinite false := by decide +kernel
example : nearest (mkRat 1 10) = .finite (mkRat 3602879701896397 36028797018963968) := by
  decide +kernel

end Number

end AssetCatalog
