import AssetCatalog.Number.Reading
/-! # Points in time

A point in time is a count of milliseconds since the beginning of 1970, in the proleptic
Gregorian calendar without leap seconds.  `Calendar.read` takes the international forms: a
year, with month and day or without, and after a day a time of day with an optional fraction
and zone; a time without zone is universal time.  A day of the month may be up to 31 whatever
the month is and then runs on into the next one, and the hour 24 is the next midnight.
`Calendar.text` writes universal time down to the millisecond. -/

set_option autoImplicit false

namespace AssetCatalog.Calendar

open AssetCatalog.Number (isDigit digitsValue)

/-! ## Days -/

/-- Days from the beginning of 1970 to a day of the month `month` of the year `year`.  The
years are counted from March, so that the leap day comes last. -/
def daysTo (year : Int) (month day : Nat) : Int :=
  let year := if month ≤ 2 then year - 1 else year
  let era := year.fdiv 400
  let yearOfEra := year - era * 400
  let dayOfYear : Int := ((153 * ((month + 9) % 12) + 2) / 5 : Nat) + (day : Int) - 1
  era * 146097 + yearOfEra * 365 + yearOfEra / 4 - yearOfEra / 100 + dayOfYear - 719468

def dateOf (days : Int) : Int × Nat × Nat :=
  let days := days + 719468
  let era := days.fdiv 146097
  let dayOfEra := days - era * 146097
  let yearOfEra := (dayOfEra - dayOfEra / 1460 + dayOfEra / 36524 - dayOfEra / 146096) / 365
  let dayOfYear := (dayOfEra - (365 * yearOfEra + yearOfEra / 4 - yearOfEra / 100)).toNat
  let monthFromMarch := (5 * dayOfYear + 2) / 153
  let day := dayOfYear - (153 * monthFromMarch + 2) / 5 + 1
  let month := if monthFromMarch < 10 then monthFromMarch + 3 else monthFromMarch - 9
  (yearOfEra + era * 400 + (if month ≤ 2 then 1 else 0), month, day)

def millisecondsPerDay : Int := 86400000

def furthest : Int := 8640000000000000

/-! ## Reading -/

def takeDigits (count : Nat) (cs : List Char) : Option (Nat × List Char) :=
  let digits := cs.take count
  if digits.length = count ∧ digits.all isDigit then some (digitsValue digits, cs.drop count)
  else none

/-- A year of four digits, or of six with a sign; the year nought has no negative form. -/
def takeYear : List Char → Option (Int × List Char)
  | '-' :: rest => (takeDigits 6 rest).bind fun (year, rest) =>
    if year = 0 then none else some (-(year : Int), rest)
  | '+' :: rest => (takeDigits 6 rest).map fun (year, rest) => ((year : Int), rest)
  | cs => (takeDigits 4 cs).map fun (year, rest) => ((year : Int), rest)

def takeAfter (mark : Char) (missing : Nat) (cs : List Char) : Option (Nat × List Char) :=
  match cs with
  | c :: rest => if c = mark then takeDigits 2 rest else some (missing, cs)
  | [] => some (missing, [])

def takeMilliseconds : List Char → Option (Nat × List Char)
  | '.' :: rest =>
    match rest.takeWhile isDigit with
    | [] => none
    | digits => some (digitsValue ((digits ++ ['0', '0']).take 3), rest.dropWhile isDigit)
  | cs => some (0, cs)

def takeSeconds : List Char → Option (Nat × Nat × List Char)
  | ':' :: rest => do
    let (seconds, rest) ← takeDigits 2 rest
    let (milliseconds, rest) ← takeMilliseconds rest
    some (seconds, milliseconds, rest)
  | cs => some (0, 0, cs)

def readZone : List Char → Option Int
  | [] => some 0
  | [c] => if c = 'Z' ∨ c = 'z' then some 0 else none
  | sign :: rest => do
    let direction ← if sign = '+' then some (1 : Int) else if sign = '-' then some (-1) else none
    let (hours, rest) ← takeDigits 2 rest
    let (minutes, rest) ← match rest with
      | ':' :: rest => takeDigits 2 rest
      | _ => takeDigits 2 rest
    if rest = [] ∧ hours < 24 ∧ minutes < 60 then some (direction * (hours * 60 + minutes : Nat))
    else none

def readTime : List Char → Option Int
  | [] => some 0
  | mark :: rest => do
    if mark ≠ 'T' ∧ mark ≠ 't' then none
    let (hours, rest) ← takeDigits 2 rest
    let (minutes, rest) ← match rest with
      | ':' :: rest => takeDigits 2 rest
      | _ => none
    let (seconds, milliseconds, rest) ← takeSeconds rest
    let zone ← readZone rest
    let time : Nat := ((hours * 60 + minutes) * 60 + seconds) * 1000 + milliseconds
    if minutes < 60 ∧ seconds < 60 ∧ (hours < 24 ∨ time = 24 * 3600000) then
      some ((time : Int) - zone * 60000)
    else none

def read (cs : List Char) : Option Int := do
  let (year, rest) ← takeYear cs
  let (month, rest) ← takeAfter '-' 1 rest
  let (day, rest) ← takeAfter '-' 1 rest
  let time ← readTime rest
  if 1 ≤ month ∧ month ≤ 12 ∧ 1 ≤ day ∧ day ≤ 31 then
    let instant := daysTo year month day * millisecondsPerDay + time
    if instant.natAbs ≤ furthest.natAbs then some instant else none
  else none

/-! ## Writing -/

def padded (width n : Nat) : String :=
  let digits := Nat.toDigits 10 n
  String.ofList (List.replicate (width - digits.length) '0' ++ digits)

def yearText (year : Int) : String :=
  if 0 ≤ year ∧ year < 10000 then padded 4 year.toNat
  else (if year < 0 then "-" else "+") ++ padded 6 year.natAbs

def text (instant : Int) : String :=
  let days := instant.fdiv millisecondsPerDay
  let time := (instant - days * millisecondsPerDay).toNat
  let (year, month, day) := dateOf days
  yearText year ++ "-" ++ padded 2 month ++ "-" ++ padded 2 day ++ "T"
    ++ padded 2 (time / 3600000) ++ ":" ++ padded 2 (time / 60000 % 60) ++ ":"
    ++ padded 2 (time / 1000 % 60) ++ "." ++ padded 3 (time % 1000) ++ "Z"

example : (read "2024-02-30T00:00:00Z".toList).map text = some "2024-03-01T00:00:00.000Z" := by
  decide +kernel
example : (read "2024-12-31T24:00:00Z".toList).map text = some "2025-01-01T00:00:00.000Z" := by
  decide +kernel
example : (read "1969-12-31T23:59:59Z".toList).map text = some "1969-12-31T23:59:59.000Z" := by
  decide +kernel
example : (read "2024-06-01T12:00:00.5+02:00".toList).map text
    = some "2024-06-01T10:00:00.500Z" := by decide +kernel
example : read "2024-06-01T12:00.5Z".toList = none := by decide +kernel
example : read "2024-13-01T00:00:00Z".toList = none := by decide +kernel

end AssetCatalog.Calendar
