import AssetCatalog.Text.Units
/-! # Similar words

The distance of two words is the least number of edits that make one out of the other: a unit
put in, taken out or exchanged, or two neighbours swapped, where no part is edited twice.  It
is found row by row, one for each unit of the second word.  `similar` picks the candidates that
are nearest to a word, if they are near enough to have been meant. -/

set_option autoImplicit false

namespace AssetCatalog.CommandLine

variable {α : Type} [DecidableEq α]

/-- A row of distances: those of the beginnings of the first word, from the empty one on, to one
beginning of the second word. -/
abbrev Row := List Nat

def entry (row : Row) (n : Nat) : Nat := row[n]?.getD 0

def isSwapped (word : List α) (n : Nat) (last : Option α) (unit : α) : Bool :=
  decide (2 ≤ n) && decide (word[n - 2]? = some unit)
    && last.isSome && decide (word[n - 1]? = last)

def distanceAt (word : List α) (earlier previous : Row) (last : Option α) (unit : α)
    (before n : Nat) : Nat :=
  let exchange := if word[n - 1]? = some unit then 0 else 1
  let least := min (min (before + 1) (entry previous n + 1))
    (entry previous (n - 1) + exchange)
  if isSwapped word n last unit then min least (entry earlier (n - 2) + 1) else least

def nextRow (word : List α) (earlier previous : Row) (last : Option α) (unit : α) : Row :=
  let first := entry previous 0 + 1
  ((List.range word.length).foldl (fun (row, before) n =>
    let distance := distanceAt word earlier previous last unit before (n + 1)
    (row ++ [distance], distance)) ([first], first)).1

def lastRow (word : List α) (earlier previous : Row) (last : Option α) : List α → Row
  | [] => previous
  | unit :: rest =>
    lastRow word previous (nextRow word earlier previous last unit) (some unit) rest

def furthest : Nat := 3

/-- The distance of two words; the length of the longer one if their lengths alone are too far
apart. -/
def distance (a b : List α) : Nat :=
  if max a.length b.length - min a.length b.length > furthest then max a.length b.length
  else entry (lastRow a [] (List.range (a.length + 1)) none b) a.length

/-- The candidate at a distance is near enough to have been meant: more than two fifths of the
longer word are left as they are. -/
def isNear (word candidate : List α) (distance : Nat) : Bool :=
  let length := max word.length candidate.length
  decide (2 * length < 5 * (length - distance))

def nearest (word : List Nat) : Nat → List String → List String → List String
  | _, found, [] => found
  | best, found, candidate :: rest =>
    let units := Text.units candidate
    let apart := distance word units
    if isNear word units apart then
      if apart < best then nearest word apart [candidate] rest
      else if apart = best then nearest word best (found ++ [candidate]) rest
      else nearest word best found rest
    else nearest word best found rest

def similar (word : String) (candidates : List String) : List String :=
  (nearest (Text.units word) furthest [] candidates).mergeSort fun a b => decide (a ≤ b)

example : distance "verbsoe".toList "verbose".toList = 1 := by decide +kernel
example : distance "ab".toList "".toList = 2 := by decide +kernel

end AssetCatalog.CommandLine
