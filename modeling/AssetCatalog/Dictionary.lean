/-! # The order of a dictionary

A dictionary is a list of entries with different keys.  Its order is fixed by what was put in:
keys that are array indices come first, in ascending order of the index, and all other keys
follow in the order in which they first came.  Putting a key a second time changes its value
and not its place. -/

set_option autoImplicit false

namespace AssetCatalog.Dictionary

variable {α : Type}

def indexBound : Nat := 4294967295

/-- The index a key is the canonical decimal text of, if it is one. -/
def indexOf (key : String) : Option Nat :=
  let cs := key.toList
  let value := cs.foldl (fun value c => value * 10 + (c.toNat - '0'.toNat)) 0
  if cs.length ≤ 10 ∧ cs.all (fun c => decide ('0' ≤ c) && decide (c ≤ '9'))
      ∧ Nat.toDigits 10 value = cs ∧ value < indexBound then some value
  else none

def get? (entries : List (String × α)) (key : String) : Option α :=
  entries.lookup key

def has (entries : List (String × α)) (key : String) : Bool :=
  (get? entries key).isSome

/-- A key that stands before a new key with the given index. -/
def standsBefore (index : Nat) (entry : String × α) : Bool :=
  match indexOf entry.1 with
  | some other => decide (other < index)
  | none => false

/-- The entries with a key that is not among them put in its place. -/
def place (entries : List (String × α)) (key : String) (value : α) : List (String × α) :=
  match indexOf key with
  | none => entries ++ [(key, value)]
  | some index =>
    entries.takeWhile (standsBefore index) ++ (key, value) ::
      entries.dropWhile (standsBefore index)

def put (entries : List (String × α)) (key : String) (value : α) : List (String × α) :=
  if has entries key then
    entries.map fun entry => if entry.1 = key then (key, value) else entry
  else place entries key value

def ofList (entries : List (String × α)) : List (String × α) :=
  entries.foldl (fun entries entry => put entries entry.1 entry.2) []

example : (ofList [("b", 1), ("10", 2), ("01", 3), ("9", 4), ("b", 5)])
    = [("9", 4), ("10", 2), ("b", 5), ("01", 3)] := by decide +kernel

end AssetCatalog.Dictionary
