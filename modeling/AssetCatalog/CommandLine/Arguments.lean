/-! # Sorting arguments

Arguments are sorted into switches, operands and a rest.  A switch is known by a short or a long
form; one that takes a value has it in the next argument, or in the same one behind an equals
sign.  Short switches may stand together behind one dash.

Two dashes alone end the switches.  From the first argument on that looks like a switch but is
not known, everything that is no known switch is left in the rest, for a reader who may know
more. -/

set_option autoImplicit false

namespace AssetCatalog.CommandLine

inductive Flag where
  | version
  | verbose
  | sourceRoot
  deriving DecidableEq

structure Switch where
  flag : Flag
  short : Option Char
  long : String
  takesValue : Bool
  deriving DecidableEq

structure Sorted where
  given : List (Flag × String)
  operands : List String
  rest : List String
  deriving DecidableEq

namespace Sorted

def empty : Sorted := ⟨[], [], []⟩

def has (sorted : Sorted) (flag : Flag) : Bool := sorted.given.any (·.1 = flag)

def value? (sorted : Sorted) (flag : Flag) : Option String :=
  ((sorted.given.filter (·.1 = flag)).getLast?).map (·.2)

def addFlag (flag : Flag) (value : List Char) (sorted : Sorted) : Sorted :=
  { sorted with given := (flag, String.ofList value) :: sorted.given }

def addOther (left : Bool) (argument : List Char) (sorted : Sorted) : Sorted :=
  if left then { sorted with rest := String.ofList argument :: sorted.rest }
  else { sorted with operands := String.ofList argument :: sorted.operands }

end Sorted

def looksLikeSwitch (argument : List Char) : Bool :=
  argument.head? = some '-' && decide (1 < argument.length)

def endOfSwitches : List Char := ['-', '-']

def switchWritten (known : List Switch) (argument : List Char) : Option Switch :=
  known.find? fun switch =>
    switch.short.map (fun c => ['-', c]) = some argument || ("--" ++ switch.long).toList = argument

/-- How an argument that is no known switch as a whole begins with one. -/
inductive Opening where
  | short (switch : Switch) (rest : List Char)
  | valued (switch : Switch) (value : List Char)
  | none

/-- The long switch before an equals sign, if it takes a value, and the value behind the sign. -/
def longOpening (known : List Switch) (argument : List Char) : Opening :=
  let name := argument.takeWhile (· ≠ '=')
  match switchWritten known name, argument.drop name.length with
  | some switch, '=' :: value =>
    if switch.takesValue then .valued switch value else .none
  | _, _ => .none

def opening (known : List Switch) (argument : List Char) : Opening :=
  match argument with
  | '-' :: c :: d :: rest =>
    if c = '-' then longOpening known argument
    else match switchWritten known ['-', c] with
      | some switch =>
        if switch.takesValue then .valued switch (d :: rest) else .short switch (d :: rest)
      | .none => .none
  | _ => .none

theorem length_of_opening_short {known : List Switch} {argument rest : List Char}
    {switch : Switch} (h : opening known argument = .short switch rest) :
    rest.length + 1 < argument.length := by
  unfold opening at h
  split at h
  · next c d tail =>
    split at h
    · unfold longOpening at h
      simp only at h
      split at h
      · split at h <;> simp at h
      · simp at h
    · split at h
      · split at h
        · simp at h
        · simp only [Opening.short.injEq] at h
          simp [← h.2]
      · simp at h
  · simp at h

/-- Sorts arguments; `left` tells that an unknown switch has come already.  Fails with the
switch that lacks its value. -/
def sortFrom (known : List Switch) (left : Bool) (arguments : List (List Char)) :
    Except Switch Sorted :=
  match arguments with
  | [] => .ok .empty
  | argument :: others =>
    if argument = endOfSwitches then
      let others := others.map String.ofList
      .ok (if left then ⟨[], [], String.ofList argument :: others⟩ else ⟨[], others, []⟩)
    else
      match switchWritten known argument, others with
      | some switch, others =>
        if switch.takesValue then
          match others with
          | [] => .error switch
          | value :: others => (sortFrom known left others).map (.addFlag switch.flag value)
        else (sortFrom known left others).map (.addFlag switch.flag [])
      | none, others =>
        match _opens : opening known argument with
        | .short switch rest =>
          (sortFrom known left (('-' :: rest) :: others)).map (.addFlag switch.flag [])
        | .valued switch value =>
          (sortFrom known left others).map (.addFlag switch.flag value)
        | .none =>
          let left := left || looksLikeSwitch argument
          (sortFrom known left others).map (.addOther left argument)
termination_by arguments.flatten.length + arguments.length
decreasing_by
  all_goals simp only [List.flatten_cons, List.length_append, List.length_cons] at *
  all_goals try have := length_of_opening_short _opens
  all_goals omega

def sort (known : List Switch) (arguments : List String) : Except Switch Sorted :=
  sortFrom known false (arguments.map String.toList)

end AssetCatalog.CommandLine
