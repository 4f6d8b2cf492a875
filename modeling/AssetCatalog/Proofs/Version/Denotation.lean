import AssetCatalog.Version
import AssetCatalog.Proofs.Number.Rounding
import AssetCatalog.Proofs.Text.Pieces
import Mathlib.Data.List.Induction
import Mathlib.Data.List.Lex
import Mathlib.Data.Nat.Digits.Defs
/-! # What a version text denotes

A version text writes down natural numbers: runs of decimal digits of any length, with single
dots between them and blanks around the whole (`Denotes`).  `parse_eq_some_iff` says that these
texts are read and no others.

What is read holds the numbers only up to rounding.  The order of versions is nevertheless that
of the exact numbers, lexicographic with a proper beginning before the whole, whenever the
numbers that are asked for are below `2 ^ 53` (`atLeast_ofNats_iff`). -/

set_option autoImplicit false

namespace AssetCatalog.Version

def numeral (run : List Char) : Nat :=
  Nat.ofDigits 10 (run.reverse.map fun digit => digit.toNat - '0'.toNat)

def IsRun (run : List Char) : Prop := run ≠ [] ∧ ∀ c ∈ run, c.isDigit = true

/-- The text, blanks at its ends aside, writes down the numbers: a run of digits for each of
them, and single dots between the runs. -/
def Denotes (s : String) (numbers : List Nat) : Prop :=
  ∃ runs : List (List Char), runs ≠ [] ∧ (∀ run ∈ runs, IsRun run) ∧
    Text.trim s.toList = ['.'].intercalate runs ∧ runs.map numeral = numbers

/-! ## Reading -/

theorem digitsValue_append (digits : List Char) (c : Char) :
    Number.digitsValue (digits ++ [c])
      = Number.digitsValue digits * 10 + (c.toNat - '0'.toNat) := by
  simp [Number.digitsValue]

theorem digitsValue_eq_numeral (run : List Char) : Number.digitsValue run = numeral run := by
  induction run using List.reverseRecOn with
  | nil => rfl
  | append_singleton run c ih =>
      rw [digitsValue_append, ih]
      simp [numeral, Nat.ofDigits_cons]
      omega

theorem isDigit_eq (c : Char) : Number.isDigit c = c.isDigit := rfl

theorem component_eq_some_iff {run : List Char} {number : Number} :
    component run = some number ↔ IsRun run ∧ number = .ofNat (numeral run) := by
  unfold component IsRun
  simp only [List.all_eq_true, isDigit_eq, digitsValue_eq_numeral]
  split
  · next isRun =>
    rw [Option.some.injEq]
    exact ⟨fun made => ⟨isRun, made.symm⟩, fun made => made.2.symm⟩
  · next other => simp [other]

theorem mapM_component_eq_some_iff {runs : List (List Char)} {components : List Number} :
    runs.mapM component = some components
      ↔ (∀ run ∈ runs, IsRun run) ∧ components = (runs.map numeral).map .ofNat := by
  induction runs generalizing components with
  | nil => simp [eq_comm]
  | cons run rest ih =>
      simp only [List.mapM_cons, bind, Option.bind_eq_some_iff, component_eq_some_iff, ih]
      constructor
      · rintro ⟨number, ⟨isRun, rfl⟩, others, ⟨areRuns, rfl⟩, made⟩
        cases made
        exact ⟨List.forall_mem_cons.mpr ⟨isRun, areRuns⟩, rfl⟩
      · rintro ⟨areRuns, rfl⟩
        obtain ⟨isRun, others⟩ := List.forall_mem_cons.mp areRuns
        exact ⟨_, ⟨isRun, rfl⟩, _, ⟨others, rfl⟩, rfl⟩

theorem dot_not_mem_of_isRun {run : List Char} (isRun : IsRun run) : '.' ∉ run := by
  intro member
  cases isRun.2 '.' member

theorem denotes_iff {s : String} {numbers : List Nat} : Denotes s numbers ↔
    (∀ run ∈ Text.split '.' (Text.trim s.toList), IsRun run) ∧
      (Text.split '.' (Text.trim s.toList)).map numeral = numbers := by
  constructor
  · rintro ⟨runs, some, areRuns, written, denoted⟩
    have pieces : Text.split '.' (Text.trim s.toList) = runs := by
      rw [written]
      exact Text.split_intercalate some fun run member => dot_not_mem_of_isRun (areRuns run member)
    rw [pieces]
    exact ⟨areRuns, denoted⟩
  · rintro ⟨areRuns, denoted⟩
    exact ⟨_, Text.split_ne_nil _ _, areRuns, (Text.intercalate_split _ _).symm, denoted⟩

/-- Exactly the texts that denote numbers are read, up to the rounding of each number. -/
theorem parse_eq_some_iff {s : String} {version : Version} :
    parse s = some version ↔ ∃ numbers, Denotes s numbers ∧ version = .ofNats numbers := by
  simp only [parse, Option.map_eq_some_iff, mapM_component_eq_some_iff, denotes_iff]
  constructor
  · rintro ⟨components, ⟨areRuns, rfl⟩, rfl⟩
    exact ⟨_, ⟨areRuns, rfl⟩, rfl⟩
  · rintro ⟨numbers, ⟨areRuns, rfl⟩, rfl⟩
    exact ⟨_, ⟨areRuns, rfl⟩, rfl⟩

theorem Denotes.unique {s : String} {numbers others : List Nat} (denoted : Denotes s numbers)
    (again : Denotes s others) : numbers = others :=
  (denotes_iff.mp denoted).2.symm.trans (denotes_iff.mp again).2

theorem Denotes.ne_nil {s : String} {numbers : List Nat} (denoted : Denotes s numbers) :
    numbers ≠ [] := by
  obtain ⟨runs, some, _, _, rfl⟩ := denoted
  simpa using some

/-! ## Order -/

theorem compareComponents_eq_lt_iff {numbers least : List Nat}
    (small : ∀ n ∈ least, n < Number.exactBound) :
    compareComponents (numbers.map .ofNat) (least.map .ofNat) = .lt
      ↔ List.Lex (· < ·) numbers least := by
  induction numbers generalizing least with
  | nil =>
      cases least with
      | nil => simp [compareComponents]
      | cons first rest => simp [compareComponents]
  | cons n numbers ih =>
      cases least with
      | nil => simp [compareComponents]
      | cons first rest =>
          obtain ⟨smallFirst, smallRest⟩ := List.forall_mem_cons.mp small
          simp only [List.map_cons, compareComponents, Number.same_ofNat_iff smallFirst,
            Number.exceeds_ofNat_iff smallFirst, List.cons_lex_cons_iff]
          by_cases same : n = first
          · subst same
            simp [ih smallRest]
          · rw [if_neg same]
            by_cases above : first < n
            · simp [above, same, Nat.le_of_lt above]
            · have below : n < first := by omega
              simp [above, below]

/-- Neither rounding nor overflow of a component changes how versions compare. -/
theorem atLeast_ofNats_iff (numbers : List Nat) {least : List Nat}
    (small : ∀ n ∈ least, n < Number.exactBound) :
    (ofNats numbers).atLeast (ofNats least) = true ↔ least ≤ numbers := by
  rw [← not_lt, atLeast, bne_iff_ne]
  exact not_congr (compareComponents_eq_lt_iff small)

end AssetCatalog.Version
