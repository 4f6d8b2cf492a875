import AssetCatalog.Proofs.Gate.Decision
import AssetCatalog.Proofs.Number.Order
import Mathlib.Order.Compare
/-! # The order of versions

Versions are compared by the first components that differ, and a proper beginning comes before
the whole (`Before`).  As long as every component is a number this is a total order, whatever the
lengths are: it is the lexicographic order on lists of numbers (`compares`).  Every version that is
read from a text has components, all of which are numbers, so this is the order by which the
version gate decides (`compare_lexicographic`). -/

set_option autoImplicit false

namespace AssetCatalog.Version

open Number (Comparable)

def ofComparable (components : List Comparable) : Version := ⟨components.map Comparable.number⟩

theorem forall_number_iff {version : Version} :
    (∀ number ∈ version.components, number ≠ .notANumber)
      ↔ ∃ components, version = ofComparable components := by
  obtain ⟨numbers⟩ := version
  simp only [ofComparable, mk.injEq]
  constructor
  · intro areNumbers
    refine ⟨numbers.attachWith _ areNumbers |>.map fun number => ⟨number.1, number.2⟩, ?_⟩
    simp
  · rintro ⟨components, rfl⟩ number member
    obtain ⟨component, _, rfl⟩ := List.mem_map.mp member
    exact component.isNumber

/-! ## Comparison -/

/-- The one list comes before the other: it has the smaller of the first components that differ,
or it is a proper beginning. -/
inductive Before : List Comparable → List Comparable → Prop where
  | component (shared : List Comparable) {x y : Comparable} (below : x < y)
      (rest others : List Comparable) : Before (shared ++ x :: rest) (shared ++ y :: others)
  | beginning (shared : List Comparable) (next : Comparable) (rest : List Comparable) :
      Before shared (shared ++ next :: rest)

theorem Before.cons {a b : List Comparable} (x : Comparable) (before : Before a b) :
    Before (x :: a) (x :: b) := by
  cases before with
  | component shared below rest others => exact .component (x :: shared) below rest others
  | beginning _ next rest => exact .beginning (x :: a) next rest

theorem before_iff_lt {a b : List Comparable} : Before a b ↔ a < b := by
  constructor
  · intro before
    cases before with
    | component shared below rest others =>
        exact List.append_left_lt (List.cons_lt_cons_iff.mpr (.inl below))
    | beginning _ next rest =>
        have longer : a ++ [] < a ++ next :: rest :=
          List.append_left_lt (List.nil_lt_cons next rest)
        rwa [List.append_nil] at longer
  · intro below
    induction below with
    | nil => exact .beginning [] _ _
    | rel smaller => exact .component [] smaller _ _
    | cons _ ih => exact ih.cons _

theorem compares_cons {a b : List Comparable} {ordering : Ordering} (x : Comparable)
    (rest : ordering.Compares a b) : ordering.Compares (x :: a) (x :: b) := by
  cases ordering with
  | lt => exact List.cons_lt_cons_iff.mpr (.inr ⟨rfl, rest⟩)
  | eq => exact congrArg (x :: ·) rest
  | gt => exact List.cons_lt_cons_iff.mpr (.inr ⟨rfl, rest⟩)

theorem compares (a b : List Comparable) :
    (compare (ofComparable a) (ofComparable b)).Compares a b := by
  simp only [compare, ofComparable]
  induction a generalizing b with
  | nil =>
      cases b with
      | nil => rfl
      | cons y b => exact List.nil_lt_cons y b
  | cons x a ih =>
      cases b with
      | nil => exact List.nil_lt_cons x a
      | cons y b =>
          rw [List.map_cons, List.map_cons, compareComponents]
          simp only [Comparable.same_iff, Comparable.exceeds_iff]
          rcases lt_trichotomy x y with below | rfl | above
          · rw [if_neg below.ne, if_neg below.not_gt]
            exact List.cons_lt_cons_iff.mpr (.inl below)
          · rw [if_pos rfl]
            exact compares_cons x (ih b)
          · rw [if_neg above.ne', if_pos above]
            exact List.cons_lt_cons_iff.mpr (.inl above)

theorem atLeast_iff (a b : List Comparable) :
    (ofComparable a).atLeast (ofComparable b) = true ↔ b ≤ a := by
  rw [atLeast, bne_iff_ne]
  exact (compares a b).ne_lt

/-- The comparison of lists tells them apart by the first difference, and it is total. -/
structure Lexicographic (comparison : List Comparable → List Comparable → Ordering) : Prop where
  eq_iff : ∀ a b, comparison a b = .eq ↔ a = b
  lt_iff : ∀ a b, comparison a b = .lt ↔ Before a b
  gt_iff : ∀ a b, comparison a b = .gt ↔ Before b a
  swap : ∀ a b, comparison a b = (comparison b a).swap
  trans : ∀ a b c, comparison a b ≠ .gt → comparison b c ≠ .gt → comparison a c ≠ .gt
  trans_lt : ∀ a b c, comparison a b = .lt → comparison b c ≠ .gt → comparison a c = .lt
  lt_trans : ∀ a b c, comparison a b ≠ .gt → comparison b c = .lt → comparison a c = .lt

/-- The relation between lists is a total order, which a larger first list and a smaller second
one keep. -/
structure TotalOrder (relation : List Comparable → List Comparable → Bool) : Prop where
  refl : ∀ a, relation a a = true
  antisymm : ∀ a b, relation a b = true → relation b a = true → a = b
  trans : ∀ a b c, relation a b = true → relation b c = true → relation a c = true
  total : ∀ a b, relation a b = true ∨ relation b a = true
  monotone : ∀ least, Monotone fun a => relation a least
  antitone : ∀ a, Antitone fun least => relation a least

theorem lexicographic_compare :
    Lexicographic fun a b => compare (ofComparable a) (ofComparable b) where
  eq_iff a b := (compares a b).eq_eq
  lt_iff a b := (compares a b).eq_lt.trans before_iff_lt.symm
  gt_iff a b := (compares a b).eq_gt.trans before_iff_lt.symm
  swap a b := (compares a b).inj (compares b a).swap
  trans a b c first second :=
    (compares a c).ne_gt.mpr
      (le_trans ((compares a b).ne_gt.mp first) ((compares b c).ne_gt.mp second))
  trans_lt a b c first second :=
    (compares a c).eq_lt.mpr
      (lt_of_lt_of_le ((compares a b).eq_lt.mp first) ((compares b c).ne_gt.mp second))
  lt_trans a b c first second :=
    (compares a c).eq_lt.mpr
      (lt_of_le_of_lt ((compares a b).ne_gt.mp first) ((compares b c).eq_lt.mp second))

theorem totalOrder_atLeast :
    TotalOrder fun a b => (ofComparable a).atLeast (ofComparable b) where
  refl a := (atLeast_iff a a).mpr le_rfl
  antisymm a b first second :=
    le_antisymm ((atLeast_iff b a).mp second) ((atLeast_iff a b).mp first)
  trans a b c first second :=
    (atLeast_iff a c).mpr (le_trans ((atLeast_iff b c).mp second) ((atLeast_iff a b).mp first))
  total a b := by
    rw [atLeast_iff, atLeast_iff]
    exact le_total b a
  monotone least a b larger := by
    rw [Bool.le_iff_imp, atLeast_iff, atLeast_iff]
    exact fun atLeast => le_trans atLeast larger
  antitone a least other larger := by
    rw [Bool.le_iff_imp, atLeast_iff, atLeast_iff]
    exact fun atLeast => le_trans larger atLeast

/-! ## Versions that are read -/

theorem ofNats_eq (numbers : List Nat) :
    ofNats numbers = ofComparable (numbers.map Comparable.ofNat) := by
  rw [ofNats, ofComparable, List.map_map]
  rfl

theorem exists_of_denotes {s : String} {numbers : List Nat} (denoted : Denotes s numbers) :
    ∃ components, components ≠ [] ∧ ofNats numbers = ofComparable components :=
  ⟨numbers.map Comparable.ofNat, by simpa using denoted.ne_nil, ofNats_eq numbers⟩

/-- The comparison of versions whose components are numbers is the lexicographic total order, and
the versions that the gate compares are of this kind and are not empty. -/
theorem compare_lexicographic :
    (∀ version : Version, (∀ number ∈ version.components, number ≠ .notANumber) ↔
      ∃ components, version = ofComparable components) ∧
    (∀ a b : List Comparable, a < b ↔ Before a b) ∧
    Lexicographic (fun a b => compare (ofComparable a) (ofComparable b)) ∧
    TotalOrder (fun a b => (ofComparable a).atLeast (ofComparable b)) ∧
    (∀ s version, parse s = some version →
      ∃ components, components ≠ [] ∧ version = ofComparable components) ∧
    (∃ required, required ≠ [] ∧ Gate.requiredVersion = ofComparable required) ∧
    ∀ outcome detected, Gate.detect outcome = .ok detected →
      ∃ components, components ≠ [] ∧ detected = ofComparable components ∧
        ∀ required, Gate.accept (ofComparable required) detected = .ok detected
          ↔ required ≤ components := by
  refine ⟨fun version => forall_number_iff, fun a b => before_iff_lt.symm, lexicographic_compare,
    totalOrder_atLeast, ?_, ?_, ?_⟩
  · intro s version read
    obtain ⟨numbers, denoted, rfl⟩ := parse_eq_some_iff.mp read
    exact exists_of_denotes denoted
  · exact ⟨[26, 0].map Comparable.ofNat, by simp, ofNats_eq [26, 0]⟩
  · intro outcome detected found
    obtain ⟨numbers, ⟨_, _, _, _, _, denoted⟩, rfl⟩ := Gate.detect_eq_ok_iff.mp found
    obtain ⟨components, some, same⟩ := exists_of_denotes denoted
    refine ⟨components, some, same, fun required => ?_⟩
    rw [same, Gate.accept, ← atLeast_iff]
    split
    · next accepted => simp [accepted]
    · next refused => simp [refused]

end AssetCatalog.Version
