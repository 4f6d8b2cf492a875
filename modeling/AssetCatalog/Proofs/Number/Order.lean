import AssetCatalog.Number.Basic
import Mathlib.Algebra.Order.Ring.Rat
import Mathlib.Order.WithBot
/-! # The order of numbers

Everything that is a number (`Comparable`) has its place on the line of the rationals with an
infinity at either end.  The two comparisons of numbers are equality and order on this line, and
every natural number is on it, however it is rounded. -/

set_option autoImplicit false

namespace AssetCatalog.Number

/-- What is a number: a rational value or one of the infinities. -/
structure Comparable where
  number : Number
  isNumber : number ≠ .notANumber
  deriving DecidableEq

theorem nearest_ne_notANumber (value : Rat) : nearest value ≠ .notANumber := by
  unfold nearest
  split
  · simp
  · dsimp only
    split <;> simp

theorem ofNat_ne_notANumber (n : Nat) : ofNat n ≠ .notANumber := by
  unfold ofNat
  split
  · simp
  · exact nearest_ne_notANumber n

namespace Comparable

theorem ext_number {a b : Comparable} (same : a.number = b.number) : a = b := by
  cases a
  cases b
  cases same
  rfl

def position : Comparable → WithBot (WithTop Rat)
  | ⟨.infinite true, _⟩ => ⊥
  | ⟨.infinite false, _⟩ => ⊤
  | ⟨.finite value, _⟩ => ((value : WithTop Rat) : WithBot (WithTop Rat))
  | ⟨.notANumber, isNumber⟩ => absurd rfl isNumber

theorem position_injective : Function.Injective position := by
  rintro ⟨a, isA⟩ ⟨b, isB⟩ same
  apply ext_number
  cases a with
  | notANumber => exact absurd rfl isA
  | infinite negative =>
      cases b with
      | notANumber => exact absurd rfl isB
      | infinite other => cases negative <;> cases other <;> simp_all [position]
      | finite value => cases negative <;> simp [position] at same
  | finite value =>
      cases b with
      | notANumber => exact absurd rfl isB
      | infinite negative => cases negative <;> simp [position] at same
      | finite other => simpa [position] using same

instance : LinearOrder Comparable := LinearOrder.lift' position position_injective

theorem lt_iff (a b : Comparable) : a < b ↔ a.position < b.position := Iff.rfl

theorem same_iff (a b : Comparable) : a.number.same b.number = true ↔ a = b := by
  have decided : a.number.same b.number = decide (a.number = b.number) := by
    cases value : a.number with
    | notANumber => exact absurd value a.isNumber
    | infinite => rfl
    | finite => rfl
  rw [decided, decide_eq_true_iff]
  exact ⟨ext_number, fun same => same ▸ rfl⟩

theorem finite_lt_top (value : Rat) :
    ((value : WithTop Rat) : WithBot (WithTop Rat)) < ⊤ :=
  WithBot.coe_lt_coe.mpr (WithTop.coe_lt_top value)

theorem exceeds_iff (a b : Comparable) : a.number.exceeds b.number = true ↔ b < a := by
  obtain ⟨a, isA⟩ := a
  obtain ⟨b, isB⟩ := b
  rw [lt_iff]
  cases a with
  | notANumber => exact absurd rfl isA
  | infinite negative =>
      cases b with
      | notANumber => exact absurd rfl isB
      | infinite other => cases negative <;> cases other <;> simp [exceeds, position]
      | finite value => cases negative <;> simp [exceeds, position, finite_lt_top]
  | finite value =>
      cases b with
      | notANumber => exact absurd rfl isB
      | infinite negative => cases negative <;> simp [exceeds, position]
      | finite other => simp [exceeds, position]

def ofNat (n : Nat) : Comparable := ⟨.ofNat n, ofNat_ne_notANumber n⟩

end Comparable

end AssetCatalog.Number
