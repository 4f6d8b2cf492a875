import AssetCatalog.Number.Basic
import Mathlib.Algebra.Order.Ring.Rat
import Mathlib.Data.Nat.Cast.Order.Ring
import Mathlib.Data.Rat.Lemmas
/-! # Whole numbers under rounding

A whole number up to `2 ^ 53` is held as it is.  A larger one is rounded, or becomes an infinity,
but never falls below `2 ^ 53` (`ofNat_of_large`).  A comparison with a number below `2 ^ 53` is
therefore the comparison of the whole numbers themselves, however large the other one is. -/

set_option autoImplicit false

namespace AssetCatalog.Number

variable {n least : Nat}

theorem le_roundHalfEven (num den : Nat) : num / den ≤ roundHalfEven num den := by
  unfold roundHalfEven
  dsimp only
  split
  · exact Nat.le_refl _
  · split
    · omega
    · split <;> omega

theorem leadingPlace_one (positive : n ≠ 0) : leadingPlace n 1 = n.log2 := by
  have below := Nat.log2_self_le positive
  have one : Nat.log2 1 = 0 := by decide
  simp [leadingPlace, scaled, one, below]

theorem le_log2_of_large (large : exactBound < n) : 53 ≤ n.log2 :=
  (Nat.le_log2 (by omega)).mpr (Nat.le_of_lt large)

theorem lastPlace_of_large (large : exactBound < n) :
    lastPlace n 1 = ((n.log2 - 52 : Nat) : Int) := by
  have high := le_log2_of_large large
  rw [lastPlace, leadingPlace_one (by omega)]
  omega

/-- The 53 places that are kept of a large number make up at least `2 ^ 53`, rounded up or down. -/
theorem exactBound_le_kept (large : exactBound < n) :
    exactBound ≤ roundHalfEven n (2 ^ (n.log2 - 52)) * 2 ^ (n.log2 - 52) := by
  have high := le_log2_of_large large
  have leading : 2 ^ 52 ≤ n / 2 ^ (n.log2 - 52) := by
    rw [Nat.le_div_iff_mul_le (Nat.two_pow_pos _), ← Nat.pow_add, Nat.add_sub_of_le (by omega)]
    exact Nat.log2_self_le (by omega)
  calc exactBound = 2 ^ 52 * 2 ^ 1 := by decide
    _ ≤ 2 ^ 52 * 2 ^ (n.log2 - 52) :=
        Nat.mul_le_mul_left _ (Nat.pow_le_pow_right (by decide) (by omega))
    _ ≤ roundHalfEven n (2 ^ (n.log2 - 52)) * 2 ^ (n.log2 - 52) :=
        Nat.mul_le_mul_right _ (Nat.le_trans leading (le_roundHalfEven _ _))

theorem nearestMagnitude_of_large {value : Rat} (large : exactBound < n)
    (held : nearestMagnitude n 1 = some value) : (exactBound : Rat) ≤ value := by
  unfold nearestMagnitude at held
  dsimp only at held
  rw [lastPlace_of_large large] at held
  split at held
  · cases held
    simp only [units, scaled, Int.natCast_nonneg, if_true, Int.toNat_natCast, Nat.one_mul,
      Nat.pow_eq]
    exact Nat.cast_le.mpr (exactBound_le_kept large)
  · cases held

theorem ofNat_of_small (small : n ≤ exactBound) : ofNat n = .finite n := if_pos small

theorem ofNat_of_large (large : exactBound < n) : ofNat n = .infinite false ∨
    ∃ value, ofNat n = .finite value ∧ (exactBound : Rat) ≤ value := by
  have positive : n ≠ 0 := by omega
  have sign : decide ((n : Rat).num < 0) = false :=
    decide_eq_false (Int.not_lt.mpr (Rat.num_natCast n ▸ Int.natCast_nonneg n))
  rw [ofNat, if_neg (by omega), nearest, if_neg (by simpa using positive), sign]
  simp only [Rat.num_natCast, Int.natAbs_natCast, Rat.den_natCast]
  cases held : nearestMagnitude n 1 with
  | none => exact .inl rfl
  | some value => exact .inr ⟨value, rfl, nearestMagnitude_of_large large held⟩

theorem same_ofNat_iff (small : least < exactBound) :
    (ofNat n).same (ofNat least) = true ↔ n = least := by
  rw [ofNat_of_small (Nat.le_of_lt small)]
  rcases Nat.lt_or_ge exactBound n with large | exact
  · have differ : n ≠ least := by omega
    rcases ofNat_of_large large with infinite | ⟨value, held, high⟩
    · simp [infinite, same, differ]
    · have apart : (least : Rat) < value := lt_of_lt_of_le (Nat.cast_lt.mpr small) high
      simp [held, same, differ, apart.ne']
  · simp [ofNat_of_small exact, same]

theorem exceeds_ofNat_iff (small : least < exactBound) :
    (ofNat n).exceeds (ofNat least) = true ↔ least < n := by
  rw [ofNat_of_small (Nat.le_of_lt small)]
  rcases Nat.lt_or_ge exactBound n with large | exact
  · have above : least < n := by omega
    rcases ofNat_of_large large with infinite | ⟨value, held, high⟩
    · simp [infinite, exceeds, above]
    · have apart : (least : Rat) < value := lt_of_lt_of_le (Nat.cast_lt.mpr small) high
      simp [held, exceeds, above, apart]
  · simp [ofNat_of_small exact, exceeds]

end AssetCatalog.Number
