import AssetCatalog.Proofs.Number.Rounding
import Mathlib.Algebra.Order.Field.Power
import Mathlib.Tactic.Linarith
import Mathlib.Tactic.NormNum
import Mathlib.Tactic.Positivity
import Mathlib.Tactic.Ring
/-! # How far rounding goes

A value of ordinary size is rounded by at most half a unit of the last place that is kept, which
is the 53rd place of the value (`nearest_close`).  A value that needs no more than 53 places is
not rounded at all (`nearest_of_short`). -/

set_option autoImplicit false

namespace AssetCatalog.Number

variable {num den n : Nat} {place : Int}

/-! ## Rounding a quotient -/

theorem roundHalfEven_bounds (num : Nat) (positive : 0 < den) :
    2 * num ≤ den * (2 * roundHalfEven num den) + den ∧
      den * (2 * roundHalfEven num den) ≤ 2 * num + den := by
  have parts := Nat.div_add_mod num den
  have small := Nat.mod_lt num positive
  unfold roundHalfEven
  dsimp only
  generalize num / den = low at *
  generalize num % den = rest at *
  have even : den * (2 * low) = 2 * (den * low) := by ring
  have next : den * (2 * (low + 1)) = 2 * (den * low) + 2 * den := by ring
  split
  · omega
  · split
    · omega
    · split <;> omega

theorem roundHalfEven_close (positive : 0 < den) :
    |(roundHalfEven num den : Rat) - num / den| ≤ 1 / 2 := by
  obtain ⟨low, high⟩ := roundHalfEven_bounds num positive
  have lowRat : 2 * (num : Rat) ≤ den * (2 * roundHalfEven num den) + den := by exact_mod_cast low
  have highRat : (den : Rat) * (2 * roundHalfEven num den) ≤ 2 * num + den := by exact_mod_cast high
  have positiveRat : (0 : Rat) < den := by exact_mod_cast positive
  have whole : (num : Rat) / den * den = num := div_mul_cancel₀ _ positiveRat.ne'
  rw [abs_le]
  constructor
  · nlinarith
  · nlinarith

theorem roundHalfEven_of_dvd (positive : 0 < den) (quotient : num = den * n) :
    roundHalfEven num den = n := by
  subst quotient
  simp [roundHalfEven, positive]

/-! ## Binary places -/

theorem scaled_quotient (num : Nat) (place : Int) (positive : 0 < den) :
    0 < (scaled num den place).2 ∧
      ((scaled num den place).1 : Rat) / (scaled num den place).2 = num / den / 2 ^ place := by
  unfold scaled
  split
  · next nonneg =>
    obtain ⟨k, rfl⟩ := Int.eq_ofNat_of_zero_le nonneg
    refine ⟨Nat.mul_pos positive (Nat.two_pow_pos _), ?_⟩
    simp [div_div]
  · next negative =>
    obtain ⟨k, rfl⟩ : ∃ k : Nat, place = -(k : Int) := ⟨place.natAbs, by omega⟩
    refine ⟨positive, ?_⟩
    simp [div_eq_mul_inv, mul_right_comm]

theorem units_eq (count : Nat) (place : Int) : units count place = count * 2 ^ place := by
  unfold units
  split
  · next nonneg =>
    obtain ⟨k, rfl⟩ := Int.eq_ofNat_of_zero_le nonneg
    simp
  · next negative =>
    obtain ⟨k, rfl⟩ : ∃ k : Nat, place = -(k : Int) := ⟨place.natAbs, by omega⟩
    simp [Rat.mkRat_eq_div, div_eq_mul_inv]

theorem two_zpow_log2 (positive : 0 < n) :
    (2 : Rat) ^ (n.log2 : Int) ≤ n ∧ (n : Rat) < 2 ^ ((n.log2 : Int) + 1) := by
  have low : 2 ^ n.log2 ≤ n := Nat.log2_self_le (Nat.ne_of_gt positive)
  have high : n < 2 ^ (n.log2 + 1) := Nat.lt_log2_self
  refine ⟨?_, ?_⟩
  · rw [zpow_natCast]
    exact_mod_cast low
  · have same : (n.log2 : Int) + 1 = ((n.log2 + 1 : Nat) : Int) := by push_cast; rfl
    rw [same, zpow_natCast]
    exact_mod_cast high

theorem leadingPlace_spec (positiveNum : 0 < num) (positiveDen : 0 < den) :
    (2 : Rat) ^ leadingPlace num den ≤ num / den ∧
      (num : Rat) / den < 2 ^ (leadingPlace num den + 1) := by
  obtain ⟨numLow, numHigh⟩ := two_zpow_log2 positiveNum
  obtain ⟨denLow, denHigh⟩ := two_zpow_log2 positiveDen
  have denRat : (0 : Rat) < den := by exact_mod_cast positiveDen
  have two : (2 : Rat) ≠ 0 := by norm_num
  set guess : Int := (num.log2 : Int) - den.log2 with guessed
  obtain ⟨bottomPositive, quotient⟩ := scaled_quotient num guess positiveDen
  have bottomRat : (0 : Rat) < (scaled num den guess).2 := by exact_mod_cast bottomPositive
  have powerPositive : (0 : Rat) < 2 ^ guess := zpow_pos (by norm_num) _
  have bracket : (scaled num den guess).2 ≤ (scaled num den guess).1 ↔
      (2 : Rat) ^ guess ≤ num / den := by
    rw [← one_le_div powerPositive, ← quotient, one_le_div bottomRat, Nat.cast_le]
  have above : (num : Rat) / den < 2 ^ (guess + 1) := by
    rw [div_lt_iff₀ denRat]
    calc (num : Rat) < 2 ^ ((num.log2 : Int) + 1) := numHigh
      _ = 2 ^ (guess + 1) * 2 ^ (den.log2 : Int) := by
          rw [← zpow_add₀ two]
          congr 1
          omega
      _ ≤ 2 ^ (guess + 1) * den :=
          mul_le_mul_of_nonneg_left denLow (zpow_nonneg (by norm_num) _)
  have below : (2 : Rat) ^ (guess - 1) ≤ num / den := by
    rw [le_div_iff₀ denRat]
    calc (2 : Rat) ^ (guess - 1) * den ≤ 2 ^ (guess - 1) * 2 ^ ((den.log2 : Int) + 1) :=
          mul_le_mul_of_nonneg_left denHigh.le (zpow_nonneg (by norm_num) _)
      _ = 2 ^ (num.log2 : Int) := by
          rw [← zpow_add₀ two]
          congr 1
          omega
      _ ≤ num := numLow
  unfold leadingPlace
  dsimp only
  rw [← guessed]
  split
  · next fits => exact ⟨bracket.mp fits, above⟩
  · next short =>
    rw [bracket, not_le] at short
    exact ⟨below, by rwa [sub_add_cancel]⟩

/-! ## The number nearest to a value -/

def leading (value : Rat) : Int := leadingPlace value.num.natAbs value.den

def last (value : Rat) : Int := max (leading value - 52) (-1074)

/-- How many units of its last place are kept of a positive value. -/
def kept (value : Rat) : Nat :=
  roundHalfEven (scaled value.num.natAbs value.den (last value)).1
    (scaled value.num.natAbs value.den (last value)).2

variable {value : Rat}

theorem natAbs_num_pos (positive : 0 < value) : 0 < value.num.natAbs :=
  Int.natAbs_pos.mpr (Rat.num_pos.mpr positive).ne'

theorem natAbs_num_div_den (positive : 0 < value) :
    (value.num.natAbs : Rat) / value.den = value := by
  have same : ((value.num.natAbs : Int) : Rat) = value.num := by
    rw [Int.natAbs_of_nonneg (Rat.num_pos.mpr positive).le]
  rw [← Int.cast_natCast, same, Rat.num_div_den]

theorem leading_spec (positive : 0 < value) :
    (2 : Rat) ^ leading value ≤ value ∧ value < 2 ^ (leading value + 1) := by
  have places := leadingPlace_spec (natAbs_num_pos positive) value.den_pos
  rwa [natAbs_num_div_den positive] at places

theorem cast_two_pow (exponent : Nat) : (Nat.pow 2 exponent : Rat) = 2 ^ (exponent : Int) := by
  rw [Nat.pow_eq, Nat.cast_pow, zpow_natCast, Nat.cast_ofNat]

theorem nearestMagnitude_eq (value : Rat) : nearestMagnitude value.num.natAbs value.den
    = if (kept value : Rat) * 2 ^ last value < 2 ^ (1024 : Int)
      then some ((kept value : Rat) * 2 ^ last value) else none := by
  have made : nearestMagnitude value.num.natAbs value.den
      = if (kept value : Rat) * 2 ^ last value < (Nat.pow 2 1024 : Rat)
        then some ((kept value : Rat) * 2 ^ last value) else none := by
    rw [← units_eq]
    rfl
  simpa only [cast_two_pow, Nat.cast_ofNat] using made

theorem nearest_of_positive (positive : 0 < value) :
    nearest value = if (kept value : Rat) * 2 ^ last value < 2 ^ (1024 : Int)
      then .finite (kept value * 2 ^ last value) else .infinite false := by
  have positiveNum : 0 < value.num := Rat.num_pos.mpr positive
  rw [nearest, if_neg positiveNum.ne', nearestMagnitude_eq, decide_eq_false positiveNum.not_gt]
  by_cases fits : (kept value : Rat) * 2 ^ last value < 2 ^ (1024 : Int)
  · rw [if_pos fits, if_pos fits]
    rfl
  · rw [if_neg fits, if_neg fits]

theorem kept_close (positive : 0 < value) :
    |(kept value : Rat) - value / 2 ^ last value| ≤ 1 / 2 := by
  obtain ⟨bottom, quotient⟩ := scaled_quotient value.num.natAbs (last value) value.den_pos
  rw [natAbs_num_div_den positive] at quotient
  rw [← quotient]
  exact roundHalfEven_close bottom

theorem kept_of_units (positive : 0 < value) (units : value = n * 2 ^ last value) :
    kept value = n := by
  obtain ⟨bottom, quotient⟩ := scaled_quotient value.num.natAbs (last value) value.den_pos
  have power : (2 : Rat) ^ last value ≠ 0 := zpow_ne_zero _ (by norm_num)
  have whole : value / 2 ^ last value = n := (div_eq_iff power).mpr units
  rw [natAbs_num_div_den positive, whole, div_eq_iff (by exact_mod_cast bottom.ne'),
    mul_comm] at quotient
  exact roundHalfEven_of_dvd bottom (by exact_mod_cast quotient)

theorem two_zpow_pos (place : Int) : (0 : Rat) < 2 ^ place := zpow_pos (by norm_num) _

theorem two_zpow_le {a b : Int} (le : a ≤ b) : (2 : Rat) ^ a ≤ 2 ^ b :=
  zpow_le_zpow_right₀ (by norm_num) le

theorem lt_of_two_zpow_lt {a b : Int} (less : (2 : Rat) ^ a < 2 ^ b) : a < b :=
  (zpow_lt_zpow_iff_right₀ (by norm_num)).mp less

/-- What is kept of a value is at most half a unit of the last place away from it. -/
theorem kept_units_close (positive : 0 < value) :
    |(kept value : Rat) * 2 ^ last value - value| ≤ 2 ^ (last value - 1) := by
  have power := two_zpow_pos (last value)
  have whole : value / 2 ^ last value * 2 ^ last value = value := div_mul_cancel₀ _ power.ne'
  calc |(kept value : Rat) * 2 ^ last value - value|
      = |(kept value - value / 2 ^ last value) * 2 ^ last value| := by rw [sub_mul, whole]
    _ = |(kept value : Rat) - value / 2 ^ last value| * 2 ^ last value := by
        rw [abs_mul, abs_of_pos power]
    _ ≤ 1 / 2 * 2 ^ last value := mul_le_mul_of_nonneg_right (kept_close positive) power.le
    _ = 2 ^ (last value - 1) := by
        rw [zpow_sub_one₀ (by norm_num), mul_comm, one_div]

/-- A value that is not very small is kept to its 53rd place. -/
theorem last_of_normal (low : (2 : Rat) ^ (-1022 : Int) ≤ value) :
    last value = leading value - 52 := by
  have positive : 0 < value := lt_of_lt_of_le (two_zpow_pos _) low
  have place := lt_of_two_zpow_lt (lt_of_le_of_lt low (leading_spec positive).2)
  rw [last]
  omega

/-- A value that is neither very large nor very small is rounded by at most half a unit of its
53rd place. -/
theorem nearest_close (low : (2 : Rat) ^ (-1022 : Int) ≤ value)
    (high : value ≤ (2 : Rat) ^ (1023 : Int)) : ∃ held : Rat,
      nearest value = .finite held ∧ |held - value| ≤ 2 ^ (leading value - 53) := by
  have positive : 0 < value := lt_of_lt_of_le (two_zpow_pos _) low
  have close := kept_units_close positive
  have place : last value - 1 = leading value - 53 := by
    rw [last_of_normal low]
    omega
  rw [place] at close
  refine ⟨kept value * 2 ^ last value, ?_, close⟩
  rw [nearest_of_positive positive, if_pos]
  have smallPlace : leading value < 1024 :=
    lt_of_two_zpow_lt (lt_of_le_of_lt ((leading_spec positive).1.trans high)
      (zpow_lt_zpow_right₀ (by norm_num) (by omega)))
  calc (kept value : Rat) * 2 ^ last value ≤ value + 2 ^ (leading value - 53) := by
        linarith [(abs_le.mp close).2]
    _ < 2 ^ (1023 : Int) + 2 ^ (1023 : Int) := by
        refine add_lt_add_of_le_of_lt high ?_
        exact zpow_lt_zpow_right₀ (by norm_num) (by omega)
    _ = 2 ^ (1 + 1023 : Int) := by rw [← two_mul, ← zpow_one_add₀ (by norm_num)]

theorem half_unit_le (positive : 0 < value) :
    (2 : Rat) ^ (leading value - 53) * 2 ^ 53 ≤ value := by
  have power : (2 : Rat) ^ (leading value - 53) * 2 ^ 53 = 2 ^ leading value := by
    rw [← zpow_natCast, ← zpow_add₀ (by norm_num)]
    congr 1
    push_cast
    omega
  rw [power]
  exact (leading_spec positive).1

theorem quotient_bounds (positiveNum : 0 < num) (small : num ≤ 2 ^ 60) (positiveDen : 0 < den)
    (smallDen : den ≤ 2 ^ 60) : (2 : Rat) ^ (-1022 : Int) ≤ num / den ∧
      (num : Rat) / den ≤ 2 ^ (1023 : Int) := by
  have one : (1 : Rat) ≤ num := by exact_mod_cast positiveNum
  have oneDen : (1 : Rat) ≤ den := by exact_mod_cast positiveDen
  have numSmall : (num : Rat) ≤ 2 ^ (60 : Int) := by exact_mod_cast small
  have denSmall : (den : Rat) ≤ 2 ^ (60 : Int) := by exact_mod_cast smallDen
  have denPositive : (0 : Rat) < den := by linarith
  constructor
  · calc (2 : Rat) ^ (-1022 : Int) ≤ 2 ^ (-60 : Int) := two_zpow_le (by omega)
      _ = 1 / 2 ^ (60 : Int) := by rw [zpow_neg, one_div]
      _ ≤ 1 / den := one_div_le_one_div_of_le denPositive denSmall
      _ ≤ num / den := div_le_div_of_nonneg_right one denPositive.le
  · calc (num : Rat) / den ≤ num := div_le_self (by linarith) oneDen
      _ ≤ 2 ^ (60 : Int) := numSmall
      _ ≤ 2 ^ (1023 : Int) := two_zpow_le (by omega)

/-- A value that is made up of few enough units is not rounded. -/
theorem nearest_of_short (made : value = n * 2 ^ place) (short : n < 2 ^ 53)
    (least : -1074 ≤ place) (most : place ≤ 971) : nearest value = .finite value := by
  rcases Nat.eq_zero_or_pos n with rfl | count
  · simp [made, nearest]
  · have power := two_zpow_pos place
    have positive : 0 < value := made ▸ mul_pos (by exact_mod_cast count) power
    have bound : value < 2 ^ (53 + place) := by
      have shortRat : (n : Rat) < 2 ^ (53 : Int) := by exact_mod_cast short
      rw [made, zpow_add₀ (by norm_num)]
      exact mul_lt_mul_of_pos_right shortRat power
    have leadingPlace : leading value < 53 + place :=
      lt_of_two_zpow_lt (lt_of_le_of_lt (leading_spec positive).1 bound)
    obtain ⟨shift, shifted⟩ : ∃ shift : Nat, place = shift + last value := by
      have within : last value ≤ place := by
        rw [last]
        omega
      exact ⟨(place - last value).toNat, by omega⟩
    have units : value = (n * 2 ^ shift : Nat) * 2 ^ last value := by
      rw [shifted, zpow_add₀ (by norm_num), zpow_natCast, ← mul_assoc] at made
      exact_mod_cast made
    have whole : (kept value : Rat) * 2 ^ last value = value := by
      rw [kept_of_units positive units]
      exact units.symm
    have fits : value < 2 ^ (1024 : Int) := lt_of_lt_of_le bound (two_zpow_le (by omega))
    rw [nearest_of_positive positive, whole, if_pos fits]

theorem nearest_natCast (small : n < 2 ^ 53) : nearest n = .finite n :=
  nearest_of_short (by simp : (n : Rat) = n * 2 ^ (0 : Int)) small (by norm_num) (by norm_num)

theorem last_of_large (large : exactBound < n) : last n = ((n.log2 - 52 : Nat) : Int) :=
  lastPlace_of_large large

theorem dvd_of_held (held : ofNat n = .finite n) : 2 ^ (n.log2 - 52) ∣ n := by
  rcases Nat.lt_or_ge exactBound n with large | small
  · have positive : (0 : Rat) < n := by exact_mod_cast Nat.zero_lt_of_lt large
    rw [ofNat, if_neg (Nat.not_le.mpr large), nearest_of_positive positive, last_of_large large,
      zpow_natCast] at held
    split at held
    · injection held with same
      have whole : kept n * 2 ^ (n.log2 - 52) = n := by exact_mod_cast same
      exact ⟨kept n, by rw [Nat.mul_comm, whole]⟩
    · cases held
  · rcases Nat.lt_or_eq_of_le small with less | rfl
    · have short : n.log2 < 53 := by
        rcases Nat.eq_zero_or_pos n with rfl | positive
        · decide
        · exact (Nat.log2_lt positive.ne').mpr less
      have none : n.log2 - 52 = 0 := by omega
      simp [none]
    · decide +kernel

end AssetCatalog.Number
