import AssetCatalog.Terminal.Duration
import AssetCatalog.Proofs.Number.Nearest
/-! # What durations are shown as

A duration of whole milliseconds is shown in milliseconds, in tenths of a second, or in minutes and
seconds (`Shown`).  The unit is chosen, and the minutes are taken out, before anything is rounded:
a rest that is rounded up to a whole minute is therefore shown as sixty seconds (`RoundsUp`), and
in all other cases what is shown is well-formed (`duration_shown`).

It is accurate as long as the minutes are right.  They are taken out in double precision, where a
quotient is only rounded up to the next whole number from `2 ^ 43` minutes on. -/

set_option autoImplicit false

namespace AssetCatalog.Terminal

open Number (nearest nearest_close nearest_of_short nearest_natCast)

/-- What a duration is shown as. -/
inductive Shown where
  | milliseconds (count : Nat)
  | tenths (count : Nat)
  | minutes (count seconds : Nat)

namespace Shown

def text : Shown → String
  | milliseconds count => toString count ++ "ms"
  | tenths count => toString (count / 10) ++ "." ++ toString (count % 10) ++ "s"
  | minutes count seconds => toString count ++ "m " ++ toString seconds ++ "s"

def value : Shown → Rat
  | milliseconds count => count / 1000
  | tenths count => count / 10
  | minutes count seconds => 60 * count + seconds

/-- How far what is shown may be from the duration, in seconds. -/
def tolerance : Shown → Rat
  | milliseconds _ => 0
  | tenths _ => 1 / 20
  | minutes _ _ => 1 / 2

/-- The smallest unit does not make up a whole one of the next. -/
def WellFormed : Shown → Prop
  | milliseconds count => count < 1000
  | tenths count => count < 600
  | minutes _ seconds => seconds ≤ 59

def Accurate (shown : Shown) (ms : Nat) : Prop :=
  |shown.value - (ms : Rat) / 1000| ≤ shown.tolerance

end Shown

variable {ms : Nat}

/-- The number of milliseconds is a number of double precision. -/
def Held (ms : Nat) : Prop := Number.ofNat ms = .finite ms

/-! ## Rounding -/

theorem isBelow_iff {bound : Nat} (small : bound ≤ 2 ^ 53) :
    isBelow (.finite ms) bound = true ↔ ms < bound := by
  rw [isBelow, Number.ofNat_of_small small]
  simp [Number.exceeds]

theorem eq_floor {value : Rat} {n : Nat} (low : (n : Rat) ≤ value) (high : value < n + 1) :
    value.floor = n := by
  apply Int.le_antisymm
  · have below : value.floor < (n : Int) + 1 := Rat.floor_lt_iff.mpr (by push_cast; exact high)
    omega
  · exact Rat.le_floor_iff.mpr (by exact_mod_cast low)

theorem nearest_thousandth {count : Nat} (small : count < 60000) :
    ∃ held : Rat, nearest ((count : Rat) / 1000) = .finite held ∧
      |1000 * held - count| < 1 / 2 := by
  rcases Nat.eq_zero_or_pos count with rfl | some
  · exact ⟨0, by simp [nearest], by simp⟩
  · obtain ⟨low, high⟩ :=
      Number.quotient_bounds some (by omega) (by decide : 0 < 1000) (by decide)
    obtain ⟨held, rounded, close⟩ := nearest_close low high
    push_cast at rounded close
    refine ⟨held, rounded, ?_⟩
    have positive : (0 : Rat) < count / 1000 := by positivity
    have relative := Number.half_unit_le positive
    have smallRat : (count : Rat) < 60000 := by exact_mod_cast small
    rw [abs_le] at close
    rw [abs_lt]
    constructor
    · linarith
    · linarith

theorem nearest_half (odd : Nat) (small : odd < 2 ^ 53) :
    nearest ((odd : Rat) / 2) = .finite ((odd : Rat) / 2) :=
  nearest_of_short (by norm_num [div_eq_mul_inv] : (odd : Rat) / 2 = odd * 2 ^ (-1 : Int)) small
    (by norm_num) (by norm_num)

theorem round_thousandth {count : Nat} (small : count < 60000) :
    ((Number.finite count).dividedBy 1000).round = .finite ((count + 500) / 1000 : Nat) := by
  obtain ⟨held, rounded, close⟩ := nearest_thousandth small
  generalize quotient : (count + 500) / 1000 = whole
  have few : whole < 2 ^ 53 := by omega
  have floor : (held + mkRat 1 2).floor = whole := by
    have half : mkRat 1 2 = 1 / 2 := by norm_num [Rat.mkRat_eq_div]
    rw [half]
    rw [abs_lt] at close
    have above : count + 500 < 1000 * (whole + 1) := by omega
    have aboveRat : (count : Rat) + 501 ≤ 1000 * (whole + 1) := by exact_mod_cast above
    refine eq_floor ?_ (by linarith)
    by_cases tie : count + 500 = 1000 * whole
    · have tieRat : (count : Rat) + 500 = 1000 * whole := by exact_mod_cast tie
      obtain ⟨odd, twice⟩ : ∃ odd : Nat, 2 * whole = odd + 1 := ⟨2 * whole - 1, by omega⟩
      have twiceRat : 2 * (whole : Rat) = odd + 1 := by exact_mod_cast twice
      have exact : (count : Rat) / 1000 = odd / 2 := by linarith
      rw [exact, nearest_half odd (by omega)] at rounded
      injection rounded with same
      linarith
    · have strict : 1000 * whole + 1 ≤ count + 500 := by omega
      have strictRat : 1000 * (whole : Rat) + 1 ≤ count + 500 := by exact_mod_cast strict
      linarith
  rw [Number.dividedBy]
  push_cast
  rw [rounded, Number.round, floor]
  exact_mod_cast nearest_natCast few

theorem nearest_last_half :
    nearest (mkRat 59950 1000) = .finite (mkRat 4218606213450957 70368744177664) := by
  decide +kernel

theorem oneDecimal_eq {value : Rat} {tenths : Nat}
    (rounded : (value * 10 + mkRat 1 2).floor = tenths) :
    Number.oneDecimal value = toString (tenths / 10) ++ "." ++ toString (tenths % 10) := by
  rw [Number.oneDecimal, rounded, Int.toNat_natCast, Nat.toString_eq_ofList_toDigits,
    Nat.toString_eq_ofList_toDigits, ← String.toList_inj]
  simp

/-- Tenths are rounded to the nearest one, up or down halfway. -/
theorem exists_tenths {count : Nat} (small : count < 60000) : ∃ tenths : Nat,
    secondsText (.finite count) = toString (tenths / 10) ++ "." ++ toString (tenths % 10) ∧
      100 * tenths ≤ count + 50 ∧ count ≤ 100 * tenths + 50 ∧
      (count = 59950 → 600 ≤ tenths) := by
  obtain ⟨held, rounded, close⟩ := nearest_thousandth small
  have half : mkRat 1 2 = 1 / 2 := by norm_num [Rat.mkRat_eq_div]
  rw [abs_lt] at close
  have low : (0 : Rat) ≤ count := by positivity
  obtain ⟨tenths, floor⟩ : ∃ tenths : Nat, (held * 10 + mkRat 1 2).floor = tenths := by
    refine Int.eq_ofNat_of_zero_le (Rat.le_floor_iff.mpr ?_)
    rw [half]
    push_cast
    linarith
  have below : (tenths : Rat) ≤ held * 10 + 1 / 2 := by
    have bound := Rat.floor_le (held * 10 + mkRat 1 2)
    rw [floor, half] at bound
    exact_mod_cast bound
  have above : held * 10 + 1 / 2 < (tenths : Rat) + 1 := by
    have bound := Rat.lt_floor_add_one (held * 10 + mkRat 1 2)
    rw [floor, half] at bound
    exact_mod_cast bound
  have text : secondsText (.finite count) = Number.oneDecimal held := by
    rw [secondsText, Number.dividedBy]
    push_cast
    rw [rounded]
  refine ⟨tenths, by rw [text, oneDecimal_eq floor], ?_, ?_, ?_⟩
  · have strict : 100 * (tenths : Rat) < count + 51 := by linarith
    have strictNat : 100 * tenths < count + 51 := by exact_mod_cast strict
    omega
  · have strict : (count : Rat) < 100 * tenths + 51 := by linarith
    have strictNat : count < 100 * tenths + 51 := by exact_mod_cast strict
    omega
  · rintro rfl
    have quotient : ((59950 : Nat) : Rat) / 1000 = mkRat 59950 1000 := by
      norm_num [Rat.mkRat_eq_div]
    rw [quotient, nearest_last_half] at rounded
    injection rounded with value
    have high : (600 : Rat) < tenths + 1 := by
      refine lt_of_le_of_lt ?_ above
      rw [← value, Rat.mkRat_eq_div]
      norm_num
    have highNat : 600 < tenths + 1 := by exact_mod_cast high
    omega

/-! ## Whole minutes -/

/-- A duration that is held is a multiple of some power of two that divides a minute too and that
rounding does not reach. -/
theorem exists_grain (held : Held ms) (some : 0 < ms) (few : ms < 60000 * 2 ^ 43) :
    ∃ grain : Nat, grain ∣ ms ∧ grain ∣ 60000 ∧
      60000 * (2 : Rat) ^ (Number.leading ((ms : Rat) / 60000) - 53) < grain := by
  have someRat : (0 : Rat) < ms := by exact_mod_cast some
  have positive : (0 : Rat) < (ms : Rat) / 60000 := by positivity
  have multiple := Number.dvd_of_held held
  by_cases coarse : 5 < ms.log2 - 52
  · refine ⟨32, (Nat.pow_dvd_pow 2 coarse.le).trans multiple, by decide, ?_⟩
    have fewRat : (ms : Rat) / 60000 < 2 ^ (43 : Int) := by
      rw [div_lt_iff₀ (by norm_num)]
      have cast : (ms : Rat) < 60000 * 2 ^ 43 := by exact_mod_cast few
      linarith
    have place : Number.leading ((ms : Rat) / 60000) < 43 :=
      Number.lt_of_two_zpow_lt (lt_of_le_of_lt (Number.leading_spec positive).1 fewRat)
    calc 60000 * (2 : Rat) ^ (Number.leading ((ms : Rat) / 60000) - 53)
        ≤ 60000 * 2 ^ (-11 : Int) :=
          mul_le_mul_of_nonneg_left (Number.two_zpow_le (by omega)) (by norm_num)
      _ < (32 : Nat) := by norm_num
  · refine ⟨2 ^ (ms.log2 - 52), multiple, ?_, ?_⟩
    · exact (Nat.pow_dvd_pow 2 (Nat.not_lt.mp coarse)).trans (by decide : 2 ^ 5 ∣ 60000)
    · have below : ms < 2 ^ (ms.log2 - 52) * 2 ^ 53 := by
        rw [← Nat.pow_add]
        exact lt_of_lt_of_le Nat.lt_log2_self (Nat.pow_le_pow_right (by decide) (by omega))
      have belowRat : (ms : Rat) < (2 ^ (ms.log2 - 52) : Nat) * 2 ^ 53 := by exact_mod_cast below
      have relative := Number.half_unit_le positive
      rw [le_div_iff₀ (by norm_num)] at relative
      linarith

/-- Between two whole minutes, a duration is a whole grain away from either of them. -/
theorem floor_of_grain {grain : Nat} {value error : Rat} (divides : grain ∣ ms)
    (dividesMinute : grain ∣ 60000) (rest : 0 < ms % 60000)
    (close : |value - (ms : Rat) / 60000| ≤ error) (fine : 60000 * error < grain) :
    value.floor = (ms / 60000 : Nat) := by
  have parts := Nat.div_add_mod ms 60000
  have less := Nat.mod_lt ms (by decide : 0 < 60000)
  have dividesRest : grain ∣ ms % 60000 := (Nat.dvd_mod_iff dividesMinute).mpr divides
  have behind : grain ≤ ms % 60000 := Nat.le_of_dvd rest dividesRest
  have ahead : grain ≤ 60000 - ms % 60000 :=
    Nat.le_of_dvd (by omega) (Nat.dvd_sub dividesMinute dividesRest)
  have lowRat : 60000 * ((ms / 60000 : Nat) : Rat) + grain ≤ ms := by
    exact_mod_cast (by omega : 60000 * (ms / 60000) + grain ≤ ms)
  have highRat : (ms : Rat) + grain ≤ 60000 * ((ms / 60000 : Nat) + 1) := by
    exact_mod_cast (by omega : ms + grain ≤ 60000 * (ms / 60000 + 1))
  rw [abs_le] at close
  exact eq_floor (by linarith) (by linarith)

/-- Rounding a quotient by `60000` does not reach the next whole number, as long as there are
fewer than `2 ^ 43` minutes. -/
theorem floor_minutes (held : Held ms) (few : ms < 60000 * 2 ^ 43) :
    ((Number.finite ms).dividedBy 60000).floor = .finite (ms / 60000 : Nat) := by
  have small : ms / 60000 < 2 ^ 53 := by omega
  obtain ⟨value, rounded, floor⟩ : ∃ value : Rat,
      nearest ((ms : Rat) / 60000) = .finite value ∧ value.floor = (ms / 60000 : Nat) := by
    rcases Nat.eq_zero_or_pos (ms % 60000) with whole | rest
    · have exact : (ms : Rat) / 60000 = (ms / 60000 : Nat) := by
        rw [div_eq_iff (by norm_num), mul_comm]
        exact_mod_cast (by omega : ms = 60000 * (ms / 60000))
      rw [exact]
      exact ⟨_, nearest_natCast small, eq_floor le_rfl (lt_add_one _)⟩
    · have some : 0 < ms := by omega
      obtain ⟨low, high⟩ :=
        Number.quotient_bounds some (by omega) (by decide : 0 < 60000) (by decide)
      obtain ⟨value, rounded, close⟩ := nearest_close low high
      obtain ⟨grain, divides, dividesMinute, fine⟩ := exists_grain held some few
      push_cast at rounded close
      exact ⟨value, rounded, floor_of_grain divides dividesMinute rest close fine⟩
  rw [Number.dividedBy]
  push_cast
  rw [rounded, Number.floor, floor]
  exact_mod_cast nearest_natCast small

/-! ## The text -/

theorem durationText_of_milliseconds (short : ms < 1000) :
    durationText (.ofNat ms) = (Shown.milliseconds ms).text := by
  have text := Number.text_ofNat (lt_of_lt_of_le short (by decide))
  have held := Number.ofNat_of_small (n := ms) (le_trans short.le (by decide))
  rw [durationText, if_pos, text, Shown.text]
  rw [held]
  exact (isBelow_iff (by decide)).mpr short

theorem durationText_of_seconds (long : 1000 ≤ ms) (short : ms < 60000) : ∃ tenths : Nat,
    durationText (.ofNat ms) = (Shown.tenths tenths).text ∧
      100 * tenths ≤ ms + 50 ∧ ms ≤ 100 * tenths + 50 ∧ (tenths < 600 ↔ ms < 59950) := by
  obtain ⟨tenths, text, low, high, last⟩ := exists_tenths short
  refine ⟨tenths, ?_, low, high, by omega⟩
  have held := Number.ofNat_of_small (n := ms) (le_trans short.le (by decide))
  have notBelow : ¬ isBelow (.finite ms) 1000 = true := by
    rw [isBelow_iff (by decide)]
    omega
  rw [durationText, held, if_neg notBelow, if_pos ((isBelow_iff (by decide)).mpr short), text,
    Shown.text]

theorem remainder_eq (ms : Nat) :
    (Number.finite ms).remainder 60000 = .finite (ms % 60000 : Nat) := by
  have parts := Nat.div_add_mod ms 60000
  have less := Nat.mod_lt ms (by decide : 0 < 60000)
  have partsRat : (60000 : Rat) * (ms / 60000 : Nat) + (ms % 60000 : Nat) = ms := by
    exact_mod_cast parts
  have lessRat : ((ms % 60000 : Nat) : Rat) < 60000 := by exact_mod_cast less
  have lowRat : (0 : Rat) ≤ (ms % 60000 : Nat) := by positivity
  have floor : ((ms : Rat) / 60000).floor = (ms / 60000 : Nat) := by
    refine eq_floor ?_ ?_
    · rw [le_div_iff₀ (by norm_num)]
      linarith
    · rw [div_lt_iff₀ (by norm_num)]
      linarith
  have nonneg : ¬ (ms : Rat) / 60000 < 0 := not_lt.mpr (by positivity)
  rw [Number.remainder]
  push_cast
  rw [if_neg nonneg, floor, Int.cast_natCast]
  congr 1
  linarith

theorem durationText_of_minutes (held : Held ms) (long : 60000 ≤ ms) : durationText (.ofNat ms)
    = ((Number.finite ms).dividedBy 60000).floor.text ++ "m "
      ++ toString ((ms % 60000 + 500) / 1000) ++ "s" := by
  have less := Nat.mod_lt ms (by decide : 0 < 60000)
  have notBelow : ∀ bound ≤ 60000, ¬ isBelow (.finite ms) bound = true := by
    intro bound small
    rw [isBelow_iff (by omega)]
    omega
  have seconds : (Number.finite ((ms % 60000 + 500) / 1000 : Nat)).text
      = toString ((ms % 60000 + 500) / 1000) := by
    have few : (ms % 60000 + 500) / 1000 < 2 ^ 53 := by omega
    rw [← Number.ofNat_of_small (Nat.le_of_lt few), Number.text_ofNat few]
  rw [durationText, held, if_neg (notBelow 1000 (by decide)), if_neg (notBelow 60000 le_rfl)]
  dsimp only
  rw [remainder_eq, round_thousandth less, seconds]

/-! ## Reading what is shown -/

/-- What stands at the end behind the last mark that is no digit. -/
theorem eq_of_digits_at_end {front other digits others : List Char} {mark next : Char}
    (areDigits : ∀ c ∈ digits, c.isDigit = true) (areOthers : ∀ c ∈ others, c.isDigit = true)
    (noDigit : mark.isDigit = false) (noDigitNext : next.isDigit = false)
    (same : front ++ mark :: digits = other ++ next :: others) :
    front = other ∧ mark = next ∧ digits = others := by
  rcases List.append_eq_append_iff.mp same with ⟨between, rfl, rest⟩ | ⟨between, rfl, rest⟩
  · cases between with
    | nil =>
        obtain ⟨rfl, rfl⟩ := List.cons.inj rest
        simp
    | cons first between =>
        obtain ⟨_, rfl⟩ := List.cons.inj rest
        have digit := areDigits next (by simp)
        rw [noDigitNext] at digit
        cases digit
  · cases between with
    | nil =>
        obtain ⟨rfl, rfl⟩ := List.cons.inj rest
        simp
    | cons first between =>
        obtain ⟨_, rfl⟩ := List.cons.inj rest
        have digit := areOthers mark (by simp)
        rw [noDigit] at digit
        cases digit

theorem toDigits_injective {n m : Nat} (same : Nat.toDigits 10 n = Nat.toDigits 10 m) : n = m := by
  rw [← Nat.ofDigitChars_ten_toDigits (n := n), same, Nat.ofDigitChars_ten_toDigits]

namespace Shown

def parts : Shown → List Char × Char × List Char
  | milliseconds count => (Nat.toDigits 10 count, 'm', [])
  | tenths count => (Nat.toDigits 10 (count / 10), '.', Nat.toDigits 10 (count % 10))
  | minutes count seconds => (Nat.toDigits 10 count ++ ['m'], ' ', Nat.toDigits 10 seconds)

theorem toList_text (shown : Shown) :
    shown.text.toList = shown.parts.1 ++ shown.parts.2.1 :: shown.parts.2.2 ++ ['s'] := by
  cases shown with
  | milliseconds count => simp [text, parts]
  | tenths count => simp [text, parts]
  | minutes count seconds => simp [text, parts]

theorem parts_spec (shown : Shown) :
    shown.parts.2.1.isDigit = false ∧ ∀ c ∈ shown.parts.2.2, c.isDigit = true := by
  have digits : ∀ n, ∀ c ∈ Nat.toDigits 10 n, c.isDigit = true :=
    fun n c member => Nat.isDigit_of_mem_toDigits (by decide) (by decide) member
  cases shown with
  | milliseconds count => exact ⟨rfl, List.forall_mem_nil _⟩
  | tenths count => exact ⟨rfl, digits _⟩
  | minutes count seconds => exact ⟨rfl, digits _⟩

theorem parts_of_text {shown : Shown} {front digits : List Char} {mark : Char}
    (noDigit : mark.isDigit = false) (areDigits : ∀ c ∈ digits, c.isDigit = true)
    (same : shown.text.toList = front ++ mark :: digits ++ ['s']) :
    shown.parts = (front, mark, digits) := by
  rw [toList_text] at same
  obtain ⟨noDigitShown, areDigitsShown⟩ := shown.parts_spec
  obtain ⟨sameFront, sameMark, sameDigits⟩ := eq_of_digits_at_end areDigitsShown areDigits
    noDigitShown noDigit (List.append_cancel_right same)
  rw [← sameFront, ← sameMark, ← sameDigits]

theorem text_injective {shown other : Shown} (same : shown.text = other.text) : shown = other := by
  obtain ⟨noDigit, areDigits⟩ := other.parts_spec
  have sameParts : shown.parts = other.parts :=
    parts_of_text noDigit areDigits (same ▸ toList_text other)
  cases shown with
  | milliseconds count =>
      cases other with
      | milliseconds n =>
          simp only [parts, Prod.mk.injEq] at sameParts
          rw [toDigits_injective sameParts.1]
      | tenths n => simp [parts] at sameParts
      | minutes n seconds => simp [parts] at sameParts
  | tenths count =>
      cases other with
      | milliseconds n => simp [parts] at sameParts
      | tenths n =>
          simp only [parts, Prod.mk.injEq] at sameParts
          have whole := toDigits_injective sameParts.1
          have rest := toDigits_injective sameParts.2.2
          have count : count = n := by omega
          rw [count]
      | minutes n seconds => simp [parts] at sameParts
  | minutes count seconds =>
      cases other with
      | milliseconds n => simp [parts] at sameParts
      | tenths n => simp [parts] at sameParts
      | minutes n others =>
          simp only [parts, Prod.mk.injEq] at sameParts
          rw [toDigits_injective (List.append_cancel_right sameParts.1),
            toDigits_injective sameParts.2.2]

/-- Minutes and seconds are read off the text, whatever is written for the minutes. -/
theorem of_minutes_text {shown : Shown} {written : String} {seconds : Nat}
    (same : written ++ "m " ++ toString seconds ++ "s" = shown.text) :
    ∃ count, shown = minutes count seconds ∧ written = toString count := by
  have whole : shown.text.toList
      = (written.toList ++ ['m']) ++ ' ' :: Nat.toDigits 10 seconds ++ ['s'] := by
    rw [← same]
    simp
  have read := parts_of_text rfl
    (fun _ member => Nat.isDigit_of_mem_toDigits (by decide) (by decide) member) whole
  cases shown with
  | milliseconds n => simp [parts] at read
  | tenths n => simp [parts] at read
  | minutes count n =>
      simp only [parts, Prod.mk.injEq] at read
      refine ⟨count, by rw [toDigits_injective read.2.2], ?_⟩
      rw [← String.toList_inj, ← List.append_cancel_right read.1]
      simp

end Shown

/-! ## Accuracy -/

theorem accurate_milliseconds_iff {count : Nat} :
    (Shown.milliseconds count).Accurate ms ↔ count = ms := by
  rw [Shown.Accurate, Shown.value, Shown.tolerance, abs_nonpos_iff, sub_eq_zero,
    div_left_inj' (by norm_num), Nat.cast_inj]

theorem accurate_tenths_iff {count : Nat} : (Shown.tenths count).Accurate ms ↔
    100 * count ≤ ms + 50 ∧ ms ≤ 100 * count + 50 := by
  have cast : (100 * count ≤ ms + 50 ∧ ms ≤ 100 * count + 50) ↔
      (100 * (count : Rat) ≤ ms + 50 ∧ (ms : Rat) ≤ 100 * count + 50) := by norm_cast
  rw [cast, Shown.Accurate, Shown.value, Shown.tolerance, abs_le]
  constructor
  · rintro ⟨low, high⟩
    constructor <;> linarith
  · rintro ⟨high, low⟩
    constructor <;> linarith

theorem accurate_minutes_iff {count seconds : Nat} : (Shown.minutes count seconds).Accurate ms ↔
    60000 * count + 1000 * seconds ≤ ms + 500 ∧ ms ≤ 60000 * count + 1000 * seconds + 500 := by
  have cast : (60000 * count + 1000 * seconds ≤ ms + 500 ∧
      ms ≤ 60000 * count + 1000 * seconds + 500) ↔
      (60000 * (count : Rat) + 1000 * seconds ≤ ms + 500 ∧
        (ms : Rat) ≤ 60000 * count + 1000 * seconds + 500) := by norm_cast
  rw [cast, Shown.Accurate, Shown.value, Shown.tolerance, abs_le]
  constructor
  · rintro ⟨low, high⟩
    constructor <;> linarith
  · rintro ⟨high, low⟩
    constructor <;> linarith

/-- Less than half of the smallest unit that is shown is missing from the next minute. -/
def RoundsUp (ms : Nat) : Prop :=
  59950 ≤ ms ∧ ms < 60000 ∨ 60000 ≤ ms ∧ 59500 ≤ ms % 60000

/-- What is shown of a duration is accurate if the minutes are right, and it is well-formed unless
the rest is rounded up to a whole minute.  Below `2 ^ 43` minutes they are always right. -/
theorem duration_shown (held : Held ms) :
    (∀ shown : Shown, durationText (.ofNat ms) = shown.text →
      (shown.WellFormed ↔ ¬ RoundsUp ms) ∧
      (shown.Accurate ms ↔
        ∀ count seconds, shown = .minutes count seconds → count = ms / 60000)) ∧
    (ms < 60000 * 2 ^ 43 →
      ∃ shown : Shown, durationText (.ofNat ms) = shown.text ∧ shown.Accurate ms) := by
  rcases Nat.lt_or_ge ms 1000 with short | long
  · have text := durationText_of_milliseconds short
    refine ⟨?_, fun _ => ⟨_, text, accurate_milliseconds_iff.mpr rfl⟩⟩
    intro shown same
    obtain rfl := Shown.text_injective (text.symm.trans same)
    have below : ¬ RoundsUp ms := by
      unfold RoundsUp
      omega
    simp [Shown.WellFormed, accurate_milliseconds_iff, below, short]
  · rcases Nat.lt_or_ge ms 60000 with short | longer
    · obtain ⟨tenths, text, low, high, last⟩ := durationText_of_seconds long short
      refine ⟨?_, fun _ => ⟨_, text, accurate_tenths_iff.mpr ⟨low, high⟩⟩⟩
      intro shown same
      obtain rfl := Shown.text_injective (text.symm.trans same)
      have roundsUp : RoundsUp ms ↔ 59950 ≤ ms := by
        unfold RoundsUp
        omega
      rw [Shown.WellFormed, last, roundsUp, Nat.not_le]
      simp [accurate_tenths_iff, low, high]
    · have text := durationText_of_minutes held longer
      have roundsUp : RoundsUp ms ↔ 59500 ≤ ms % 60000 := by
        unfold RoundsUp
        omega
      constructor
      · intro shown same
        obtain ⟨count, rfl, _⟩ := Shown.of_minutes_text (text.symm.trans same)
        rw [Shown.WellFormed, roundsUp, accurate_minutes_iff]
        constructor
        · omega
        · simp only [Shown.minutes.injEq, and_imp]
          constructor
          · rintro ⟨low, high⟩ _ _ rfl _
            omega
          · intro right
            have right := right count _ rfl rfl
            omega
      · intro few
        have small : ms / 60000 < 2 ^ 53 := by omega
        refine ⟨.minutes (ms / 60000) ((ms % 60000 + 500) / 1000), ?_, ?_⟩
        · rw [text, floor_minutes held few, ← Number.ofNat_of_small (Nat.le_of_lt small),
            Number.text_ofNat small, Shown.text]
        · rw [accurate_minutes_iff]
          omega

namespace Sample

theorem last_second_shown : Held 119499 ∧ 119499 < 60000 * 2 ^ 43 ∧
    durationText (.ofNat 119499) = (Shown.minutes 1 59).text ∧
    (Shown.minutes 1 59).WellFormed ∧ (Shown.minutes 1 59).Accurate 119499 ∧
    ∃ shown : Shown, durationText (.ofNat 119499) = shown.text ∧ shown.Accurate 119499 := by
  have held : Held 119499 := Number.ofNat_of_small (by decide)
  have text : durationText (.ofNat 119499) = (Shown.minutes 1 59).text := by decide +kernel
  obtain ⟨each, some⟩ := duration_shown held
  obtain ⟨wellFormed, accurate⟩ := each _ text
  refine ⟨held, by decide, text, wellFormed.mpr (by simp [RoundsUp]), accurate.mpr ?_,
    some (by decide)⟩
  rintro count seconds ⟨⟩
  rfl

/-- Half a second before two minutes there are one minute and sixty seconds. -/
theorem sixty_seconds_shown : ¬ ∀ ms, Held ms → ∀ shown : Shown,
    durationText (.ofNat ms) = shown.text → shown.WellFormed ∧ shown.Accurate ms := by
  intro claimed
  have text : durationText (.ofNat 119999) = (Shown.minutes 1 60).text := by decide +kernel
  have wellFormed := (claimed 119999 (Number.ofNat_of_small (by decide)) _ text).1
  simp [Shown.WellFormed] at wellFormed

end Sample

-- The first duration at which the minutes are rounded up lies just above `2 ^ 43` minutes.
example : durationText (.ofNat (60000 * 2 ^ 43 + 59968))
    = (Shown.minutes (2 ^ 43 + 1) 60).text := by decide +kernel

end AssetCatalog.Terminal
