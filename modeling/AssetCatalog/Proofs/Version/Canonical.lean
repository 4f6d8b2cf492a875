import AssetCatalog.Proofs.Version.Denotation
/-! # Canonical version texts

A version whose components are whole numbers below `2 ^ 53` (`Whole`) is written as runs of digits
with single dots between them, and what is written denotes the same numbers.  No run begins with a
nought that it does not need (`Padded`), and no blank stands at either end.  Texts of this form
(`Canonical`) are therefore the ones that reading and writing leave as they are; any other text
that is read is rewritten to the canonical one of the same version (`canonical_round_trip`). -/

set_option autoImplicit false

namespace AssetCatalog.Version

/-- The run begins with a nought that the number does not need. -/
def Padded (run : List Char) : Prop := ∃ rest, rest ≠ [] ∧ run = '0' :: rest

def runs (s : String) : List (List Char) := Text.split '.' (Text.trim s.toList)

/-- There are components, and each of them is a whole number below `2 ^ 53`. -/
structure Whole (version : Version) : Prop where
  some : version.components ≠ []
  components : ∀ component ∈ version.components,
    ∃ n : Nat, n < 2 ^ 53 ∧ component = .finite (n : Rat)

/-- The text is runs of digits with single dots between them and nothing else, no run is padded,
and each stands for a number below `2 ^ 53`. -/
def Canonical (s : String) : Prop :=
  ∃ runs : List (List Char), runs ≠ [] ∧ s.toList = ['.'].intercalate runs ∧
    ∀ run ∈ runs, IsRun run ∧ ¬ Padded run ∧ numeral run < 2 ^ 53

/-! ## The digits of a number -/

theorem isRun_toDigits (n : Nat) : IsRun (Nat.toDigits 10 n) :=
  ⟨Nat.toDigits_ne_nil, fun _ member => Nat.isDigit_of_mem_toDigits (by decide) (by decide) member⟩

theorem numeral_append (run : List Char) (c : Char) :
    numeral (run ++ [c]) = 10 * numeral run + (c.toNat - '0'.toNat) := by
  rw [← digitsValue_eq_numeral, digitsValue_append, digitsValue_eq_numeral, Nat.mul_comm]

theorem numeral_toDigits (n : Nat) : numeral (Nat.toDigits 10 n) = n := by
  rw [← digitsValue_eq_numeral]
  have read := Nat.ofDigitChars_ten_toDigits (n := n)
  rw [Nat.ofDigitChars_eq_foldl] at read
  simpa only [Number.digitsValue, Nat.mul_comm] using read

theorem digitChar_of_isDigit {c : Char} (digit : c.isDigit = true) :
    c.toNat - '0'.toNat < 10 ∧ Nat.digitChar (c.toNat - '0'.toNat) = c := by
  simp only [Char.isDigit, Bool.and_eq_true, decide_eq_true_eq, UInt32.le_iff_toNat_le] at digit
  have low : 48 ≤ c.toNat := digit.1
  have high : c.toNat ≤ 57 := digit.2
  have zero : '0'.toNat = 48 := rfl
  have below : c.toNat - '0'.toNat < 10 := by omega
  refine ⟨below, Char.toNat_inj.mp ?_⟩
  rw [Nat.toNat_digitChar_of_lt_ten below]
  omega

/-- Only noughts stand for nought. -/
theorem numeral_eq_zero {run : List Char} (digits : ∀ c ∈ run, c.isDigit = true)
    (zero : numeral run = 0) : ∀ c ∈ run, c = '0' := by
  induction run using List.reverseRecOn with
  | nil => simp
  | append_singleton run last ih =>
      rw [numeral_append] at zero
      obtain ⟨digitsBefore, digit⟩ := List.forall_mem_append.mp digits
      obtain ⟨_, made⟩ := digitChar_of_isDigit (digit last (by simp))
      have lastZero : last.toNat - '0'.toNat = 0 := by omega
      rw [lastZero] at made
      refine List.forall_mem_append.mpr ⟨ih digitsBefore (by omega), ?_⟩
      intro c member
      rw [List.mem_singleton.mp member, ← made]
      rfl

theorem toDigits_numeral {run : List Char} (isRun : IsRun run) (plain : ¬ Padded run) :
    Nat.toDigits 10 (numeral run) = run := by
  induction run using List.reverseRecOn with
  | nil => exact absurd rfl isRun.1
  | append_singleton run last ih =>
      obtain ⟨digitsBefore, digit⟩ := List.forall_mem_append.mp isRun.2
      obtain ⟨below, made⟩ := digitChar_of_isDigit (digit last (by simp))
      rw [numeral_append]
      cases run with
      | nil =>
          have single : 10 * numeral [] + (last.toNat - '0'.toNat) = last.toNat - '0'.toNat := by
            simp [numeral]
          rw [single, Nat.toDigits_of_lt_base below, made, List.nil_append]
      | cons first rest =>
          have firstNotZero : first ≠ '0' := by
            rintro rfl
            exact plain ⟨rest ++ [last], by simp, rfl⟩
          have positive : 0 < numeral (first :: rest) := by
            apply Nat.pos_of_ne_zero
            intro zero
            exact firstNotZero (numeral_eq_zero digitsBefore zero first List.mem_cons_self)
          have before : ¬ Padded (first :: rest) := by
            rintro ⟨_, _, same⟩
            exact firstNotZero (List.cons.inj same).1
          rw [← Nat.toDigits_append_toDigits (by decide) positive below,
            ih ⟨by simp, digitsBefore⟩ before, Nat.toDigits_of_lt_base below, made]

theorem not_padded_toDigits (n : Nat) : ¬ Padded (Nat.toDigits 10 n) := by
  induction n using Nat.strong_induction_on with
  | _ n ih =>
      rintro ⟨rest, more, padded⟩
      by_cases single : n < 10
      · rw [Nat.toDigits_of_lt_base single] at padded
        exact more (List.cons.inj padded).2.symm
      · rw [Nat.toDigits_of_base_le (by decide) (by omega)] at padded
        cases leading : Nat.toDigits 10 (n / 10) with
        | nil => exact Nat.toDigits_ne_nil leading
        | cons first others =>
            rw [leading, List.cons_append] at padded
            obtain ⟨rfl, _⟩ := List.cons.inj padded
            cases others with
            | nil =>
                have value := numeral_toDigits (n / 10)
                rw [leading] at value
                have zero : numeral ['0'] = 0 := rfl
                omega
            | cons next others =>
                exact ih (n / 10) (by omega) ⟨next :: others, by simp, leading⟩

theorem toDigits_numeral_eq_iff {run : List Char} (isRun : IsRun run) :
    Nat.toDigits 10 (numeral run) = run ↔ ¬ Padded run := by
  constructor
  · intro same
    rw [← same]
    exact not_padded_toDigits _
  · exact toDigits_numeral isRun

/-! ## What is written -/

variable {numbers : List Nat}

theorem whole_iff {version : Version} : Whole version ↔
    ∃ numbers, numbers ≠ [] ∧ (∀ n ∈ numbers, n < 2 ^ 53) ∧ version = ofNats numbers := by
  obtain ⟨components⟩ := version
  constructor
  · rintro ⟨some, whole⟩
    dsimp only at some whole
    choose! numberOf small same using whole
    refine ⟨components.map numberOf, by simpa using some, List.forall_mem_map.mpr small, ?_⟩
    rw [ofNats, List.map_map, mk.injEq]
    refine (List.map_id components).symm.trans (List.map_congr_left fun component member => ?_)
    rw [Function.comp_apply, Number.ofNat_of_small (Nat.le_of_lt (small component member))]
    exact same component member
  · rintro ⟨numbers, some, small, made⟩
    rw [made]
    refine ⟨by simpa [ofNats] using some, List.forall_mem_map.mpr fun n member => ?_⟩
    exact ⟨n, small n member, Number.ofNat_of_small (Nat.le_of_lt (small n member))⟩

theorem toList_text (small : ∀ n ∈ numbers, n < 2 ^ 53) :
    (ofNats numbers).text.toList = ['.'].intercalate (numbers.map (Nat.toDigits 10)) := by
  have dot : ".".toList = ['.'] := rfl
  rw [text, String.toList_intercalate, dot, ofNats, List.map_map, List.map_map]
  congr 1
  refine List.map_congr_left fun n member => ?_
  rw [Function.comp_apply, Function.comp_apply, Number.text_ofNat (small n member)]
  exact Nat.toList_repr

theorem isBlank_of_isDigit {c : Char} (digit : c.isDigit = true) : Text.isBlank c = false := by
  obtain ⟨below, made⟩ := digitChar_of_isDigit digit
  have none : ∀ n < 10, Text.isBlank (Nat.digitChar n) = false := by decide
  rw [← made]
  exact none _ below

theorem skipBlanks_of_solid {cs : List Char} (solid : ∀ c ∈ cs, Text.isBlank c = false) :
    Text.skipBlanks cs = cs := by
  cases cs with
  | nil => rfl
  | cons first rest =>
      exact List.dropWhile_cons_of_neg (by simp [solid first List.mem_cons_self])

theorem trim_of_solid {cs : List Char} (solid : ∀ c ∈ cs, Text.isBlank c = false) :
    Text.trim cs = cs := by
  have backwards : ∀ c ∈ cs.reverse, Text.isBlank c = false :=
    fun c member => solid c (List.mem_reverse.mp member)
  rw [Text.trim, skipBlanks_of_solid solid, skipBlanks_of_solid backwards, List.reverse_reverse]

/-- There is nothing to be trimmed from runs with dots between them. -/
theorem trim_intercalate {runs : List (List Char)} (areRuns : ∀ run ∈ runs, IsRun run) :
    Text.trim (['.'].intercalate runs) = ['.'].intercalate runs := by
  refine trim_of_solid (Text.forall_mem_intercalate ?_ ?_)
  · simp only [List.mem_singleton, forall_eq]
    decide
  · exact fun run member c inRun => isBlank_of_isDigit ((areRuns run member).2 c inRun)

theorem denotes_text (some : numbers ≠ []) (small : ∀ n ∈ numbers, n < 2 ^ 53) :
    Denotes (ofNats numbers).text numbers := by
  have areRuns : ∀ run ∈ numbers.map (Nat.toDigits 10), IsRun run :=
    List.forall_mem_map.mpr fun n _ => isRun_toDigits n
  refine ⟨numbers.map (Nat.toDigits 10), by simpa using some, areRuns, ?_, ?_⟩
  · rw [toList_text small, trim_intercalate areRuns]
  · rw [List.map_map]
    exact (List.map_congr_left fun n _ => numeral_toDigits n).trans (List.map_id numbers)

theorem parse_text (some : numbers ≠ []) (small : ∀ n ∈ numbers, n < 2 ^ 53) :
    parse (ofNats numbers).text = Option.some (ofNats numbers) :=
  parse_eq_some_iff.mpr ⟨numbers, denotes_text some small, rfl⟩

theorem canonical_text (some : numbers ≠ []) (small : ∀ n ∈ numbers, n < 2 ^ 53) :
    Canonical (ofNats numbers).text := by
  refine ⟨numbers.map (Nat.toDigits 10), by simpa using some, toList_text small, ?_⟩
  refine List.forall_mem_map.mpr fun n member => ⟨isRun_toDigits n, not_padded_toDigits n, ?_⟩
  rw [numeral_toDigits]
  exact small n member

/-- A text that is read comes back without its blanks exactly if none of its runs is padded. -/
theorem text_eq_trimmed_iff {s : String} (denoted : Denotes s numbers)
    (small : ∀ n ∈ numbers, n < 2 ^ 53) : (ofNats numbers).text = Text.trimmed s ↔
      ∀ run ∈ runs s, ¬ Padded run := by
  obtain ⟨areRuns, rfl⟩ := denotes_iff.mp denoted
  have trimmed : (Text.trimmed s).toList = ['.'].intercalate (runs s) := by
    rw [Text.trimmed, String.toList_ofList, runs, Text.intercalate_split]
  have some : runs s ≠ [] := Text.split_ne_nil _ _
  have free : ∀ run ∈ runs s, '.' ∉ run :=
    fun run member => dot_not_mem_of_isRun (areRuns run member)
  have freeWritten : ∀ run ∈ (runs s).map (Nat.toDigits 10 ∘ numeral), '.' ∉ run :=
    List.forall_mem_map.mpr fun run _ => dot_not_mem_of_isRun (isRun_toDigits _)
  rw [← String.toList_inj, toList_text small, trimmed, ← runs, List.map_map,
    Text.intercalate_inj (by simpa using some) some freeWritten free]
  calc (runs s).map (Nat.toDigits 10 ∘ numeral) = runs s
      ↔ (runs s).map (Nat.toDigits 10 ∘ numeral) = (runs s).map id := by rw [List.map_id]
    _ ↔ ∀ run ∈ runs s, Nat.toDigits 10 (numeral run) = run := List.map_inj_left
    _ ↔ ∀ run ∈ runs s, ¬ Padded run :=
        forall₂_congr fun run member => toDigits_numeral_eq_iff (areRuns run member)

theorem Canonical.trimmed {s : String} (canonical : Canonical s) :
    Text.trimmed s = s ∧ ∀ run ∈ runs s, IsRun run ∧ ¬ Padded run ∧ numeral run < 2 ^ 53 := by
  obtain ⟨pieces, some, written, each⟩ := canonical
  have trimmed : Text.trim s.toList = s.toList := by
    rw [written]
    exact trim_intercalate fun run member => (each run member).1
  have same : runs s = pieces := by
    rw [runs, trimmed, written]
    exact Text.split_intercalate some fun run member => dot_not_mem_of_isRun (each run member).1
  rw [Text.trimmed, trimmed, String.ofList_toList, same]
  exact ⟨rfl, each⟩

/-- Whole versions and canonical texts are one another's reading and writing.  Every other text
that is read is written back as the canonical text of the same version. -/
theorem canonical_round_trip :
    (∀ version, Whole version → parse version.text = some version ∧ Canonical version.text) ∧
    (∀ s, Canonical s → ∃ version, Whole version ∧ parse s = some version ∧ version.text = s) ∧
    ∀ s version, parse s = some version → (∀ run ∈ runs s, numeral run < 2 ^ 53) →
      (version.text = Text.trimmed s ↔ ∀ run ∈ runs s, ¬ Padded run) ∧
      parse version.text = some version := by
  refine ⟨?_, ?_, ?_⟩
  · intro version whole
    obtain ⟨numbers, some, small, rfl⟩ := whole_iff.mp whole
    exact ⟨parse_text some small, canonical_text some small⟩
  · intro s canonical
    obtain ⟨trimmed, each⟩ := canonical.trimmed
    have denoted : Denotes s ((runs s).map numeral) :=
      denotes_iff.mpr ⟨fun run member => (each run member).1, rfl⟩
    have small : ∀ n ∈ (runs s).map numeral, n < 2 ^ 53 :=
      List.forall_mem_map.mpr fun run member => (each run member).2.2
    refine ⟨ofNats ((runs s).map numeral), whole_iff.mpr ⟨_, denoted.ne_nil, small, rfl⟩,
      parse_eq_some_iff.mpr ⟨_, denoted, rfl⟩, ?_⟩
    have unchanged :=
      (text_eq_trimmed_iff denoted small).mpr fun run member => (each run member).2.1
    rwa [trimmed] at unchanged
  · intro s version read held
    obtain ⟨numbers, denoted, rfl⟩ := parse_eq_some_iff.mp read
    have made : (runs s).map numeral = numbers := (denotes_iff.mp denoted).2
    have small : ∀ n ∈ numbers, n < 2 ^ 53 := made ▸ List.forall_mem_map.mpr held
    exact ⟨text_eq_trimmed_iff denoted small, parse_text denoted.ne_nil small⟩

namespace Sample

def paddedText : String := " 026.9007199254740991\u00a0"

def version : Version := ofNats [26, 9007199254740991]

theorem padded_version_rewritten :
    (Whole version ∧ Canonical version.text) ∧
    (Canonical "26.9007199254740991" ∧ ∃ made, parse "26.9007199254740991" = some made ∧
      made.text = "26.9007199254740991") ∧
    parse paddedText = some version ∧ (∀ run ∈ runs paddedText, numeral run < 2 ^ 53) ∧
    version.text ≠ Text.trimmed paddedText ∧ parse version.text = some version := by
  have whole : Whole version := whole_iff.mpr ⟨_, by simp, by decide, rfl⟩
  have written : version.text = "26.9007199254740991" := by decide +kernel
  have canonical : Canonical version.text := (canonical_round_trip.1 version whole).2
  have read : parse paddedText = some version := by decide +kernel
  have held : ∀ run ∈ runs paddedText, numeral run < 2 ^ 53 := by decide +kernel
  obtain ⟨rewritten, again⟩ := canonical_round_trip.2.2 paddedText version read held
  obtain ⟨made, _, readCanonical, unchanged⟩ :=
    canonical_round_trip.2.1 _ (written ▸ canonical)
  have padded : ¬ ∀ run ∈ runs paddedText, ¬ Padded run := by
    intro plain
    exact plain ['0', '2', '6'] (by decide +kernel) ⟨['2', '6'], by simp, rfl⟩
  exact ⟨⟨whole, canonical⟩, ⟨written ▸ canonical, made, readCanonical, unchanged⟩, read, held,
    fun same => padded (rewritten.mp same), again⟩

end Sample

end AssetCatalog.Version
