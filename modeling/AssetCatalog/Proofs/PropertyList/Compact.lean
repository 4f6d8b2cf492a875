import AssetCatalog.PropertyList.Value
import AssetCatalog.Proofs.Text.Pieces
/-! # Compact values

The compact form of a value holds no control character below U+0020, so it never breaks a line:
the texts and the keys in it are quoted, at every depth, and a quoted text holds none
(`plain_quoted`).  Nor is it ever empty. -/

set_option autoImplicit false

namespace AssetCatalog

namespace Text

def Plain (cs : List Char) : Prop := ∀ c ∈ cs, 0x20 ≤ c.toNat

@[simp] theorem plain_nil : Plain [] := List.forall_mem_nil _

@[simp] theorem plain_cons {c : Char} {cs : List Char} :
    Plain (c :: cs) ↔ 0x20 ≤ c.toNat ∧ Plain cs := List.forall_mem_cons

@[simp] theorem plain_append {cs ds : List Char} : Plain (cs ++ ds) ↔ Plain cs ∧ Plain ds :=
  List.forall_mem_append

theorem Plain.subset {cs ds : List Char} (plain : Plain ds) (inside : cs ⊆ ds) : Plain cs :=
  fun c member => plain c (inside member)

theorem plain_digits (n : Nat) : Plain (Nat.toDigits 10 n) := by
  intro c member
  have digit := Nat.isDigit_of_mem_toDigits (by decide) (by decide) member
  simp only [Char.isDigit, Bool.and_eq_true, decide_eq_true_eq] at digit
  have low : (48 : UInt32).toNat ≤ c.val.toNat := digit.1
  exact Nat.le_trans (by decide) low

theorem plain_replicate (n : Nat) (c : Char) (plain : 0x20 ≤ c.toNat) :
    Plain (List.replicate n c) := by
  intro d member
  rwa [(List.mem_replicate.mp member).2]

/-! ## Quoted texts -/

theorem hexDigit_plain {n : Nat} (small : n < 16) : 0x20 ≤ (hexDigit n).toNat := by
  revert n
  decide

theorem plain_escaped (c : Char) : Plain (escaped c) := by
  unfold escaped
  iterate 7
    split
    · simp
  split
  · next control =>
    have first : c.toNat / 16 < 16 := by omega
    have second : c.toNat % 16 < 16 := by omega
    simp [hexDigit_plain first, hexDigit_plain second]
  · next other => simpa using other

theorem plain_quoted (s : String) : Plain (quoted s).toList := by
  rw [quoted, String.toList_ofList, plain_cons, plain_append]
  refine ⟨by decide, ?_, by simp⟩
  intro c member
  obtain ⟨d, _, inEscaped⟩ := List.mem_flatMap.mp member
  exact plain_escaped d c inEscaped

end Text

open Text

/-! ## Numbers and dates -/

theorem Number.plain_layout {digits : List Char} (plain : Plain digits) (point : Int) :
    Plain (Number.layout digits point) := by
  have noughts : ∀ n, Plain (List.replicate n '0') := fun n => plain_replicate n '0' (by decide)
  unfold layout
  dsimp only
  split
  · exact plain_append.mpr ⟨plain, noughts _⟩
  · split
    · rw [plain_append, plain_cons]
      exact ⟨plain.subset (List.take_subset _ _), by decide, plain.subset (List.drop_subset _ _)⟩
    · split
      · rw [plain_cons, plain_cons, plain_append]
        exact ⟨by decide, by decide, noughts _, plain⟩
      · rw [plain_append, plain_cons, plain_cons]
        refine ⟨?_, by decide, by split <;> decide, plain_digits _⟩
        split
        · exact plain_nil
        · exact plain
        · next digit rest _ =>
          obtain ⟨first, others⟩ := plain_cons.mp plain
          exact plain_cons.mpr ⟨first, plain_cons.mpr ⟨by decide, others⟩⟩

theorem Number.plain_positiveText (value : Rat) : Plain (Number.positiveText value) := by
  have kept : ∀ digits, dropTrailingNoughts digits ⊆ digits := by
    intro digits c member
    exact List.mem_reverse.mp (List.dropWhile_subset _ (List.mem_reverse.mp member))
  exact plain_layout ((plain_digits _).subset (kept _)) _

theorem Number.plain_text (number : Number) : Plain number.text.toList := by
  cases number with
  | notANumber => simp [text]
  | infinite negative => cases negative <;> simp [text]
  | finite value =>
      have sign : Plain (if value.num < 0 then ['-'] else []) := by split <;> simp
      rw [text, String.toList_ofList, valueText]
      split
      · exact plain_append.mpr ⟨sign, plain_digits _⟩
      · exact plain_append.mpr ⟨sign, plain_positiveText _⟩

/-! ## Values -/

namespace Value

theorem plain_listed {items : List String} (each : ∀ item ∈ items, Plain item.toList) :
    Plain ([','].intercalate (items.map String.toList)) :=
  forall_mem_intercalate (by simp) (List.forall_mem_map.mpr each)

theorem plain_braced {items : List String} (each : ∀ item ∈ items, Plain item.toList) :
    Plain (braced items).toList := by
  simp [braced, plain_listed each]

theorem plain_bracketed {items : List String} (each : ∀ item ∈ items, Plain item.toList) :
    Plain (bracketed items).toList := by
  simp [bracketed, plain_listed each]

theorem plain_compactData (octets : List UInt8) : Plain (compactData octets).toList := by
  have octetTexts : Plain (bracketed (octets.map fun octet => octet.toNat.repr)).toList := by
    refine plain_bracketed (List.forall_mem_map.mpr fun octet _ => ?_)
    rw [Nat.repr_eq_ofList_toDigits, String.toList_ofList]
    exact plain_digits octet.toNat
  refine plain_braced ?_
  simp [octetTexts]

mutual

/-- No value breaks the line that its compact form stands on. -/
theorem plain_compact : ∀ value : Value, Plain value.compact.toList
  | .text content => plain_quoted content
  | .number .notANumber => by simp [compact, compactNumber]
  | .number (.infinite _) => by simp [compact, compactNumber]
  | .number (.finite value) => Number.plain_text (.finite value)
  | .truth true => by simp [compact, truthText]
  | .truth false => by simp [compact, truthText]
  | .null => by simp [compact]
  | .list items => plain_bracketed (plain_compactItems items)
  | .dict entries => plain_braced (plain_compactEntries entries)
  | .date none => by simp [compact]
  | .date (some instant) => plain_quoted (Calendar.text instant)
  | .data octets => plain_compactData octets

theorem plain_compactItems : ∀ items : List Value, ∀ item ∈ compactItems items, Plain item.toList
  | [] => List.forall_mem_nil _
  | item :: rest => List.forall_mem_cons.mpr ⟨plain_compact item, plain_compactItems rest⟩

theorem plain_compactEntries : ∀ entries : List (String × Value),
    ∀ entry ∈ compactEntries entries, Plain entry.toList
  | [] => List.forall_mem_nil _
  | (key, value) :: rest => by
    refine List.forall_mem_cons.mpr ⟨?_, plain_compactEntries rest⟩
    simp [plain_quoted key, plain_compact value]

end

theorem compact_dict_ne_empty (entries : List (String × Value)) :
    (Value.dict entries).compact ≠ "" := by
  intro empty
  have chars := congrArg String.toList empty
  simp [compact, braced] at chars

end Value

end AssetCatalog
