import AssetCatalog.Text.Split
import Mathlib.Data.List.Basic
/-! # Pieces of a text

What a text is cut into at a separator, when it is made of other texts.  Texts that are put
together with separators between them are cut into the pieces of each, in order
(`split_intercalate_pieces`), and every text is its own pieces put together again. -/

set_option autoImplicit false

namespace AssetCatalog.Text

variable {sep : Char}

theorem mem_of_mem_split {c : Char} {cs piece : List Char}
    (member : piece ∈ split sep cs) (inPiece : c ∈ piece) : c ∈ cs := by
  induction cs generalizing piece with
  | nil =>
      simp only [split, List.mem_singleton] at member
      subst member
      exact inPiece
  | cons first rest ih =>
      rw [split] at member
      split at member
      · rcases List.mem_cons.mp member with rfl | member
        · simp at inPiece
        · exact List.mem_cons_of_mem _ (ih member inPiece)
      · cases pieces : split sep rest with
        | nil => exact absurd pieces (split_ne_nil sep rest)
        | cons next others =>
            rw [pieces] at member ih
            rcases List.mem_cons.mp member with rfl | member
            · rcases List.mem_cons.mp inPiece with rfl | inPiece
              · exact List.mem_cons_self
              · exact List.mem_cons_of_mem _ (ih List.mem_cons_self inPiece)
            · exact List.mem_cons_of_mem _ (ih (List.mem_cons_of_mem _ member) inPiece)

theorem length_split (sep : Char) (cs : List Char) :
    (split sep cs).length = cs.count sep + 1 := by
  induction cs with
  | nil => rfl
  | cons first rest ih =>
      rw [split]
      by_cases cut : first = sep
      · rw [if_pos cut, List.length_cons, ih, cut, List.count_cons_self]
      · rw [if_neg cut, List.count_cons_of_ne cut]
        cases pieces : split sep rest with
        | nil => exact absurd pieces (split_ne_nil sep rest)
        | cons piece others =>
            rw [pieces] at ih
            exact ih

theorem split_append {cs : List Char} (rest : List Char) (free : sep ∉ cs) :
    split sep (rest ++ cs)
      = (split sep rest).dropLast ++ [(split sep rest).getLast?.getD [] ++ cs] := by
  induction rest with
  | nil => simp [split, split_of_not_mem free]
  | cons first rest ih =>
      rw [List.cons_append, split, split, ih]
      cases pieces : split sep rest with
      | nil => exact absurd pieces (split_ne_nil sep rest)
      | cons piece others =>
          by_cases cut : first = sep
          · simp [cut]
          · cases others with
            | nil => simp [cut]
            | cons next others => simp [cut]

theorem split_append_separator (cs rest : List Char) :
    split sep (cs ++ sep :: rest) = split sep cs ++ split sep rest := by
  induction cs with
  | nil => simp [split]
  | cons first cs ih =>
      rw [List.cons_append, split, split, ih]
      cases pieces : split sep cs with
      | nil => exact absurd pieces (split_ne_nil sep cs)
      | cons piece others =>
          by_cases cut : first = sep
          · simp [cut]
          · simp [cut]

theorem split_intercalate_pieces {texts : List (List Char)} (some : texts ≠ []) :
    split sep ([sep].intercalate texts) = texts.flatMap (split sep) := by
  induction texts with
  | nil => exact absurd rfl some
  | cons first rest ih =>
      cases rest with
      | nil => simp
      | cons next others =>
          rw [List.intercalate_cons_cons, List.append_assoc, List.singleton_append,
            split_append_separator, ih (List.cons_ne_nil _ _)]
          rfl

theorem split_intercalate {pieces : List (List Char)} (some : pieces ≠ [])
    (free : ∀ piece ∈ pieces, sep ∉ piece) : split sep ([sep].intercalate pieces) = pieces := by
  have whole : pieces.flatMap (split sep) = pieces.flatMap fun piece => [piece] :=
    List.flatMap_congr fun piece member => split_of_not_mem (free piece member)
  rw [split_intercalate_pieces some, whole, List.flatMap_singleton']

/-- Pieces are not mixed up when they are put together. -/
theorem intercalate_inj {pieces others : List (List Char)} (some : pieces ≠ [])
    (someOther : others ≠ []) (free : ∀ piece ∈ pieces, sep ∉ piece)
    (freeOther : ∀ piece ∈ others, sep ∉ piece) :
    [sep].intercalate pieces = [sep].intercalate others ↔ pieces = others := by
  constructor
  · intro same
    rw [← split_intercalate some free, same, split_intercalate someOther freeOther]
  · exact congrArg _

theorem joined_eq_intercalate (pieces : List (List Char)) :
    joined sep pieces = [sep].intercalate pieces := by
  induction pieces with
  | nil => rfl
  | cons piece rest ih =>
      cases rest with
      | nil => rw [joined, List.intercalate_singleton]
      | cons next others =>
          rw [joined, ih, List.intercalate_cons_cons, List.append_assoc, List.singleton_append]

theorem intercalate_split (sep : Char) (cs : List Char) :
    [sep].intercalate (split sep cs) = cs := by
  rw [← joined_eq_intercalate, joined_split]

/-! ## What is in a text that is put together -/

theorem forall_mem_intercalate {P : Char → Prop} {between : List Char} {texts : List (List Char)}
    (inBetween : ∀ c ∈ between, P c) (inEach : ∀ text ∈ texts, ∀ c ∈ text, P c) :
    ∀ c ∈ between.intercalate texts, P c := by
  induction texts with
  | nil => exact List.forall_mem_nil _
  | cons first rest ih =>
      obtain ⟨inFirst, inRest⟩ := List.forall_mem_cons.mp inEach
      cases rest with
      | nil => rwa [List.intercalate_singleton]
      | cons next others =>
          rw [List.intercalate_cons_cons, List.forall_mem_append, List.forall_mem_append]
          exact ⟨⟨inFirst, inBetween⟩, ih inRest⟩

theorem infix_intercalate {between text : List Char} {texts : List (List Char)}
    (member : text ∈ texts) : text <:+: between.intercalate texts := by
  induction texts with
  | nil => cases member
  | cons first rest ih =>
      cases rest with
      | nil =>
          rw [List.intercalate_singleton]
          exact List.mem_singleton.mp member ▸ List.infix_refl text
      | cons next others =>
          rw [List.intercalate_cons_cons, List.append_assoc]
          rcases List.mem_cons.mp member with rfl | member
          · exact (List.prefix_append _ _).isInfix
          · have behind := (List.suffix_append between (between.intercalate (next :: others))).trans
              (List.suffix_append first _)
            exact (ih member).trans behind.isInfix

/-! ## Lines -/

theorem lines_of_not_mem {s : String} (free : '\n' ∉ s.toList) : lines s = [s] := by
  rw [lines, splitAt, split_of_not_mem free, List.map_singleton, String.ofList_toList]

theorem flatMap_lines_of_not_mem {texts : List String}
    (free : ∀ text ∈ texts, '\n' ∉ text.toList) : texts.flatMap lines = texts := by
  have each : texts.flatMap lines = texts.flatMap fun text => [text] :=
    List.flatMap_congr fun text member => lines_of_not_mem (free text member)
  rw [each, List.flatMap_singleton']

/-- Texts that are put below one another have the lines of each. -/
theorem lines_intercalate {texts : List String} (some : texts ≠ []) :
    lines ("\n".intercalate texts) = texts.flatMap lines := by
  have feed : "\n".toList = ['\n'] := rfl
  rw [lines, splitAt, String.toList_intercalate, feed,
    split_intercalate_pieces (by simpa using some), List.flatMap_map, List.map_flatMap]
  rfl

end AssetCatalog.Text
