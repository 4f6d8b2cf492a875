import AssetCatalog.Text.Blank
import Mathlib.Data.List.Basic
/-! # Lines, and what follows them

A text is cut into lines at each of the four line ends (`cutLines`).  `lineStarts` keeps with each
line what follows it: the rest of the text from the beginning of the line on.  A search that
begins at the beginnings of lines sees these rests and nothing else. -/

set_option autoImplicit false

namespace AssetCatalog.Text

def Blank (cs : List Char) : Prop := ∀ c ∈ cs, isBlank c = true

instance (cs : List Char) : Decidable (Blank cs) :=
  decidable_of_iff (cs.all isBlank = true) List.all_eq_true

def OneLine (cs : List Char) : Prop := ∀ c ∈ cs, endsLine c = false

instance (cs : List Char) : Decidable (OneLine cs) :=
  decidable_of_iff (cs.any endsLine = false) (by simp [OneLine])

def AtLineEnd (cs : List Char) : Prop := ∀ c ∈ cs.head?, endsLine c = true

instance (cs : List Char) : Decidable (AtLineEnd cs) :=
  decidable_of_iff (cs.head?.all endsLine = true) (Option.all_eq_true _ _)

def behindLineEnds : List Char → List (List Char)
  | [] => []
  | c :: rest => if endsLine c then rest :: behindLineEnds rest else behindLineEnds rest

/-- What is left of a text from the beginning of each of its lines on. -/
def lineStarts (cs : List Char) : List (List Char) := cs :: behindLineEnds cs

def firstLine (cs : List Char) : List Char := cs.takeWhile fun c => !endsLine c

def cutLines (s : String) : List String := (s.toList.splitOnP endsLine).map String.ofList

/-! ## Characters of lines -/

@[simp] theorem oneLine_nil : OneLine [] := List.forall_mem_nil _

@[simp] theorem oneLine_cons {c : Char} {cs : List Char} :
    OneLine (c :: cs) ↔ endsLine c = false ∧ OneLine cs := List.forall_mem_cons

@[simp] theorem oneLine_append {as bs : List Char} : OneLine (as ++ bs) ↔ OneLine as ∧ OneLine bs :=
  List.forall_mem_append

@[simp] theorem blank_nil : Blank [] := List.forall_mem_nil _

@[simp] theorem blank_cons {c : Char} {cs : List Char} :
    Blank (c :: cs) ↔ isBlank c = true ∧ Blank cs := List.forall_mem_cons

@[simp] theorem blank_append {as bs : List Char} : Blank (as ++ bs) ↔ Blank as ∧ Blank bs :=
  List.forall_mem_append

@[simp] theorem atLineEnd_nil : AtLineEnd [] := by simp [AtLineEnd]

@[simp] theorem atLineEnd_cons {c : Char} {cs : List Char} :
    AtLineEnd (c :: cs) ↔ endsLine c = true := by simp [AtLineEnd]

theorem not_atLineEnd_cons {c : Char} {cs : List Char} (goesOn : endsLine c = false) :
    ¬ AtLineEnd (c :: cs) := by simp [goesOn]

/-- A line of a text is as long as it can be. -/
theorem eq_nil_of_oneLine_of_atLineEnd {cs : List Char} (line : OneLine cs) (ended : AtLineEnd cs) :
    cs = [] := by
  cases cs with
  | nil => rfl
  | cons c rest => exact absurd ended (not_atLineEnd_cons (oneLine_cons.mp line).1)

theorem split_of_oneLine {front back line rest : List Char} (split : front ++ back = line ++ rest)
    (inLine : OneLine front) (ended : AtLineEnd rest) :
    ∃ more, line = front ++ more ∧ back = more ++ rest := by
  rcases List.append_eq_append_iff.mp split with ⟨more, onLine, behind⟩ | ⟨more, onLine, behind⟩
  · exact ⟨more, onLine, behind⟩
  · subst onLine
    have none : more = [] := by
      cases more with
      | nil => rfl
      | cons c more =>
          subst behind
          exact absurd ended (not_atLineEnd_cons (inLine c (by simp)))
    subst none
    exact ⟨[], by simp, behind.symm⟩

theorem split_of_oneLine_cons {front back line rest : List Char} {c : Char}
    (split : line ++ rest = front ++ c :: back) (inLine : OneLine front)
    (goesOn : endsLine c = false) (ended : AtLineEnd rest) :
    ∃ more, line = front ++ c :: more ∧ back = more ++ rest := by
  have further : OneLine (front ++ [c]) := by simp [inLine, goesOn]
  rw [List.append_cons] at split
  obtain ⟨more, onLine, behind⟩ := split_of_oneLine split.symm further ended
  exact ⟨more, by simp [onLine], behind⟩

theorem oneLine_of_suffix {part line : List Char} (suffix : part <:+ line) (inLine : OneLine line) :
    OneLine part :=
  fun c member => inLine c (suffix.mem member)

theorem oneLine_firstLine (cs : List Char) : OneLine (firstLine cs) := by
  have each := List.all_eq_true.mp (List.all_takeWhile (p := fun c => !endsLine c) (l := cs))
  intro c member
  simpa using each c member

theorem atLineEnd_dropWhile (cs : List Char) : AtLineEnd (cs.dropWhile fun c => !endsLine c) := by
  intro c first
  have stopped := List.head?_dropWhile_not (fun c => !endsLine c) cs
  rw [Option.mem_def.mp first] at stopped
  simpa using stopped

theorem exists_firstLine (cs : List Char) : ∃ rest, cs = firstLine cs ++ rest ∧ AtLineEnd rest :=
  ⟨_, List.takeWhile_append_dropWhile.symm, atLineEnd_dropWhile cs⟩

/-! ## Where lines begin -/

theorem behindLineEnds_of_oneLine {cs : List Char} (line : OneLine cs) :
    behindLineEnds cs = [] := by
  induction cs with
  | nil => rfl
  | cons c rest ih =>
      obtain ⟨goesOn, line⟩ := oneLine_cons.mp line
      simp [behindLineEnds, goesOn, ih line]

theorem behindLineEnds_append {cs : List Char} (line : OneLine cs) (rest : List Char) :
    behindLineEnds (cs ++ rest) = behindLineEnds rest := by
  induction cs with
  | nil => rfl
  | cons c cs ih =>
      obtain ⟨goesOn, line⟩ := oneLine_cons.mp line
      simp [behindLineEnds, goesOn, ih line]

theorem map_firstLine_lineStarts (cs : List Char) :
    (lineStarts cs).map firstLine = cs.splitOnP endsLine := by
  induction cs with
  | nil => rfl
  | cons c rest ih =>
      rw [List.splitOnP_cons_eq_if_modifyHead, ← ih]
      cases ends : endsLine c with
      | true => simp [lineStarts, behindLineEnds, firstLine, ends]
      | false => simp [lineStarts, behindLineEnds, firstLine, ends]

theorem cutLines_eq (s : String) :
    cutLines s = ((lineStarts s.toList).map firstLine).map String.ofList := by
  rw [map_firstLine_lineStarts]
  rfl

theorem oneLine_of_mem_cutLines {s line : String} (member : line ∈ cutLines s) :
    OneLine line.toList := by
  rw [cutLines_eq, List.map_map] at member
  obtain ⟨start, _, rfl⟩ := List.mem_map.mp member
  rw [Function.comp_apply, String.toList_ofList]
  exact oneLine_firstLine start

end AssetCatalog.Text
