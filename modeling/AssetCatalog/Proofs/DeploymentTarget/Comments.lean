import AssetCatalog.Proofs.DeploymentTarget.Dangling
/-! # Comments behind a value

A comment behind a value is left out, unless a quote in it is one behind which the assignment may
end: at the end of the line, or before a further number sign.  The last such quote then closes the
value, and what stands before it belongs to the value (`value_before_comment`,
`Sample.comment_taken_for_value`). -/

set_option autoImplicit false

namespace AssetCatalog.DeploymentTarget

open AssetCatalog.Text
open AssetCatalog.Configuration (targetIn)

/-- The line assigns a value and has a comment behind it, after a gap. -/
def CommentedLine (line value gap comment : List Char) : Prop :=
  OpensOn line (value ++ '"' :: (gap ++ '#' :: comment)) ∧ Blank gap

/-! ## The last quote that closes a value -/

theorem exists_holds {cs : List Char} (closed : ¬ Unclosed cs) : ∃ part, Holds cs part := by
  obtain ⟨rest, split, ended⟩ := exists_firstLine cs
  rw [split, ← closeValue_eq_none_iff (oneLine_firstLine cs) ended] at closed
  obtain ⟨⟨part, used⟩, found⟩ := Option.ne_none_iff_exists'.mp closed
  have held := (closeValue_eq_some_iff (oneLine_firstLine cs) ended).mp found
  rw [← split] at held
  exact ⟨part, holds_iff.mpr ⟨used, held⟩⟩

theorem Holds.behind_quote {value cs part : List Char} (onLine : OneLine value)
    (holds : Holds cs part) : Holds (value ++ '"' :: cs) (value ++ '"' :: part) := by
  obtain ⟨behind, rfl, partOnLine, closes, last⟩ := holds
  refine ⟨behind, by simp, ?_, closes, last⟩
  exact oneLine_append.mpr ⟨onLine, oneLine_cons.mpr ⟨by decide, partOnLine⟩⟩

theorem exists_part_of_comment {gap comment rest part behind : List Char} (blank : Blank gap)
    (onLine : OneLine part) (ended : AtLineEnd rest)
    (split : gap ++ '#' :: comment ++ rest = part ++ '"' :: behind) :
    ∃ front back, comment = front ++ '"' :: back ∧ behind = back ++ rest ∧
      part = gap ++ '#' :: front := by
  obtain ⟨back, commented, rfl⟩ := split_of_oneLine_cons split onLine (by decide) ended
  rcases List.append_eq_append_iff.mp commented with ⟨more, rfl, behindGap⟩ | ⟨more, rfl, quoted⟩
  · cases more with
    | nil => exact absurd (List.cons.inj behindGap).1 (by decide)
    | cons first front =>
        obtain ⟨rfl, rfl⟩ := List.cons.inj behindGap
        exact ⟨front, back, rfl, rfl, rfl⟩
  · cases more with
    | nil => exact absurd (List.cons.inj quoted).1 (by decide)
    | cons first more =>
        obtain ⟨rfl, _⟩ := List.cons.inj quoted
        exact absurd (by simp) (quote_not_mem_of_blank blank)

theorem exists_value_before_comment {value gap comment rest : List Char} (blank : Blank gap)
    (inLine : OneLine (value ++ '"' :: (gap ++ '#' :: comment))) (ended : AtLineEnd rest) :
    ∃ found, Holds (value ++ '"' :: (gap ++ '#' :: comment) ++ rest) found ∧
      (found = value ↔ ∀ front back, comment = front ++ '"' :: back → ¬ Closes (back ++ rest)) ∧
      (found ≠ value → ∃ front back, comment = front ++ '"' :: back ∧ Closes (back ++ rest) ∧
        Unclosed (back ++ rest) ∧ found = value ++ '"' :: (gap ++ '#' :: front)) := by
  obtain ⟨valueOnLine, behindOnLine⟩ := oneLine_append.mp inLine
  have commentOnLine := (oneLine_cons.mp behindOnLine).2
  have commented : Closes (gap ++ '#' :: comment ++ rest) :=
    Or.inr ⟨comment ++ rest, gap, blank, by simp⟩
  rw [List.append_assoc, List.cons_append]
  -- if a quote behind the value's own closes it too, the last one that does is in the comment
  by_cases unclosed : Unclosed (gap ++ '#' :: comment ++ rest)
  · refine ⟨value, ⟨_, rfl, valueOnLine, commented, unclosed⟩, iff_of_true rfl ?_,
      fun other => absurd rfl other⟩
    rintro front back rfl
    have frontOnLine : OneLine (gap ++ '#' :: front) := by
      simp only [oneLine_append, oneLine_cons] at commentOnLine ⊢
      exact ⟨commentOnLine.1, commentOnLine.2.1, commentOnLine.2.2.1⟩
    exact unclosed (gap ++ '#' :: front) (back ++ rest) (by simp) frontOnLine
  · obtain ⟨part, holds⟩ := exists_holds unclosed
    have whole := holds.behind_quote valueOnLine
    obtain ⟨behind, split, partOnLine, closes, last⟩ := holds
    obtain ⟨front, back, rfl, rfl, rfl⟩ := exists_part_of_comment blank partOnLine ended split
    refine ⟨_, whole, iff_of_false (by simp) ?_, fun _ => ⟨front, back, rfl, closes, last, rfl⟩⟩
    exact fun none => none front back rfl closes

/-- The target is the value before the comment exactly if no quote of the comment is one behind
which the assignment may end; otherwise it reaches up to the last such quote. -/
theorem value_before_comment {text source : String}
    {earlier later : List (List Char)} {line rest value gap comment : List Char}
    (place : lineStarts text.toList = earlier ++ (line ++ rest) :: later)
    (inLine : OneLine line) (ended : AtLineEnd rest)
    (form : CommentedLine line value gap comment)
    (only : ∀ other ∈ earlier ++ later, ∀ found, ¬ Assigns other found) :
    ∃ found, targetIn text source = .ok (String.ofList found) ∧
      (found = value ↔ ∀ front back, comment = front ++ '"' :: back → ¬ Closes (back ++ rest)) ∧
      (found ≠ value → ∃ front back, comment = front ++ '"' :: back ∧ Closes (back ++ rest) ∧
        Unclosed (back ++ rest) ∧ found = value ++ '"' :: (gap ++ '#' :: front)) := by
  obtain ⟨opens, blank⟩ := form
  obtain ⟨found, holds, exact⟩ := exists_value_before_comment blank
    (oneLine_of_suffix (suffix_of_opensOn opens) inLine) ended
  have here : assignedOn (line ++ rest) = some found :=
    assignedOn_eq_some_iff.mpr ⟨_, opens.append ended, holds⟩
  have elsewhere : ∀ other ∈ earlier ++ later, assignedOn other = none :=
    fun other member => assignedOn_eq_none_iff.mpr (only other member)
  obtain ⟨before, behind⟩ := List.forall_mem_append.mp elsewhere
  refine ⟨found, targetIn_eq_ok_iff.mpr ?_, exact⟩
  rw [assignments_eq, place, List.filterMap_append, List.filterMap_cons_some here,
    List.filterMap_eq_nil_iff.mpr before, List.filterMap_eq_nil_iff.mpr behind]
  rfl

namespace Sample

def comment : String := " was \"10.15\" or # so"

def line : String := "  mac_deployment_target\t= \"11.0\"  #" ++ comment

def behind : String := "\r\n# end"

def commented : String := "x = 1\n" ++ line ++ behind

theorem place : lineStarts commented.toList = [commented.toList]
    ++ (line.toList ++ behind.toList) :: ["\n# end".toList, "# end".toList] := by
  decide +kernel

theorem form : CommentedLine line.toList "11.0".toList [' ', ' '] comment.toList := by
  have parts : line.toList = [' ', ' '] ++ variableName.toList
      ++ (['\t'] ++ '=' :: ([' '] ++ '"' :: ("11.0".toList ++ '"' :: ([' ', ' '] ++ '#' ::
        comment.toList)))) := by decide +kernel
  rw [parts]
  exact ⟨opensOn_of_gaps (by decide) (by decide), by decide⟩

theorem unassigned_elsewhere :
    ∀ other ∈ [commented.toList] ++ ["\n# end".toList, "# end".toList],
      ∀ found, ¬ Assigns other found := by
  have none : ∀ other ∈ [commented.toList] ++ ["\n# end".toList, "# end".toList],
      assignedOn other = none := by decide +kernel
  exact fun other member => assignedOn_eq_none_iff.mp (none other member)

theorem quoted_comment_left_out :
    lineStarts commented.toList = [commented.toList]
      ++ (line.toList ++ behind.toList) :: ["\n# end".toList, "# end".toList] ∧
    OneLine line.toList ∧ AtLineEnd behind.toList ∧
    CommentedLine line.toList "11.0".toList [' ', ' '] comment.toList ∧
    (∀ other ∈ [commented.toList] ++ ["\n# end".toList, "# end".toList],
      ∀ found, ¬ Assigns other found) ∧
    targetIn commented "mac_sdk.gni" = .ok "11.0" := by
  have inLine : OneLine line.toList := by decide +kernel
  have ended : AtLineEnd behind.toList := by decide +kernel
  have unclosed : Unclosed (comment.toList ++ behind.toList) :=
    (closeValue_eq_none_iff (by decide +kernel) ended).mp (by decide +kernel)
  obtain ⟨found, read, exact, _⟩ :=
    @value_before_comment _ "mac_sdk.gni" _ _ _ _ _ _ _ place inLine ended form unassigned_elsewhere
  have none : ∀ front back, comment.toList = front ++ '"' :: back →
      ¬ Closes (back ++ behind.toList) := by
    intro front back split
    have onLine : OneLine comment.toList := by decide +kernel
    rw [split] at onLine
    exact unclosed front _ (by rw [split]; simp) (oneLine_append.mp onLine).1
  obtain rfl := exact.mpr none
  exact ⟨place, inLine, ended, form, unassigned_elsewhere, read⟩

/-- A quote at the end of a comment is taken for the one that closes the value. -/
theorem comment_taken_for_value :
    targetIn "mac_deployment_target = \"11.0\" # was \"10.15\"" "mac_sdk.gni"
      = .ok "11.0\" # was \"10.15" :=
  targetIn_eq_ok_iff.mpr (by decide +kernel)

end Sample

end AssetCatalog.DeploymentTarget
