import AssetCatalog.Proofs.FileTree.Contents
import AssetCatalog.Proofs.Path.Normal
/-! # The way from one place to another

The way between two places goes back to what their names have in common and on from there.
Followed from the first place it leads to the second one, wherever the two lie
(`Place.resolve_pathTo`).  It begins with two dots if the second place does not lie within the
first; otherwise it consists of the names that the second place has beyond those of the first. -/

set_option autoImplicit false

namespace AssetCatalog

namespace Place

variable {directory start goal : Place}

/-! ## What two lists of names share -/

theorem withoutShared_append (shared as bs : List String) :
    withoutShared (shared ++ as) (shared ++ bs) = withoutShared as bs := by
  induction shared with
  | nil => rfl
  | cons name rest ih => simp [withoutShared, ih]

theorem exists_shared (as bs : List String) :
    ∃ shared, as = shared ++ (withoutShared as bs).1 ∧ bs = shared ++ (withoutShared as bs).2 := by
  induction as generalizing bs with
  | nil => exact ⟨[], by simp [withoutShared]⟩
  | cons a as ih =>
      cases bs with
      | nil => exact ⟨[], by simp [withoutShared]⟩
      | cons b bs =>
          by_cases same : a = b
          · obtain ⟨shared, inFirst, inSecond⟩ := ih bs
            refine ⟨a :: shared, ?_, ?_⟩
            · simpa [withoutShared, same] using inFirst
            · simpa [withoutShared, same] using inSecond
          · exact ⟨[], by simp [withoutShared, same]⟩

/-! ## Following names that are joined by slashes -/

theorem isPrefix_intercalate (first : String) (rest : List String) :
    first.toList <+: ("/".intercalate (first :: rest)).toList := by
  cases rest with
  | nil => simp
  | cons next others =>
      rw [String.intercalate_cons_of_ne_nil (List.cons_ne_nil next others), String.append_assoc,
        String.toList_append]
      exact List.prefix_append _ _

theorem isAbsolute_intercalate {steps : List String}
    (proper : ∀ step ∈ steps, step ≠ "" ∧ '/' ∉ step.toList) :
    Path.isAbsolute ("/".intercalate steps) = false := by
  cases steps with
  | nil => rfl
  | cons first rest =>
      obtain ⟨notEmpty, free⟩ := proper first List.mem_cons_self
      obtain ⟨behind, chars⟩ := isPrefix_intercalate first rest
      have some : first.toList ≠ [] := by simpa using notEmpty
      have same : Path.isAbsolute ("/".intercalate (first :: rest)) = Path.isAbsolute first := by
        rw [Path.isAbsolute, ← chars, List.head?_append_of_ne_nil _ some]
        rfl
      rw [same, Path.isAbsolute_of_noSlash free]

theorem resolve_intercalate {steps : List String}
    (proper : ∀ step ∈ steps, step ≠ "" ∧ '/' ∉ step.toList) :
    directory.resolve ("/".intercalate steps) = steps.foldl enter directory := by
  rw [resolve_of_relative directory (isAbsolute_intercalate proper)]
  cases steps with
  | nil => exact enter_skipped (Or.inl rfl)
  | cons first rest =>
      rw [Path.segments_intercalate (List.cons_ne_nil first rest)
        fun step member => (proper step member).2]

theorem names_foldl_dots (n : Nat) (place : Place) :
    ((List.replicate n "..").foldl enter place).names
      = place.names.take (place.names.length - n) := by
  induction n generalizing place with
  | zero => simp
  | succ n ih =>
      rw [List.replicate_succ, List.foldl_cons, enter_dots, ih, names_parent,
        List.dropLast_eq_take, List.take_take, List.length_take]
      congr 1
      omega

/-! ## The way -/

theorem pathTo_eq (start goal : Place) : start.pathTo goal
    = "/".intercalate (List.replicate (withoutShared start.names goal.names).1.length ".."
      ++ (withoutShared start.names goal.names).2) := by
  rw [← List.map_const']
  rfl

/-- The way from a place leads from there to its goal. -/
theorem resolve_pathTo (start goal : Place) : start.resolve (start.pathTo goal) = goal := by
  obtain ⟨shared, inStart, inGoal⟩ := exists_shared start.names goal.names
  have ordinary : ∀ name ∈ (withoutShared start.names goal.names).2, Ordinary name := by
    intro name member
    apply goal.ordinary
    rw [inGoal]
    exact List.mem_append_right shared member
  rw [pathTo_eq, resolve_intercalate]
  · apply ext_names
    rw [List.foldl_append, names_foldl_enter _ _ ordinary, names_foldl_dots]
    have back : start.names.length - (withoutShared start.names goal.names).1.length
        = shared.length := by
      have total := congrArg List.length inStart
      rw [List.length_append] at total
      omega
    have kept : start.names.take shared.length = shared := by
      rw [inStart, List.take_left]
    rw [back, kept]
    exact inGoal.symm
  · intro step member
    rcases List.mem_append.mp member with dots | member
    · rw [List.eq_of_mem_replicate dots]
      decide
    · obtain ⟨notEmpty, _, _, free⟩ := ordinary step member
      exact ⟨notEmpty, free⟩

theorem pathTo_of_names {rest : List String} (names : goal.names = start.names ++ rest) :
    start.pathTo goal = "/".intercalate rest := by
  have away : withoutShared start.names goal.names = ([], rest) := by
    have split := withoutShared_append start.names [] rest
    rw [List.append_nil] at split
    rw [names, split]
    rfl
  rw [pathTo_eq, away]
  rfl

theorem dots_isPrefix_pathTo (outside : start.isWithin goal = false) :
    "..".toList <+: (start.pathTo goal).toList := by
  obtain ⟨shared, inStart, inGoal⟩ := exists_shared start.names goal.names
  rw [pathTo_eq]
  cases back : (withoutShared start.names goal.names).1 with
  | nil =>
      rw [back, List.append_nil] at inStart
      have within : start.isWithin goal = true :=
        isWithin_iff.mpr ⟨_, by rw [inStart]; exact inGoal⟩
      rw [within] at outside
      cases outside
  | cons name others => exact isPrefix_intercalate ".." _

end Place

end AssetCatalog
