import AssetCatalog.Proofs.Path.Places
/-! # Following a path part by part

A path is followed segment by segment, so what stands behind a slash is followed from where the
part before it leads (`Place.resolve_append_slash`).  A slash at the end makes no difference, as
long as there is something before it.

The normal form of a path that starts at the root is the text of the place that it names
(`Place.normalize_of_isAbsolute`); a relative path joined to the text of a directory is therefore
the text of the place that it names from there. -/

set_option autoImplicit false

namespace AssetCatalog

namespace Path

theorem segments_empty : segments "" = [""] := rfl

theorem segments_append_slash_end (path : String) :
    segments (path ++ "/") = segments path ++ [""] := by
  rw [← String.append_empty (s := path ++ "/"), segments_append_slash, segments_empty]

theorem slash_not_mem_of_mem_segments {path segment : String} (member : segment ∈ segments path) :
    '/' ∉ segment.toList := by
  obtain ⟨piece, inPieces, rfl⟩ := List.mem_map.mp member
  rw [String.toList_ofList]
  exact Text.not_mem_of_mem_split inPieces

theorem isAbsolute_append {path : String} (notEmpty : path ≠ "") (rest : String) :
    isAbsolute (path ++ rest) = isAbsolute path := by
  have chars : path.toList ≠ [] := by simpa using notEmpty
  simp only [isAbsolute, String.toList_append, List.head?_append_of_ne_nil _ chars]

theorem append_slash_ne_empty (path rest : String) : path ++ "/" ++ rest ≠ "" := by
  intro empty
  have chars := congrArg String.toList empty
  simp at chars

end Path

namespace Place

variable (directory : Place)

theorem text_ne_empty (place : Place) : place.text ≠ "" := by
  intro empty
  have absolute := isAbsolute_text place
  rw [empty] at absolute
  cases absolute

/-- What stands behind a slash is followed from where the part before it leads. -/
theorem resolve_append_slash (before after : String) :
    directory.resolve (before ++ "/" ++ after)
      = (Path.segments after).foldl enter (directory.resolve (before ++ "/")) := by
  have notEmpty : before ++ "/" ≠ "" := by simp
  rw [resolve, Path.isAbsolute_append notEmpty, Path.segments_append_slash, List.foldl_append,
    resolve, Path.segments_append_slash_end, List.foldl_append, List.foldl_cons,
    enter_skipped (Or.inl rfl), List.foldl_nil]

theorem resolve_append_slash_end {path : String} (notEmpty : path ≠ "") :
    directory.resolve (path ++ "/") = directory.resolve path := by
  rw [resolve, Path.isAbsolute_append notEmpty, Path.segments_append_slash_end, List.foldl_append,
    List.foldl_cons, enter_skipped (Or.inl rfl), List.foldl_nil]
  rfl

theorem resolve_of_relative {path : String} (relative : Path.isAbsolute path = false) :
    directory.resolve path = (Path.segments path).foldl enter directory := by
  rw [resolve, relative]
  rfl

/-- A path behind the text of a directory leads where it leads from the directory. -/
theorem resolve_text_append (elsewhere : Place) {path : String}
    (relative : Path.isAbsolute path = false) :
    elsewhere.resolve (directory.text ++ "/" ++ path) = directory.resolve path := by
  rw [resolve_append_slash, resolve_append_slash_end _ (text_ne_empty directory), resolve_text,
    resolve_of_relative _ relative]

/-! ## Normal forms -/

theorem pushSegment_names (place : Place) {segment : String} (free : '/' ∉ segment.toList) :
    Path.pushSegment true place.names.reverse segment = (place.enter segment).names.reverse := by
  unfold Path.pushSegment
  by_cases skipped : segment = "" ∨ segment = "."
  · rw [if_pos skipped, enter_skipped skipped]
  · rw [if_neg skipped]
    by_cases dots : segment = ".."
    · subst dots
      rw [if_pos rfl, enter_dots, names_parent]
      cases reversed : place.names.reverse with
      | nil =>
          rw [List.reverse_eq_nil_iff.mp reversed]
          rfl
      | cons last rest =>
          have names : place.names = rest.reverse ++ [last] := by
            rw [← List.reverse_reverse place.names, reversed, List.reverse_cons]
          have ordinary : Ordinary last := place.ordinary last (by simp [names])
          simp [names, ordinary.2.2.1]
    · have ordinary : Ordinary segment :=
        ⟨fun empty => skipped (.inl empty), fun dot => skipped (.inr dot), dots, free⟩
      rw [if_neg dots, enter_of_ordinary ordinary, List.reverse_append]
      rfl

theorem foldl_pushSegment_names (place : Place) {segments : List String}
    (free : ∀ segment ∈ segments, '/' ∉ segment.toList) :
    segments.foldl (Path.pushSegment true) place.names.reverse
      = (segments.foldl enter place).names.reverse := by
  induction segments generalizing place with
  | nil => rfl
  | cons segment rest ih =>
      obtain ⟨first, others⟩ := List.forall_mem_cons.mp free
      rw [List.foldl_cons, pushSegment_names place first, ih (place.enter segment) others,
        List.foldl_cons]

/-- The normal form of a path that starts at the root is the text of the place that it names,
with the slash at its end unless it is the root. -/
theorem normalize_of_isAbsolute {path : String} (absolute : Path.isAbsolute path = true) :
    Path.normalize path = (directory.resolve path).text
      ++ if path.toList.getLast? = some '/' ∧ directory.resolve path ≠ root then "/" else "" := by
  have kept : (Path.segments path).foldl (Path.pushSegment true) []
      = (directory.resolve path).names.reverse := by
    rw [resolve, if_pos absolute]
    exact foldl_pushSegment_names root fun segment => Path.slash_not_mem_of_mem_segments
  have someKept : (directory.resolve path).names ≠ [] ↔ directory.resolve path ≠ root :=
    not_congr ⟨fun empty => ext_names empty, fun same => same ▸ rfl⟩
  simp only [Path.normalize, absolute, kept, List.reverse_reverse, if_true, someKept, text_eq]

theorem join_text {path : String} (notEmpty : path ≠ "") (relative : Path.isAbsolute path = false) :
    Path.join directory.text path = (directory.resolve path).text
      ++ if path.toList.getLast? = some '/' ∧ directory.resolve path ≠ root then "/" else "" := by
  have behind : Path.join directory.text path = Path.normalize (directory.text ++ "/" ++ path) := by
    simp [Path.join, text_ne_empty, notEmpty, String.intercalate_cons_of_ne_nil]
  have absolute : Path.isAbsolute (directory.text ++ "/" ++ path) = true := by
    rw [String.append_assoc, Path.isAbsolute_append (text_ne_empty directory), isAbsolute_text]
  have last : (directory.text ++ "/" ++ path).toList.getLast? = path.toList.getLast? := by
    rw [String.toList_append, List.getLast?_append_of_ne_nil _ (by simpa using notEmpty)]
  rw [behind, normalize_of_isAbsolute directory absolute, resolve_text_append _ _ relative, last]

theorem join_text_of_ordinary {name : String} (ordinary : Ordinary name) :
    Path.join directory.text name = (directory.resolve name).text := by
  obtain ⟨notEmpty, _, _, free⟩ := ordinary
  have notLast : name.toList.getLast? ≠ some '/' := fun last =>
    free (List.mem_of_getLast? last)
  rw [join_text directory notEmpty (Path.isAbsolute_of_noSlash free),
    if_neg fun ends => notLast ends.1, String.append_empty]

/-! ## The last name -/

theorem baseName_text (place : Place) : Path.baseName place.text = place.name := by
  by_cases atRoot : place = root
  · subst atRoot
    rfl
  · have kept : place.names.filter (· ≠ "") = place.names :=
      List.filter_eq_self.mpr fun name member => by
        simpa using (place.ordinary name member).1
    rw [Path.baseName, segments_text atRoot, List.filter_cons_of_neg (by simp), kept]
    rfl

end Place

end AssetCatalog
