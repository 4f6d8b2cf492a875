import AssetCatalog.Path
import AssetCatalog.Proofs.Text.Pieces
/-! # Places and their texts

The text of a place names that place again from everywhere (`resolve_text`), because its names
are the segments of the text.  A name that holds no slash leads from a directory to its own
child (`names_resolve_of_ordinary`), and places whose names have unlike endings are different. -/

set_option autoImplicit false

namespace AssetCatalog

namespace Path

theorem segments_of_noSlash {name : String} (free : '/' ∉ name.toList) :
    segments name = [name] := by
  rw [segments, Text.splitAt, Text.split_of_not_mem free, List.map_singleton,
    String.ofList_toList]

theorem isAbsolute_of_noSlash {path : String} (free : '/' ∉ path.toList) :
    isAbsolute path = false := by
  cases chars : path.toList with
  | nil => simp [isAbsolute, chars]
  | cons first rest =>
      have notSlash : first ≠ '/' := by
        rintro rfl
        exact free (by simp [chars])
      simp [isAbsolute, chars, notSlash]

theorem segments_append_slash (before after : String) :
    segments (before ++ "/" ++ after) = segments before ++ segments after := by
  have chars : (before ++ "/" ++ after).toList = before.toList ++ '/' :: after.toList := by
    rw [String.toList_append, String.toList_append, List.append_assoc]
    rfl
  rw [segments, Text.splitAt, chars, Text.split_append_separator, List.map_append]
  rfl

theorem segments_slash_append (path : String) : segments ("/" ++ path) = "" :: segments path :=
  segments_append_slash "" path

theorem segments_append (path : String) {name : String} (free : '/' ∉ name.toList) : ∃ front last,
    segments path = front ++ [last] ∧ segments (path ++ name) = front ++ [last ++ name] := by
  have some := Text.split_ne_nil '/' path.toList
  refine ⟨(Text.split '/' path.toList).dropLast.map String.ofList,
    String.ofList ((Text.split '/' path.toList).getLast some), ?_, ?_⟩
  · rw [segments, Text.splitAt, ← List.map_singleton, ← List.map_append,
      List.dropLast_concat_getLast some]
  · rw [segments, Text.splitAt, String.toList_append, Text.split_append _ free,
      List.getLast?_eq_some_getLast some]
    simp

theorem segments_intercalate {names : List String} (some : names ≠ [])
    (free : ∀ name ∈ names, '/' ∉ name.toList) : segments ("/".intercalate names) = names := by
  have charsFree : ∀ piece ∈ names.map String.toList, '/' ∉ piece := by
    intro piece member
    obtain ⟨name, inNames, rfl⟩ := List.mem_map.mp member
    exact free name inNames
  have charsSome : names.map String.toList ≠ [] := by
    simpa using some
  have slash : "/".toList = ['/'] := rfl
  rw [segments, Text.splitAt, String.toList_intercalate, slash,
    Text.split_intercalate charsSome charsFree, List.map_map]
  have same : String.ofList ∘ String.toList = id := by
    funext name
    exact String.ofList_toList
  rw [same, List.map_id]

end Path

namespace Place

theorem enter_of_ordinary {place : Place} {name : String} (ordinary : Ordinary name) :
    (place.enter name).names = place.names ++ [name] := by
  have notDots : name ≠ ".." := ordinary.2.2.1
  simp only [enter, if_neg notDots, dif_pos ordinary]

theorem enter_skipped {place : Place} {segment : String} (skipped : segment = "" ∨ segment = ".") :
    place.enter segment = place := by
  have notDots : segment ≠ ".." := by
    rintro rfl
    rcases skipped with skipped | skipped <;> exact absurd skipped (by decide)
  have notOrdinary : ¬ Ordinary segment := by
    rintro ⟨notEmpty, notDot, _⟩
    rcases skipped with skipped | skipped
    · exact notEmpty skipped
    · exact notDot skipped
  rw [enter, if_neg notDots, dif_neg notOrdinary]

theorem enter_dots (place : Place) : place.enter ".." = place.parent := by
  rw [enter, if_pos rfl]

theorem names_foldl_enter (names : List String) (place : Place)
    (ordinary : ∀ name ∈ names, Ordinary name) :
    (names.foldl enter place).names = place.names ++ names := by
  induction names generalizing place with
  | nil => simp
  | cons name rest ih =>
      have first : Ordinary name := ordinary name List.mem_cons_self
      have others : ∀ other ∈ rest, Ordinary other :=
        fun other member => ordinary other (List.mem_cons_of_mem _ member)
      rw [List.foldl_cons, ih (place.enter name) others, enter_of_ordinary first,
        List.append_assoc, List.singleton_append]

theorem names_ne_nil {place : Place} (notRoot : place ≠ root) : place.names ≠ [] := by
  intro empty
  exact notRoot (ext_names empty)

theorem names_eq_concat {place : Place} (notRoot : place ≠ root) :
    place.names = place.parent.names ++ [place.name] := by
  have some := names_ne_nil notRoot
  rw [names_parent, name, List.getLast?_eq_some_getLast some]
  exact (List.dropLast_concat_getLast some).symm

theorem ordinary_name {place : Place} (notRoot : place ≠ root) : Ordinary place.name := by
  apply place.ordinary
  rw [names_eq_concat notRoot]
  exact List.mem_append_right _ (List.mem_singleton.mpr rfl)

theorem enter_name {place : Place} (notRoot : place ≠ root) :
    place.parent.enter place.name = place := by
  apply ext_names
  rw [enter_of_ordinary (ordinary_name notRoot)]
  exact (names_eq_concat notRoot).symm

theorem foldl_enter_root (place : Place) : place.names.foldl enter root = place := by
  apply ext_names
  rw [names_foldl_enter place.names root place.ordinary]
  rfl

theorem text_eq (place : Place) : place.text = "/" ++ "/".intercalate place.names := by
  cases names : place.names with
  | nil =>
      simp only [text, names]
      rfl
  | cons name rest => simp only [text, names]

theorem segments_text {place : Place} (notRoot : place ≠ root) :
    Path.segments place.text = "" :: place.names := by
  have noSlash : ∀ name ∈ place.names, '/' ∉ name.toList :=
    fun name member => (place.ordinary name member).2.2.2
  rw [text_eq, Path.segments_slash_append,
    Path.segments_intercalate (names_ne_nil notRoot) noSlash]

theorem segments_text_concat {place : Place} (notRoot : place ≠ root) :
    Path.segments place.text = ("" :: place.parent.names) ++ [place.name] := by
  rw [segments_text notRoot, List.cons_append, ← names_eq_concat notRoot]

theorem isAbsolute_text (place : Place) : Path.isAbsolute place.text = true := by
  simp [text_eq, Path.isAbsolute, String.toList_append]

/-- The text of a place names the place, seen from anywhere. -/
theorem resolve_text (directory place : Place) : directory.resolve place.text = place := by
  by_cases atRoot : place = root
  · subst atRoot
    rfl
  · rw [resolve, if_pos (isAbsolute_text place), segments_text atRoot, List.foldl_cons,
      enter_skipped (Or.inl rfl), foldl_enter_root]

theorem text_inj {a b : Place} : a.text = b.text ↔ a = b := by
  constructor
  · intro same
    rw [← resolve_text root a, same, resolve_text]
  · rintro rfl
    rfl

theorem names_resolve_of_ordinary {directory : Place} {name : String} (ordinary : Ordinary name) :
    (directory.resolve name).names = directory.names ++ [name] := by
  have noSlash : '/' ∉ name.toList := ordinary.2.2.2
  rw [resolve, Path.isAbsolute_of_noSlash noSlash, Path.segments_of_noSlash noSlash]
  exact enter_of_ordinary ordinary

theorem names_foldl_enter_of_last {segments : List String} {name : String} {start : Place}
    (last : (segments.filter (· ≠ "")).getLast? = some name) (ordinary : Ordinary name) :
    ∃ before, (segments.foldl enter start).names = before ++ [name] := by
  induction segments generalizing start with
  | nil => cases last
  | cons segment rest ih =>
      cases others : rest.filter (· ≠ "") with
      | nil =>
          have stays : rest.foldl enter (start.enter segment) = start.enter segment := by
            have empty : ∀ other ∈ rest, other = "" := by
              simpa [List.filter_eq_nil_iff] using others
            clear ih others last
            induction rest with
            | nil => rfl
            | cons first behind ih =>
                rw [List.foldl_cons, enter_skipped (Or.inl (empty first List.mem_cons_self))]
                exact ih fun other member => empty other (List.mem_cons_of_mem _ member)
          rw [List.filter_cons, others] at last
          split at last
          · rw [List.getLast?_singleton] at last
            have same : segment = name := Option.some.inj last
            subst same
            refine ⟨start.names, ?_⟩
            rw [List.foldl_cons, stays, enter_of_ordinary ordinary]
          · cases last
      | cons first behind =>
          have sameLast : (rest.filter (· ≠ "")).getLast? = some name := by
            rw [List.filter_cons] at last
            split at last
            · rw [others, List.getLast?_cons_cons] at last
              rw [others]
              exact last
            · exact last
          exact ih sameLast

theorem names_resolve_of_baseName {directory : Place} {path name : String}
    (base : Path.baseName path = name) (ordinary : Ordinary name) :
    ∃ before, (directory.resolve path).names = before ++ [name] := by
  have notEmpty : name ≠ "" := ordinary.1
  apply names_foldl_enter_of_last _ ordinary
  rw [Path.baseName] at base
  cases last : ((Path.segments path).filter (· ≠ "")).getLast? with
  | none =>
      rw [last] at base
      exact absurd base.symm notEmpty
  | some segment =>
      rw [last] at base
      exact congrArg some base

/-- Places are different when their names have endings of which neither is one of the other. -/
theorem ne_of_endings {a b : Place} {before before' : List String}
    {name name' ending ending' : String} (namesA : a.names = before ++ [name])
    (namesB : b.names = before' ++ [name']) (endsA : ending.toList <:+ name.toList)
    (endsB : ending'.toList <:+ name'.toList)
    (apart : ¬ ending.toList <:+ ending'.toList ∧ ¬ ending'.toList <:+ ending.toList) : a ≠ b := by
  rintro rfl
  obtain ⟨_, lasts⟩ := List.append_inj' (namesA.symm.trans namesB) rfl
  cases List.singleton_inj.mp lasts
  rcases List.suffix_or_suffix_of_suffix endsA endsB with within | within
  · exact apart.1 within
  · exact apart.2 within

theorem parent_of_names {directory place : Place} {name : String}
    (names : place.names = directory.names ++ [name]) : place.parent = directory := by
  apply ext_names
  simp [parent, names]

end Place

end AssetCatalog
