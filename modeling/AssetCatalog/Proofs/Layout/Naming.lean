import AssetCatalog.Failure
import AssetCatalog.Proofs.Layout.Belongings
import AssetCatalog.Proofs.Path.Normal
/-! # The grammar of catalog names

The name of a catalog is a base that is not empty and has one separator at most, with the suffix
behind it (`Grammatical`).  Exactly the paths that lead to such a name have a layout
(`naming_rule`); of the two things that can be wrong with a name, the suffix is judged first.
The base falls into a stem and a tag (`Parts`), and all that belongs to the catalog are children
of its directory that are named from the tag alone. -/

set_option autoImplicit false

namespace AssetCatalog

/-- A base name is a stem without separators and then its tag: nothing, or a separator and a text
without any. -/
structure Parts (baseName stem tag : String) : Prop where
  whole : baseName = stem ++ tag
  stem : tagSeparator ∉ stem.toList
  tag : tag = "" ∨ ∃ rest : String, tag = "_" ++ rest ∧ tagSeparator ∉ rest.toList

/-- The name of a catalog with this base. -/
structure Grammatical (name baseName : String) : Prop where
  whole : name = baseName ++ ".xcassets"
  notEmpty : baseName ≠ ""
  separators : baseName.toList.count tagSeparator ≤ 1

/-! ## Tags -/

theorem ofList_separator_cons (rest : String) :
    String.ofList (tagSeparator :: rest.toList) = "_" ++ rest := by
  rw [String.ofList_cons, String.ofList_toList]
  rfl

theorem nameTag_eq_ok_iff {baseName tag : String} :
    nameTag baseName = .ok tag ↔ ∃ stem, Parts baseName stem tag := by
  unfold nameTag
  constructor
  · intro tagged
    have joined := Text.joined_split tagSeparator baseName.toList
    have free : ∀ piece ∈ Text.split tagSeparator baseName.toList, tagSeparator ∉ piece :=
      fun piece => Text.not_mem_of_mem_split
    split at tagged
    · next piece pieces =>
      cases tagged
      rw [pieces] at joined free
      have whole : piece = baseName.toList := joined
      exact ⟨baseName, by simp, whole ▸ free piece (by simp), .inl rfl⟩
    · next stem rest pieces =>
      cases tagged
      rw [pieces] at joined free
      have whole : stem ++ tagSeparator :: rest = baseName.toList := joined
      refine ⟨String.ofList stem, ?_, ?_, .inr ⟨String.ofList rest, ?_, ?_⟩⟩
      · rw [← String.ofList_append, whole, String.ofList_toList]
      · simpa using free stem (by simp)
      · rw [← ofList_separator_cons, String.toList_ofList]
      · simpa using free rest (by simp)
    · cases tagged
  · rintro ⟨stem, whole, stemFree, rfl | ⟨rest, rfl, restFree⟩⟩
    · rw [whole, String.append_empty, Text.split_of_not_mem stemFree]
    · have chars : baseName.toList = stem.toList ++ tagSeparator :: rest.toList := by
        rw [whole, ← ofList_separator_cons, String.toList_append, String.toList_ofList]
      rw [chars, Text.split_append_cons stemFree, Text.split_of_not_mem restFree]
      exact congrArg Except.ok (ofList_separator_cons rest)

theorem nameTag_eq_error_iff {baseName : String} {fault : NameFault} :
    nameTag baseName = .error fault
      ↔ 1 < baseName.toList.count tagSeparator ∧ fault = .separators baseName := by
  have length := Text.length_split tagSeparator baseName.toList
  unfold nameTag
  split
  · next piece pieces =>
    have few : ¬ 1 < baseName.toList.count tagSeparator := by
      rw [pieces, List.length_singleton] at length
      omega
    simp [few]
  · next stem rest pieces =>
    have few : ¬ 1 < baseName.toList.count tagSeparator := by
      rw [pieces, List.length_cons, List.length_singleton] at length
      omega
    simp [few]
  · next notOne notTwo =>
    have many : 1 < baseName.toList.count tagSeparator := by
      match pieces : Text.split tagSeparator baseName.toList with
      | [] => exact absurd pieces (Text.split_ne_nil _ _)
      | [piece] => exact absurd pieces (notOne piece)
      | [stem, rest] => exact absurd pieces (notTwo stem rest)
      | _ :: _ :: _ :: _ =>
          rw [pieces, List.length_cons, List.length_cons, List.length_cons] at length
          omega
    simp [many, eq_comm]

/-! ## Suffixes -/

theorem baseOf?_eq_some_iff {suffix name baseName : String} :
    baseOf? suffix name = some baseName ↔ baseName ≠ "" ∧ name = baseName ++ suffix := by
  constructor
  · intro base
    obtain ⟨notEmpty, whole⟩ := toList_of_baseOf? base
    refine ⟨by simpa using notEmpty, String.toList_inj.mp ?_⟩
    rw [String.toList_append, whole]
  · rintro ⟨notEmpty, rfl⟩
    have taken : (baseName ++ suffix).toList.take ((baseName ++ suffix).length - suffix.length)
        = baseName.toList := by
      rw [String.length_append, Nat.add_sub_cancel, String.toList_append,
        List.take_left' String.length_toList]
    simp only [baseOf?, taken]
    simp [notEmpty]

namespace Layout

/-- The place is the child of the directory with this name, and its text is the name joined to
the text of the directory. -/
structure Child (directory : Place) (name : String) (place : Place) : Prop where
  names : place.names = directory.names ++ [name]
  text : place.text = Path.join directory.text name

theorem child_of_names {directory place : Place} {name : String} (ordinary : Ordinary name)
    (names : place.names = directory.names ++ [name]) : Child directory name place := by
  have resolved : directory.resolve name = place :=
    Place.ext_names ((Place.names_resolve_of_ordinary ordinary).trans names.symm)
  exact ⟨names, by rw [Place.join_text_of_ordinary directory ordinary, resolved]⟩

def fileName (directory : Place) (path : String) : String :=
  Path.baseName (directory.resolve path).text

/-- What the layout of a path has: the place that the path leads to, its directory, the parts of
its name, and beside it three children that are named from the tag. -/
structure Describes (directory : Place) (path : String) (layout : Layout) : Prop where
  catalog : layout.catalog = directory.resolve path
  sourceDirectory : layout.sourceDirectory = (directory.resolve path).parent
  name : fileName directory path = layout.baseName ++ ".xcassets"
  parts : ∃ stem, Parts layout.baseName stem layout.tag
  catalogChild : Child layout.sourceDirectory (fileName directory path) layout.catalog
  iconPackage :
    Child layout.sourceDirectory ("AppIcon" ++ layout.tag ++ ".icon") layout.iconPackage
  iconBundle : Child layout.sourceDirectory ("app" ++ layout.tag ++ ".icns") layout.iconBundle
  assetArchive : Child layout.sourceDirectory ("Assets" ++ layout.tag ++ ".car") layout.assetArchive

variable {directory : Place} {path : String}

theorem fileName_eq : fileName directory path = (directory.resolve path).name :=
  Place.baseName_text _

theorem base_eq_some_iff {baseName : String} :
    baseOf? catalogSuffix (directory.resolve path).name = some baseName
      ↔ baseName ≠ "" ∧ fileName directory path = baseName ++ ".xcassets" := by
  rw [baseOf?_eq_some_iff, fileName_eq]
  rfl

theorem base_eq_none_iff : baseOf? catalogSuffix (directory.resolve path).name = none ↔
    ∀ baseName : String, fileName directory path = baseName ++ ".xcassets" → baseName = "" := by
  rw [Option.eq_none_iff_forall_ne_some]
  exact forall_congr' fun baseName => by
    rw [ne_eq, base_eq_some_iff, not_and', not_not]

theorem ofPath_eq_error_iff {fault : NameFault} : ofPath directory path = .error fault ↔
    (fault = .suffix path ∧ baseOf? catalogSuffix (directory.resolve path).name = none) ∨
      ∃ baseName, baseOf? catalogSuffix (directory.resolve path).name = some baseName ∧
        nameTag baseName = .error fault := by
  rw [ofPath_eq]
  cases base : baseOf? catalogSuffix (directory.resolve path).name with
  | none => simp [eq_comm]
  | some baseName => cases tagged : nameTag baseName <;> simp [tagged, Except.map]

theorem ofPath_isOk_iff : (∃ layout, ofPath directory path = .ok layout) ↔
    ∃ baseName, Grammatical (fileName directory path) baseName := by
  constructor
  · rintro ⟨layout, named⟩
    obtain ⟨baseName, tag, base, tagged, _⟩ := ofPath_eq_ok_iff.mp named
    obtain ⟨notEmpty, whole⟩ := base_eq_some_iff.mp base
    refine ⟨baseName, whole, notEmpty, Nat.le_of_not_lt fun many => ?_⟩
    cases tagged.symm.trans (nameTag_eq_error_iff.mpr ⟨many, rfl⟩)
  · rintro ⟨baseName, whole, notEmpty, few⟩
    have base := base_eq_some_iff.mpr ⟨notEmpty, whole⟩
    cases tagged : nameTag baseName with
    | ok tag => exact ⟨_, ofPath_eq_ok_iff.mpr ⟨baseName, tag, base, tagged, rfl⟩⟩
    | error fault => exact absurd (nameTag_eq_error_iff.mp tagged).1 (Nat.not_lt.mpr few)

theorem describes_of_ofPath {layout : Layout} (named : ofPath directory path = .ok layout) :
    Describes directory path layout := by
  have tagFree := tag_noSlash named
  obtain ⟨baseName, tag, base, tagged, rfl⟩ := ofPath_eq_ok_iff.mp named
  have notRoot : directory.resolve path ≠ .root := by
    intro atRoot
    rw [atRoot] at base
    cases base
  refine ⟨rfl, rfl, (base_eq_some_iff.mp base).2, nameTag_eq_ok_iff.mp tagged, ?_, ?_, ?_, ?_⟩
  · rw [fileName_eq]
    exact child_of_names (Place.ordinary_name notRoot) (Place.names_eq_concat notRoot)
  · exact child_of_names (ordinary_belonging tagFree .iconPackage) (names_iconPackage tagFree)
  · exact child_of_names (ordinary_belonging tagFree .iconBundle) (names_iconBundle tagFree)
  · exact child_of_names (ordinary_belonging tagFree .assetArchive) (names_assetArchive tagFree)

/-- Exactly the paths that lead to a grammatical name have a layout; the suffix of a name is
judged first, and then its separators. -/
theorem naming_rule (directory : Place) (path : String) :
    ((∃ layout, ofPath directory path = .ok layout) ↔
      ∃ baseName, Grammatical (fileName directory path) baseName) ∧
    (∀ layout, ofPath directory path = .ok layout → Describes directory path layout) ∧
    (∀ fault, ofPath directory path = .error fault ↔
      (fault = .suffix path ∧
        ∀ baseName : String, fileName directory path = baseName ++ ".xcassets" → baseName = "") ∨
      ∃ baseName, fault = .separators baseName ∧ baseName ≠ "" ∧
        fileName directory path = baseName ++ ".xcassets" ∧
        1 < baseName.toList.count tagSeparator) ∧
    ∀ fault, ofPath directory path = .error fault → ∃ failure,
      (Cause.badName fault).failure? = some failure ∧ failure.family = .format ∧
        failure.category = .format := by
  refine ⟨ofPath_isOk_iff, fun layout => describes_of_ofPath, fun fault => ?_,
    fun fault _ => ⟨_, rfl, rfl, rfl⟩⟩
  rw [ofPath_eq_error_iff, base_eq_none_iff]
  refine or_congr Iff.rfl (exists_congr fun baseName => ?_)
  rw [base_eq_some_iff, nameTag_eq_error_iff]
  constructor
  · rintro ⟨⟨notEmpty, whole⟩, many, same⟩
    exact ⟨same, notEmpty, whole, many⟩
  · rintro ⟨same, notEmpty, whole, many⟩
    exact ⟨⟨notEmpty, whole⟩, many, same⟩

example : ofPath .root ".xcassets" = .error (.suffix ".xcassets") := by rfl
example : (ofPath .root "w/../..xcassets").isOk = true := by rfl

end Layout

end AssetCatalog
