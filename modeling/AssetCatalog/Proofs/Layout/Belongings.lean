import AssetCatalog.Layout
import AssetCatalog.Proofs.Path.Places
/-! # What belongs to a layout

The three places that belong to a layout are children of one directory, and the name of each is
the tag between two fixed texts, of which the second are unlike.  So two of these places, of
whatever layouts, are the same only if they have the same role for one directory and one tag
(`belonging_eq_iff`). -/

set_option autoImplicit false

namespace AssetCatalog

theorem not_mem_nameTag {baseName tag : String} {c : Char} (named : nameTag baseName = .ok tag)
    (free : c ∉ baseName.toList) (other : c ≠ tagSeparator) : c ∉ tag.toList := by
  unfold nameTag at named
  split at named
  · cases named
    simp
  · next piece pieces =>
    cases named
    rw [String.toList_ofList]
    intro member
    rcases List.mem_cons.mp member with same | member
    · exact other same
    · have inBase : c ∈ baseName.toList :=
        Text.mem_of_mem_split (by rw [pieces]; simp) member
      exact free inBase
  · cases named

theorem toList_of_baseOf? {suffix name baseName : String}
    (base : baseOf? suffix name = some baseName) :
    baseName.toList ≠ [] ∧ baseName.toList ++ suffix.toList = name.toList := by
  unfold baseOf? at base
  dsimp only at base
  split at base
  · next parts =>
    cases base
    rw [String.toList_ofList]
    exact parts
  · cases base

namespace Layout

def ofNames (catalog : Place) (baseName tag : String) : Layout :=
  { catalog, sourceDirectory := catalog.parent, baseName, tag }

theorem ofPath_eq (directory : Place) (path : String) :
    ofPath directory path = match baseOf? catalogSuffix (directory.resolve path).name with
      | none => .error (.suffix path)
      | some baseName => (nameTag baseName).map (ofNames (directory.resolve path) baseName) := by
  unfold ofPath
  dsimp only
  cases baseOf? catalogSuffix (directory.resolve path).name with
  | none => rfl
  | some baseName =>
      dsimp only
      cases nameTag baseName with
      | error fault => rfl
      | ok tag => rfl

theorem ofPath_eq_ok_iff {directory : Place} {path : String} {layout : Layout} :
    ofPath directory path = .ok layout ↔ ∃ baseName tag,
      baseOf? catalogSuffix (directory.resolve path).name = some baseName ∧
        nameTag baseName = .ok tag ∧ layout = ofNames (directory.resolve path) baseName tag := by
  rw [ofPath_eq]
  constructor
  · intro made
    cases base : baseOf? catalogSuffix (directory.resolve path).name with
    | none =>
        rw [base] at made
        cases made
    | some baseName =>
        rw [base] at made
        cases tagged : nameTag baseName with
        | error fault =>
            simp only [tagged, Except.map] at made
            cases made
        | ok tag =>
            simp only [tagged, Except.map, Except.ok.injEq] at made
            exact ⟨baseName, tag, rfl, tagged, made.symm⟩
  · rintro ⟨baseName, tag, base, tagged, rfl⟩
    simp only [base, tagged, Except.map]

theorem tag_noSlash {directory : Place} {path : String} {layout : Layout}
    (named : ofPath directory path = .ok layout) : '/' ∉ layout.tag.toList := by
  obtain ⟨baseName, tag, base, tagged, rfl⟩ := ofPath_eq_ok_iff.mp named
  obtain ⟨notEmpty, parts⟩ := toList_of_baseOf? base
  have noSlash : '/' ∉ (directory.resolve path).name.toList := by
    unfold Place.name
    cases last : (directory.resolve path).names.getLast? with
    | none => simp
    | some name =>
        exact ((directory.resolve path).ordinary name (List.mem_of_getLast? last)).2.2.2
  have baseFree : '/' ∉ baseName.toList := by
    intro member
    apply noSlash
    rw [← parts]
    exact List.mem_append_left _ member
  exact not_mem_nameTag tagged baseFree (by decide)

/-! ## Children that are named from the tag -/

def child (layout : Layout) (before after : String) : Place :=
  layout.sourceDirectory.resolve (before ++ layout.tag ++ after)

theorem ordinary_of_length {name : String} (noSlash : '/' ∉ name.toList)
    (long : 2 < name.toList.length) : Ordinary name := by
  refine ⟨?_, ?_, ?_, noSlash⟩
  · rintro rfl
    simp at long
  · rintro rfl
    exact absurd long (by decide)
  · rintro rfl
    exact absurd long (by decide)

theorem ordinary_child {tag before after : String} (tagFree : '/' ∉ tag.toList)
    (beforeFree : '/' ∉ before.toList) (afterFree : '/' ∉ after.toList)
    (long : 2 < after.toList.length) : Ordinary (before ++ tag ++ after) := by
  apply ordinary_of_length
  · simp only [String.toList_append, List.mem_append, not_or]
    exact ⟨⟨beforeFree, tagFree⟩, afterFree⟩
  · simp only [String.toList_append, List.length_append]
    omega

theorem names_child {layout : Layout} {before after : String}
    (ordinary : Ordinary (before ++ layout.tag ++ after)) :
    (layout.child before after).names
      = layout.sourceDirectory.names ++ [before ++ layout.tag ++ after] :=
  Place.names_resolve_of_ordinary ordinary

theorem child_eq_child_iff {a b : Layout} {before after : String}
    (ordinaryA : Ordinary (before ++ a.tag ++ after))
    (ordinaryB : Ordinary (before ++ b.tag ++ after)) :
    a.child before after = b.child before after
      ↔ a.sourceDirectory = b.sourceDirectory ∧ a.tag = b.tag := by
  constructor
  · intro same
    have names := congrArg Place.names same
    rw [names_child ordinaryA, names_child ordinaryB] at names
    obtain ⟨directories, lasts⟩ := List.append_inj' names rfl
    have chars := congrArg String.toList (List.singleton_inj.mp lasts)
    simp only [String.toList_append, List.append_assoc, List.append_cancel_left_eq,
      List.append_cancel_right_eq] at chars
    exact ⟨Place.ext_names directories, String.toList_inj.mp chars⟩
  · rintro ⟨directories, tags⟩
    rw [child, child, directories, tags]

theorem suffix_childName (before tag after : String) :
    after.toList <:+ (before ++ tag ++ after).toList := by
  rw [String.toList_append]
  exact List.suffix_append _ _

/-- What a catalog needs and makes beside it. -/
inductive Belonging where
  | iconPackage
  | iconBundle
  | assetArchive
  deriving DecidableEq

namespace Belonging

def beginning : Belonging → String
  | iconPackage => "AppIcon"
  | iconBundle => "app"
  | assetArchive => "Assets"

def ending : Belonging → String
  | iconPackage => ".icon"
  | iconBundle => ".icns"
  | assetArchive => ".car"

theorem eq_of_ending_suffix {what other : Belonging}
    (ends : what.ending.toList <:+ other.ending.toList) : what = other := by
  revert ends
  cases what <;> cases other <;> decide

end Belonging

def belonging (layout : Layout) : Belonging → Place
  | .iconPackage => layout.iconPackage
  | .iconBundle => layout.iconBundle
  | .assetArchive => layout.assetArchive

theorem belonging_eq_child (layout : Layout) (what : Belonging) :
    layout.belonging what = layout.child what.beginning what.ending := by
  cases what <;> rfl

section

variable {layout : Layout} (tagFree : '/' ∉ layout.tag.toList)
include tagFree

theorem ordinary_belonging (what : Belonging) :
    Ordinary (what.beginning ++ layout.tag ++ what.ending) := by
  apply ordinary_child tagFree
  · cases what <;> decide
  · cases what <;> decide
  · cases what <;> decide

theorem names_belonging (what : Belonging) : (layout.belonging what).names
    = layout.sourceDirectory.names ++ [what.beginning ++ layout.tag ++ what.ending] := by
  rw [belonging_eq_child]
  exact names_child (ordinary_belonging tagFree what)

theorem names_iconPackage : layout.iconPackage.names
    = layout.sourceDirectory.names ++ ["AppIcon" ++ layout.tag ++ ".icon"] :=
  names_belonging tagFree .iconPackage

theorem names_iconBundle : layout.iconBundle.names
    = layout.sourceDirectory.names ++ ["app" ++ layout.tag ++ ".icns"] :=
  names_belonging tagFree .iconBundle

theorem names_assetArchive : layout.assetArchive.names
    = layout.sourceDirectory.names ++ ["Assets" ++ layout.tag ++ ".car"] :=
  names_belonging tagFree .assetArchive

theorem parent_belonging (what : Belonging) :
    (layout.belonging what).parent = layout.sourceDirectory :=
  Place.parent_of_names (names_belonging tagFree what)

end

section

variable {a b : Layout} (freeA : '/' ∉ a.tag.toList) (freeB : '/' ∉ b.tag.toList)
include freeA freeB

theorem belonging_eq_iff (what other : Belonging) : a.belonging what = b.belonging other
    ↔ what = other ∧ a.sourceDirectory = b.sourceDirectory ∧ a.tag = b.tag := by
  constructor
  · intro same
    have role : what = other := by
      by_contra differ
      refine Place.ne_of_endings (names_belonging freeA what) (names_belonging freeB other)
        (suffix_childName _ _ _) (suffix_childName _ _ _) ⟨?_, ?_⟩ same
      · exact fun ends => differ (Belonging.eq_of_ending_suffix ends)
      · exact fun ends => differ (Belonging.eq_of_ending_suffix ends).symm
    subst role
    rw [belonging_eq_child, belonging_eq_child, child_eq_child_iff (ordinary_belonging freeA what)
      (ordinary_belonging freeB what)] at same
    exact ⟨rfl, same⟩
  · rintro ⟨rfl, same⟩
    rw [belonging_eq_child, belonging_eq_child]
    exact (child_eq_child_iff (ordinary_belonging freeA what) (ordinary_belonging freeB what)).mpr
      same

theorem iconBundle_ne_assetArchive : a.iconBundle ≠ b.assetArchive := by
  intro same
  cases ((belonging_eq_iff freeA freeB .iconBundle .assetArchive).mp same).1

theorem iconBundle_eq_iff :
    a.iconBundle = b.iconBundle ↔ a.sourceDirectory = b.sourceDirectory ∧ a.tag = b.tag :=
  (belonging_eq_iff freeA freeB .iconBundle .iconBundle).trans (and_iff_right rfl)

theorem assetArchive_eq_iff :
    a.assetArchive = b.assetArchive ↔ a.sourceDirectory = b.sourceDirectory ∧ a.tag = b.tag :=
  (belonging_eq_iff freeA freeB .assetArchive .assetArchive).trans (and_iff_right rfl)

end

end Layout

end AssetCatalog
