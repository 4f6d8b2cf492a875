import AssetCatalog.Proofs.Layout.Naming
import Mathlib.Logic.Relation
/-! # Spellings of a path

A path can be spelled in many ways.  A detour (`Detour`) is nothing at all between two slashes, a
dot, or a name with the way back behind it, and it may stand at any slash of a path, behind the
path, or before it if the path is relative; a relative path may also be put behind its directory
(`Respelled`).  All spellings lead to the same place (`resolve_of_spelling`), so a catalog has one
layout however its path is spelled, and a path that is rejected is rejected in every spelling for
the same reason (`layout_of_spelling`). -/

set_option autoImplicit false

namespace AssetCatalog

namespace Path

/-- Segments that lead nowhere. -/
inductive Detour : String → Prop where
  | nothing : Detour ""
  | dot : Detour "."
  | turn {name : String} (ordinary : Ordinary name) : Detour (name ++ "/..")

/-- The second text is another spelling of the first, seen from the directory. -/
inductive Respelled (directory : Place) : String → String → Prop where
  | within {detour : String} (nowhere : Detour detour) (before after : String) :
      Respelled directory (before ++ "/" ++ after) (before ++ "/" ++ detour ++ "/" ++ after)
  | behind {detour path : String} (nowhere : Detour detour) (notEmpty : path ≠ "") :
      Respelled directory path (path ++ "/" ++ detour)
  | before {detour path : String} (nowhere : Detour detour) (notEmpty : detour ≠ "")
      (relative : isAbsolute path = false) : Respelled directory path (detour ++ "/" ++ path)
  | behindDirectory {path : String} (relative : isAbsolute path = false) :
      Respelled directory path (directory.text ++ "/" ++ path)
  | joined {path : String} (notEmpty : path ≠ "") (relative : isAbsolute path = false) :
      Respelled directory path (join directory.text path)
  | resolved (path : String) : Respelled directory path (directory.resolve path).text

/-- The two texts are spellings of one path, seen from the directory. -/
def Spelling (directory : Place) : String → String → Prop := Relation.EqvGen (Respelled directory)

theorem Detour.foldl_enter {detour : String} (nowhere : Detour detour) (place : Place) :
    (segments detour).foldl Place.enter place = place := by
  cases nowhere with
  | nothing => exact Place.enter_skipped (.inl rfl)
  | dot => exact Place.enter_skipped (.inr rfl)
  | @turn name ordinary =>
      have parts : segments (name ++ "/..") = [name, ".."] := by
        have split := segments_append_slash name ".."
        rwa [String.append_assoc, segments_of_noSlash ordinary.2.2.2] at split
      rw [parts, List.foldl_cons, List.foldl_cons, List.foldl_nil, Place.enter_dots]
      exact Place.parent_of_names (Place.enter_of_ordinary ordinary)

theorem Detour.isAbsolute_eq_false {detour : String} (nowhere : Detour detour) :
    isAbsolute detour = false := by
  cases nowhere with
  | nothing => rfl
  | dot => rfl
  | turn ordinary =>
      rw [isAbsolute_append ordinary.1]
      exact isAbsolute_of_noSlash ordinary.2.2.2

variable {directory : Place} {path other : String}

theorem Detour.resolve_within {detour : String} (nowhere : Detour detour) (before : String) :
    directory.resolve (before ++ "/" ++ detour ++ "/") = directory.resolve (before ++ "/") := by
  rw [Place.resolve_append_slash_end _ (append_slash_ne_empty before detour),
    Place.resolve_append_slash, nowhere.foldl_enter]

theorem resolve_of_respelled (respelled : Respelled directory path other) :
    directory.resolve other = directory.resolve path := by
  cases respelled with
  | within nowhere before after =>
      rw [Place.resolve_append_slash, nowhere.resolve_within, ← Place.resolve_append_slash]
  | behind nowhere notEmpty =>
      rw [Place.resolve_append_slash, nowhere.foldl_enter,
        Place.resolve_append_slash_end _ notEmpty]
  | before nowhere notEmpty relative =>
      rw [Place.resolve_append_slash, Place.resolve_append_slash_end _ notEmpty,
        Place.resolve_of_relative _ nowhere.isAbsolute_eq_false, nowhere.foldl_enter,
        Place.resolve_of_relative _ relative]
  | behindDirectory relative => exact Place.resolve_text_append _ _ relative
  | joined notEmpty relative =>
      rw [Place.join_text _ notEmpty relative]
      split
      · rw [Place.resolve_append_slash_end _ (Place.text_ne_empty _), Place.resolve_text]
      · rw [String.append_empty, Place.resolve_text]
  | resolved => exact Place.resolve_text _ _

/-- All spellings of a path lead to the same place. -/
theorem resolve_of_spelling (spelling : Spelling directory path other) :
    directory.resolve other = directory.resolve path := by
  induction spelling with
  | rel path other respelled => exact resolve_of_respelled respelled
  | refl path => rfl
  | symm path other _ ih => exact ih.symm
  | trans path between other _ _ first second => exact second.trans first

end Path

def NameFault.respelled (spelling : String) : NameFault → NameFault
  | suffix _ => suffix spelling
  | separators baseName => separators baseName

theorem NameFault.message_respelled (spelling : String) (fault : NameFault) :
    (fault.respelled spelling).message = fault.message := by
  cases fault <;> rfl

namespace Layout

/-- Only the place that a path leads to counts; a fault shows the spelling. -/
theorem ofPath_of_same_place {directory elsewhere : Place} {path other : String}
    (same : elsewhere.resolve other = directory.resolve path) :
    ofPath elsewhere other = (ofPath directory path).mapError (NameFault.respelled other) := by
  rw [ofPath_eq, ofPath_eq, same]
  cases baseOf? catalogSuffix (directory.resolve path).name with
  | none => rfl
  | some baseName =>
      cases tagged : nameTag baseName with
      | ok tag => simp [tagged, Except.map, Except.mapError]
      | error fault =>
          obtain ⟨_, rfl⟩ := nameTag_eq_error_iff.mp tagged
          simp [tagged, Except.map, Except.mapError, NameFault.respelled]

theorem catalog_of_ofPath {directory : Place} {path : String} {layout : Layout}
    (named : ofPath directory path = .ok layout) : layout.catalog = directory.resolve path :=
  (describes_of_ofPath named).catalog

/-- However a path is spelled, it has the same layout, or is rejected with the same message; and
the text of the catalog itself has that layout everywhere. -/
theorem layout_of_spelling {directory : Place} {path other : String}
    (spelling : Path.Spelling directory path other) :
    (∀ layout, ofPath directory path = .ok layout ↔ ofPath directory other = .ok layout) ∧
    (∀ fault, ofPath directory path = .error fault →
      ∃ again, ofPath directory other = .error again ∧ again.message = fault.message) ∧
    (∀ layout, ofPath directory path = .ok layout →
      ∀ elsewhere, ofPath elsewhere layout.catalog.text = .ok layout) := by
  have same := ofPath_of_same_place (Path.resolve_of_spelling spelling)
  refine ⟨fun layout => ?_, fun fault rejected => ?_, fun layout named elsewhere => ?_⟩
  · rw [same]
    cases ofPath directory path with
    | ok found => rfl
    | error fault => simp [Except.mapError]
  · rw [same, rejected]
    exact ⟨_, rfl, fault.message_respelled other⟩
  · have there : elsewhere.resolve layout.catalog.text = directory.resolve path := by
      rw [Place.resolve_text, catalog_of_ofPath named]
    rw [ofPath_of_same_place there, named]
    rfl

namespace Sample

def workingDirectory : Place := Place.root.resolve "/w/x"

def beside : String := "../Assets_beta.xcassets"

def roundabout : String := "/w/x/../y/../Assets_beta.xcassets/"

theorem spelled : Path.Spelling workingDirectory beside roundabout := by
  have ordinary : Ordinary "y" := by decide
  have slash : Path.Respelled workingDirectory beside "../Assets_beta.xcassets/" :=
    .behind .nothing (by decide)
  have turn : Path.Respelled workingDirectory "../Assets_beta.xcassets/"
      "../y/../Assets_beta.xcassets/" := .within (.turn ordinary) ".." "Assets_beta.xcassets/"
  have absolute : Path.Respelled workingDirectory "../y/../Assets_beta.xcassets/" roundabout :=
    .behindDirectory (by decide)
  exact .trans _ _ _ (.rel _ _ slash) (.trans _ _ _ (.rel _ _ turn) (.rel _ _ absolute))

def layout : Layout := ofNames (workingDirectory.resolve beside) "Assets_beta" "_beta"

theorem roundabout_layout : Path.Spelling workingDirectory beside roundabout ∧
    ofPath workingDirectory beside = .ok layout ∧
    ofPath workingDirectory roundabout = .ok layout ∧
    ofPath .root layout.catalog.text = .ok layout := by
  have named : ofPath workingDirectory beside = .ok layout := by rfl
  obtain ⟨same, _, everywhere⟩ := layout_of_spelling spelled
  exact ⟨spelled, named, (same layout).mp named, everywhere layout named .root⟩

end Sample

end Layout

end AssetCatalog
