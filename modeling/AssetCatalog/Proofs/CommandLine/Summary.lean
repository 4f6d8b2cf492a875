import AssetCatalog.CommandLine.Program
import AssetCatalog.Proofs.Path.Relative
import Mathlib.Data.List.Infix
/-! # The paths in the summary

A place that lies below the working directory is shown by the names that lead to it from there,
unless they begin with two dots, as those of a file that is called `..old` do; every other place
is shown in full.  Either way the text leads from the working directory back to the place
(`resolve_displayPath`), so the cells of the summary tell the files of a batch apart. -/

set_option autoImplicit false

namespace AssetCatalog

def Compiled.files (directory : Place) (compiled : Compiled) : List Place :=
  [compiled.catalog, directory.resolve compiled.destinations.iconBundle,
    directory.resolve compiled.destinations.assetArchive]

namespace CommandLine.Program

variable {directory place : Place}

theorem displayPath_eq (directory place : Place) :
    displayPath directory place = directory.pathTo place ∧ directory.pathTo place ≠ "" ∧
        ¬ "..".toList <+: (directory.pathTo place).toList ∨
      displayPath directory place = place.text ∧ (directory.pathTo place = "" ∨
        "..".toList <+: (directory.pathTo place).toList) := by
  rw [← List.isPrefixOf_iff_prefix]
  by_cases relative : directory.pathTo place ≠ ""
      ∧ ¬ "..".toList.isPrefixOf (directory.pathTo place).toList
  · exact Or.inl ⟨if_pos relative, relative⟩
  · refine Or.inr ⟨if_neg relative, ?_⟩
    rwa [not_and_or, not_not, not_not] at relative

theorem resolve_displayPath (directory place : Place) :
    directory.resolve (displayPath directory place) = place := by
  rcases displayPath_eq directory place with ⟨shown, _⟩ | ⟨shown, _⟩
  · rw [shown, Place.resolve_pathTo]
  · rw [shown, Place.resolve_text]

theorem displayPath_inj {a b : Place} :
    displayPath directory a = displayPath directory b ↔ a = b := by
  constructor
  · intro same
    rw [← resolve_displayPath directory a, same, resolve_displayPath]
  · exact congrArg _

theorem not_dots_isPrefix_text (place : Place) : ¬ "..".toList <+: place.text.toList := by
  intro dots
  have absolute := Place.isAbsolute_text place
  obtain ⟨rest, chars⟩ := dots
  rw [Path.isAbsolute, ← chars] at absolute
  cases absolute

theorem displayPath_of_outside (outside : directory.isWithin place = false) :
    displayPath directory place = place.text := by
  rcases displayPath_eq directory place with ⟨_, _, noDots⟩ | ⟨shown, _⟩
  · exact absurd (Place.dots_isPrefix_pathTo outside) noDots
  · exact shown

theorem displayPath_self (directory : Place) :
    displayPath directory directory = directory.text := by
  have empty : directory.pathTo directory = "" :=
    Place.pathTo_of_names (List.append_nil _).symm
  rcases displayPath_eq directory directory with ⟨_, some, _⟩ | ⟨shown, _⟩
  · exact absurd empty some
  · exact shown

/-- Two dots at the beginning of the way are those of the name that it begins with. -/
theorem dots_isPrefix_intercalate_iff {first : String} {rest : List String}
    (ordinary : Ordinary first) :
    "..".toList <+: ("/".intercalate (first :: rest)).toList ↔ "..".toList <+: first.toList := by
  have begins := Place.isPrefix_intercalate first rest
  refine ⟨fun dots => ?_, fun dots => dots.trans begins⟩
  rcases List.prefix_or_prefix_of_prefix dots begins with within | short
  · exact within
  · have known : first.toList ∈ ["".toList, ".".toList, "..".toList] :=
      (List.mem_inits _ _).mpr short
    obtain ⟨notEmpty, notDot, notDots, _⟩ := ordinary
    simp only [List.mem_cons, List.not_mem_nil, or_false, String.toList_inj] at known
    rcases known with empty | dot | dots
    · exact absurd empty notEmpty
    · exact absurd dot notDot
    · exact absurd dots notDots

theorem displayPath_of_below {first : String} {rest : List String}
    (names : place.names = directory.names ++ first :: rest) :
    displayPath directory place
      = if "..".toList <+: first.toList then place.text else "/".intercalate (first :: rest) := by
  have ordinary : Ordinary first := place.ordinary first (by simp [names])
  have way := Place.pathTo_of_names names
  have notEmpty : "/".intercalate (first :: rest) ≠ "" := by
    intro empty
    have start := Place.isPrefix_intercalate first rest
    rw [empty] at start
    exact ordinary.1 (by simpa using start)
  rcases displayPath_eq directory place with ⟨shown, _, noDots⟩ | ⟨shown, dots⟩
  · rw [way, dots_isPrefix_intercalate_iff ordinary] at noDots
    rw [if_neg noDots, shown, way]
  · rw [way, dots_isPrefix_intercalate_iff ordinary] at dots
    rw [if_pos (dots.resolve_left notEmpty), shown]

/-- What the summary shows for a place leads back to it from the working directory.  It is never
empty and never begins with two dots; it is the whole text of the working directory itself and
of what lies outside, and the rest of the names of what lies below, unless they begin with two
dots.  The cells of the table are the texts of the files of the batch, and only those of the same
file are the same. -/
theorem summary_paths_denote (directory : Place) :
    (∀ place, directory.resolve (displayPath directory place) = place) ∧
    (∀ place, displayPath directory place ≠ "" ∧
      ¬ "..".toList <+: (displayPath directory place).toList) ∧
    (∀ place, place = directory ∨ directory.isWithin place = false →
      displayPath directory place = place.text) ∧
    (∀ place first rest, place.names = directory.names ++ first :: rest →
      displayPath directory place
        = if "..".toList <+: first.toList then place.text else "/".intercalate (first :: rest)) ∧
    (∀ compiled, (summaryTable directory compiled).rows
      = compiled.map fun each => (each.files directory).map (displayPath directory)) ∧
    ∀ a b, displayPath directory a = displayPath directory b ↔ a = b := by
  refine ⟨resolve_displayPath directory, fun place => ?_, fun place away => ?_,
    fun place first rest => displayPath_of_below, fun compiled => rfl,
    fun a b => displayPath_inj⟩
  · rcases displayPath_eq directory place with ⟨shown, some, noDots⟩ | ⟨shown, _⟩
    · rw [shown]
      exact ⟨some, noDots⟩
    · rw [shown]
      exact ⟨Place.text_ne_empty place, not_dots_isPrefix_text place⟩
  · rcases away with rfl | outside
    · exact displayPath_self place
    · exact displayPath_of_outside outside

/-- The names of a directory below may begin with two dots without being two dots. -/
example : displayPath (Place.root.resolve "/w") (Place.root.resolve "/w/..old/a")
    = "/w/..old/a" := by
  decide +kernel

end CommandLine.Program

end AssetCatalog
