import AssetCatalog.FileTree.Walk
import AssetCatalog.Proofs.FileTree.Contents
import AssetCatalog.Proofs.Path.Places
/-! # Ways through a tree of files

`Walk` lists how a path can be followed, one rule for each thing that can lie at the next place,
and counts the links that may still be taken.  Following a path gets to a spot exactly when
there is a walk there (`follow_eq_ok_iff`), so what holds of all walks holds of all paths that
lead anywhere:

* what is reported at the end of the walk lies there;
* trees that differ only in files are walked alike (`Walk.alike`);
* without links a path leads to the place that it spells (`Walk.place_eq`). -/

set_option autoImplicit false

namespace AssetCatalog

def Spot.place : Spot → Place
  | .file place _ => place
  | .directory place => place
  | .free place => place

namespace FileTree

/-- A segment that is looked up in its directory, when `rest` comes behind it. -/
structure Passable (purpose : Purpose) (segment : String) (rest : List String) : Prop where
  named : ¬ (segment = "" ∨ segment = ".")
  notDots : segment ≠ ".."
  unclosed : ¬ (purpose = .make ∧ rest ≠ [] ∧ rest.all (· = ""))
  short : ¬ longestName < segment.utf8ByteSize

/-- The segments lead from a directory to a spot, over at most so many links. -/
inductive Walk (tree : FileTree) (purpose : Purpose) : Nat → Place → List String → Spot → Prop where
  | arrived {links : Nat} {here : Place} : Walk tree purpose links here [] (.directory here)
  | skipped {links : Nat} {here : Place} {segment : String} {rest : List String} {spot : Spot}
      (skip : segment = "" ∨ segment = ".") (further : Walk tree purpose links here rest spot) :
      Walk tree purpose links here (segment :: rest) spot
  | back {links : Nat} {here : Place} {rest : List String} {spot : Spot}
      (further : Walk tree purpose links here.parent rest spot) :
      Walk tree purpose links here (".." :: rest) spot
  | directory {links : Nat} {here : Place} {segment : String} {rest : List String} {spot : Spot}
      (passable : Passable purpose segment rest)
      (found : tree.get? (here.enter segment) = some .directory)
      (further : Walk tree purpose links (here.enter segment) rest spot) :
      Walk tree purpose links here (segment :: rest) spot
  | link {links : Nat} {here : Place} {segment target : String} {rest : List String} {spot : Spot}
      (passable : Passable purpose segment rest)
      (found : tree.get? (here.enter segment) = some (.link target))
      (further : Walk tree purpose links (startOf here target) (Path.segments target ++ rest) spot) :
      Walk tree purpose (links + 1) here (segment :: rest) spot
  | file {links : Nat} {here : Place} {segment content : String}
      (passable : Passable purpose segment [])
      (found : tree.get? (here.enter segment) = some (.file content)) :
      Walk tree purpose links here [segment] (.file (here.enter segment) content)
  | free {links : Nat} {here : Place} {segment : String}
      (passable : Passable purpose segment [])
      (found : tree.get? (here.enter segment) = none) :
      Walk tree purpose links here [segment] (.free (here.enter segment))

section

variable {tree : FileTree} {purpose : Purpose}
  {onLink : Place → List String → Except SystemFault Spot}

theorem descend_skipped {here : Place} {segment : String} {rest : List String}
    (skip : segment = "" ∨ segment = ".") :
    tree.descend purpose onLink here (segment :: rest) = tree.descend purpose onLink here rest := by
  rw [descend.eq_def]
  exact if_pos skip

theorem descend_back {here : Place} {rest : List String} :
    tree.descend purpose onLink here (".." :: rest)
      = tree.descend purpose onLink here.parent rest := by
  rw [descend.eq_def]
  dsimp only
  rw [if_neg (by decide), if_pos rfl]

theorem descend_passable {here : Place} {segment : String} {rest : List String} :
    Passable purpose segment rest → tree.descend purpose onLink here (segment :: rest)
      = match tree.get? (here.enter segment), rest with
        | some .directory, _ => tree.descend purpose onLink (here.enter segment) rest
        | some (.link target), _ => onLink (startOf here target) (Path.segments target ++ rest)
        | some (.file content), [] => .ok (.file (here.enter segment) content)
        | some (.file _), _ :: _ => .error .notDirectory
        | none, [] => .ok (.free (here.enter segment))
        | none, _ :: _ => .error .missing := by
  intro passable
  rw [descend.eq_def]
  dsimp only
  rw [if_neg passable.named, if_neg passable.notDots, if_neg passable.unclosed]
  refine (if_neg passable.short).trans ?_
  cases tree.get? (here.enter segment) with
  | none => cases rest <;> rfl
  | some entry => cases entry <;> cases rest <;> rfl

theorem passable_of_descend {here : Place} {segment : String} {rest : List String} {spot : Spot}
    (found : tree.descend purpose onLink here (segment :: rest) = .ok spot)
    (named : ¬ (segment = "" ∨ segment = ".")) (notDots : segment ≠ "..") :
    Passable purpose segment rest := by
  rw [descend.eq_def] at found
  dsimp only at found
  rw [if_neg named, if_neg notDots] at found
  split at found
  · cases found
  · next unclosed =>
    split at found
    · cases found
    · next short => exact ⟨named, notDots, unclosed, short⟩

theorem walk_of_descend {links : Nat}
    (turn : ∀ (here : Place) (segments : List String) (spot : Spot),
      onLink here segments = .ok spot →
        ∃ fewer, links = fewer + 1 ∧ Walk tree purpose fewer here segments spot)
    {here : Place} {segments : List String} {spot : Spot}
    (found : tree.descend purpose onLink here segments = .ok spot) :
    Walk tree purpose links here segments spot := by
  -- The induction follows the segments up to the first link; from there on `turn` knows the way.
  induction segments generalizing here with
  | nil =>
      cases found
      exact .arrived
  | cons segment rest ih =>
      by_cases skip : segment = "" ∨ segment = "."
      · rw [descend_skipped skip] at found
        exact .skipped skip (ih found)
      · by_cases dots : segment = ".."
        · subst dots
          rw [descend_back] at found
          exact .back (ih found)
        · have passable := passable_of_descend found skip dots
          rw [descend_passable passable] at found
          split at found
          · next lies => exact .directory passable lies (ih found)
          · next target lies =>
            obtain ⟨fewer, rfl, further⟩ := turn _ _ _ found
            exact .link passable lies further
          · next lies =>
            cases found
            exact .file passable lies
          · cases found
          · next lies =>
            cases found
            exact .free passable lies
          · cases found

theorem follow_of_walk {links : Nat} {here : Place} {segments : List String} {spot : Spot}
    (walk : Walk tree purpose links here segments spot) :
    tree.follow purpose links here segments = .ok spot := by
  have unfolded : ∀ links, ∃ onLink, tree.follow purpose links = tree.descend purpose onLink := by
    intro links
    cases links with
    | zero => exact ⟨_, rfl⟩
    | succ links => exact ⟨_, rfl⟩
  induction walk with
  | @arrived links here =>
      obtain ⟨onLink, follow⟩ := unfolded links
      rw [follow]
      rfl
  | @skipped links here segment rest spot skip further ih =>
      obtain ⟨onLink, follow⟩ := unfolded links
      rw [follow, descend_skipped skip, ← follow]
      exact ih
  | @back links here rest spot further ih =>
      obtain ⟨onLink, follow⟩ := unfolded links
      rw [follow, descend_back, ← follow]
      exact ih
  | @directory links here segment rest spot passable found further ih =>
      obtain ⟨onLink, follow⟩ := unfolded links
      rw [follow, descend_passable passable, found, ← follow]
      exact ih
  | link passable found further ih =>
      rw [FileTree.follow, descend_passable passable, found]
      exact ih
  | @file links here segment content passable found =>
      obtain ⟨onLink, follow⟩ := unfolded links
      rw [follow, descend_passable passable, found]
  | @free links here segment passable found =>
      obtain ⟨onLink, follow⟩ := unfolded links
      rw [follow, descend_passable passable, found]

theorem walk_of_follow {links : Nat} {here : Place} {segments : List String} {spot : Spot}
    (found : tree.follow purpose links here segments = .ok spot) :
    Walk tree purpose links here segments spot := by
  induction links generalizing here segments spot with
  | zero =>
      refine walk_of_descend ?_ found
      intro here segments spot turned
      cases turned
  | succ links ih =>
      refine walk_of_descend ?_ found
      intro here segments spot turned
      exact ⟨links, rfl, ih turned⟩

theorem follow_eq_ok_iff {links : Nat} {here : Place} {segments : List String} {spot : Spot} :
    tree.follow purpose links here segments = .ok spot
      ↔ Walk tree purpose links here segments spot :=
  ⟨walk_of_follow, follow_of_walk⟩

theorem locate_eq_ok_iff {directory : Place} {path : String} {spot : Spot} :
    tree.locate purpose directory path = .ok spot
      ↔ path ≠ "" ∧ ¬ longestPath < path.utf8ByteSize ∧
        Walk tree purpose mostLinks (startOf directory path) (Path.segments path) spot := by
  unfold locate
  split
  · next empty => simp [empty]
  · next some =>
    split
    · next long => simp [long]
    · next fits => simp only [follow_eq_ok_iff, ne_eq, some, not_false_eq_true, fits, true_and]

end

/-! ## What lies at the end of a walk -/

section

variable {tree : FileTree} {purpose : Purpose}

theorem Walk.get?_file {links : Nat} {here place : Place} {segments : List String}
    {content : String} (walk : Walk tree purpose links here segments (.file place content)) :
    tree.get? place = some (.file content) := by
  generalize arrived : Spot.file place content = spot at walk
  induction walk with
  | arrived => cases arrived
  | skipped _ _ ih => exact ih arrived
  | back _ ih => exact ih arrived
  | directory _ _ _ ih => exact ih arrived
  | link _ _ _ ih => exact ih arrived
  | file _ found =>
      cases arrived
      exact found
  | free _ _ => cases arrived

theorem Walk.get?_free {links : Nat} {here place : Place} {segments : List String}
    (walk : Walk tree purpose links here segments (.free place)) : tree.get? place = none := by
  generalize arrived : Spot.free place = spot at walk
  induction walk with
  | arrived => cases arrived
  | skipped _ _ ih => exact ih arrived
  | back _ ih => exact ih arrived
  | directory _ _ _ ih => exact ih arrived
  | link _ _ _ ih => exact ih arrived
  | file _ _ => cases arrived
  | free _ found =>
      cases arrived
      exact found

theorem Walk.get?_directory (grounded : tree.Grounded) {links : Nat} {here place : Place}
    {segments : List String} (walk : Walk tree purpose links here segments (.directory place))
    (start : tree.get? here = some .directory) : tree.get? place = some .directory := by
  generalize arrived : Spot.directory place = spot at walk
  induction walk with
  | arrived =>
      cases arrived
      exact start
  | skipped _ _ ih => exact ih start arrived
  | back _ ih => exact ih (grounded _ _ start) arrived
  | directory _ found _ ih => exact ih found arrived
  | @link links here segment target rest spot _ _ _ ih =>
      refine ih ?_ arrived
      unfold startOf
      split
      · exact get?_root tree
      · exact start
  | file _ _ => cases arrived
  | free _ _ => cases arrived

theorem get?_of_locate_file {directory place : Place} {path content : String}
    (located : tree.locate purpose directory path = .ok (.file place content)) :
    tree.get? place = some (.file content) :=
  (locate_eq_ok_iff.mp located).2.2.get?_file

theorem get?_of_locate_free {directory place : Place} {path : String}
    (located : tree.locate purpose directory path = .ok (.free place)) :
    tree.get? place = none :=
  (locate_eq_ok_iff.mp located).2.2.get?_free

end

/-! ## Trees that differ in files only -/

def TakesFile (tree : FileTree) (place : Place) : Prop :=
  ∀ entry, tree.get? place = some entry → ∃ content, entry = .file content

/-- Directories and links lie at the same places of both trees. -/
def Alike (a b : FileTree) : Prop :=
  ∀ place, a.get? place = b.get? place ∨ (a.TakesFile place ∧ b.TakesFile place)

def seen (tree : FileTree) : Spot → Spot
  | .directory place => .directory place
  | .file place _ | .free place =>
    match tree.get? place with
    | some (.file content) => .file place content
    | _ => .free place

theorem TakesFile.congr {a b : FileTree} {place : Place} (takes : a.TakesFile place)
    (same : a.get? place = b.get? place) : b.TakesFile place := by
  intro entry found
  rw [← same] at found
  exact takes entry found

theorem place_seen (tree : FileTree) (spot : Spot) : (tree.seen spot).place = spot.place := by
  cases spot with
  | directory place => rfl
  | file place content =>
      unfold seen
      dsimp only
      split <;> rfl
  | free place =>
      unfold seen
      dsimp only
      split <;> rfl

theorem Alike.refl (tree : FileTree) : tree.Alike tree := fun _ => Or.inl rfl

theorem Alike.symm {a b : FileTree} (alike : a.Alike b) : b.Alike a := by
  intro place
  rcases alike place with same | ⟨takesA, takesB⟩
  · exact Or.inl same.symm
  · exact Or.inr ⟨takesB, takesA⟩

theorem alike_put {tree : FileTree} {place : Place} (content : String)
    (takes : tree.TakesFile place) (notRoot : place ≠ Place.root) :
    tree.Alike (tree.put place (.file content)) := by
  intro other
  by_cases same : other = place
  · subst same
    refine Or.inr ⟨takes, ?_⟩
    intro entry found
    rw [get?_put _ _ _ _ notRoot, if_pos rfl] at found
    exact ⟨content, (Option.some.inj found).symm⟩
  · left
    rw [get?_put _ _ _ _ notRoot, if_neg same]

theorem Alike.trans {a b c : FileTree} (first : a.Alike b) (second : b.Alike c) : a.Alike c := by
  intro place
  rcases first place with same | ⟨takesA, takesB⟩
  · rcases second place with same' | ⟨takesB, takesC⟩
    · exact Or.inl (same.trans same')
    · exact Or.inr ⟨takesB.congr same.symm, takesC⟩
  · rcases second place with same' | ⟨_, takesC⟩
    · exact Or.inr ⟨takesA, takesB.congr same'⟩
    · exact Or.inr ⟨takesA, takesC⟩

theorem Alike.get?_directory {a b : FileTree} (alike : a.Alike b) {place : Place}
    (found : a.get? place = some .directory) : b.get? place = some .directory := by
  rcases alike place with same | ⟨takes, _⟩
  · rw [← same]
    exact found
  · obtain ⟨content, isFile⟩ := takes _ found
    cases isFile

theorem Alike.get?_link {a b : FileTree} (alike : a.Alike b) {place : Place} {target : String}
    (found : a.get? place = some (.link target)) : b.get? place = some (.link target) := by
  rcases alike place with same | ⟨takes, _⟩
  · rw [← same]
    exact found
  · obtain ⟨content, isFile⟩ := takes _ found
    cases isFile

theorem Alike.takesFile {a b : FileTree} (alike : a.Alike b) {place : Place}
    (takes : a.TakesFile place) : b.TakesFile place := by
  rcases alike place with same | ⟨_, takesB⟩
  · exact takes.congr same
  · exact takesB

theorem takesFile_of_file {tree : FileTree} {place : Place} {content : String}
    (found : tree.get? place = some (.file content)) : tree.TakesFile place := by
  intro entry other
  rw [found] at other
  exact ⟨content, (Option.some.inj other).symm⟩

theorem takesFile_of_free {tree : FileTree} {place : Place} (found : tree.get? place = none) :
    tree.TakesFile place := by
  intro entry other
  rw [found] at other
  cases other

theorem walk_last {tree : FileTree} {purpose : Purpose} {links : Nat} {here : Place}
    {segment : String} (passable : Passable purpose segment [])
    (takes : tree.TakesFile (here.enter segment)) :
    Walk tree purpose links here [segment] (tree.seen (.free (here.enter segment))) := by
  cases found : tree.get? (here.enter segment) with
  | none =>
      simp only [seen, found]
      exact .free passable found
  | some entry =>
      obtain ⟨content, rfl⟩ := takes entry found
      simp only [seen, found]
      exact .file passable found

theorem Walk.alike {a b : FileTree} (alike : a.Alike b) {purpose : Purpose} {links : Nat}
    {here : Place} {segments : List String} {spot : Spot}
    (walk : Walk a purpose links here segments spot) :
    Walk b purpose links here segments (b.seen spot) := by
  induction walk with
  | arrived => exact .arrived
  | skipped skip _ ih => exact .skipped skip ih
  | back _ ih => exact .back ih
  | directory passable found _ ih => exact .directory passable (alike.get?_directory found) ih
  | link passable found _ ih => exact .link passable (alike.get?_link found) ih
  | file passable found => exact walk_last passable (alike.takesFile (takesFile_of_file found))
  | free passable found => exact walk_last passable (alike.takesFile (takesFile_of_free found))

theorem Alike.locate {a b : FileTree} (alike : a.Alike b) {purpose : Purpose} {directory : Place}
    {path : String} {spot : Spot} (located : a.locate purpose directory path = .ok spot) :
    b.locate purpose directory path = .ok (b.seen spot) := by
  obtain ⟨some, fits, walk⟩ := locate_eq_ok_iff.mp located
  exact locate_eq_ok_iff.mpr ⟨some, fits, walk.alike alike⟩

/-- A file is found unchanged where another tree is the same at its place. -/
theorem Alike.locate_file {a b : FileTree} (alike : a.Alike b) {purpose : Purpose}
    {directory source : Place} {path content : String} (same : a.get? source = b.get? source)
    (located : a.locate purpose directory path = .ok (.file source content)) :
    b.locate purpose directory path = .ok (.file source content) := by
  have there := alike.locate located
  have lies : b.get? source = some (.file content) := by
    rw [← same]
    exact get?_of_locate_file located
  simp only [seen, lies] at there
  exact there

/-! ## Trees without links -/

/-- Without links a path leads to the place that it spells. -/
theorem Walk.place_eq {tree : FileTree} (linkFree : tree.LinkFree) {purpose : Purpose}
    {links : Nat} {here : Place} {segments : List String} {spot : Spot}
    (walk : Walk tree purpose links here segments spot) :
    spot.place = segments.foldl Place.enter here := by
  induction walk with
  | arrived => rfl
  | skipped skip _ ih => rw [List.foldl_cons, Place.enter_skipped skip, ih]
  | back _ ih => rw [List.foldl_cons, Place.enter_dots, ih]
  | directory _ _ _ ih => rw [List.foldl_cons, ih]
  | link _ found _ _ => exact absurd found (linkFree _ _)
  | file _ _ => rfl
  | free _ _ => rfl

theorem LinkFree.place_of_locate {tree : FileTree} (linkFree : tree.LinkFree) {purpose : Purpose}
    {directory : Place} {path : String} {spot : Spot}
    (located : tree.locate purpose directory path = .ok spot) :
    spot.place = directory.resolve path :=
  (locate_eq_ok_iff.mp located).2.2.place_eq linkFree

end FileTree

end AssetCatalog
