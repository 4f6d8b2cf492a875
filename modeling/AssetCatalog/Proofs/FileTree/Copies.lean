import AssetCatalog.FileTree.Copy
import AssetCatalog.Proofs.FileTree.Ways
/-! # What a copy does

`Copying` lists the three ways in which the copy of one file can go: it is refused and nothing
has changed, it is done and one place holds the content of the source, or the source turns out
to be a directory when the copy has been started.  `copying` says that there are no others.

Without links the copy to a place concerns that place and no other one (`get?_withdraw`). -/

set_option autoImplicit false

namespace AssetCatalog.FileTree

/-- The path leads to a place that takes a file. -/
def Receives (tree : FileTree) (directory : Place) (path : String) (place : Place) : Prop :=
  tree.locate .make directory path = .ok (.free place) ∨
    ∃ content, tree.locate .make directory path = .ok (.file place content)

inductive Copying (tree : FileTree) (directory : Place) (source destination : String) :
    FileTree × Except SystemFault Unit → Prop where
  | refused (fault : SystemFault) : Copying tree directory source destination (tree, .error fault)
  | done {from_ place : Place} {content : String} {after : FileTree}
      (read : tree.locate .use directory source = .ok (.file from_ content))
      (received : tree.Receives directory destination place)
      (stays : ∀ other, after.get? other
        = if other = place then some (.file content) else tree.get? other) :
      Copying tree directory source destination (after, .ok ())
  | withdrawn {from_ place : Place}
      (read : tree.locate .use directory source = .ok (.directory from_))
      (received : tree.Receives directory destination place) :
      Copying tree directory source destination
        (tree.withdraw directory destination place, .error .isDirectory)

theorem Receives.takesFile {tree : FileTree} {directory place : Place} {path : String}
    (received : tree.Receives directory path place) : tree.TakesFile place := by
  rcases received with located | ⟨content, located⟩
  · exact takesFile_of_free (get?_of_locate_free located)
  · exact takesFile_of_file (get?_of_locate_file located)

theorem TakesFile.ne_root {tree : FileTree} {place : Place} (takes : tree.TakesFile place) :
    place ≠ Place.root := by
  rintro rfl
  obtain ⟨content, isFile⟩ := takes .directory (get?_root tree)
  cases isFile

theorem Receives.unique {tree : FileTree} {directory place place' : Place} {path : String}
    (received : tree.Receives directory path place)
    (received' : tree.Receives directory path place') : place = place' := by
  rcases received with located | ⟨content, located⟩
  · rcases received' with located' | ⟨content', located'⟩
    · cases located.symm.trans located'
      rfl
    · cases located.symm.trans located'
  · rcases received' with located' | ⟨content', located'⟩
    · cases located.symm.trans located'
    · cases located.symm.trans located'
      rfl

theorem receives_of_seen {tree : FileTree} {directory place : Place} {path : String}
    (located : tree.locate .make directory path = .ok (tree.seen (.free place))) :
    tree.Receives directory path place := by
  unfold seen at located
  dsimp only at located
  split at located
  · next content _ => exact Or.inr ⟨content, located⟩
  · exact Or.inl located

theorem Alike.receives {a b : FileTree} (alike : a.Alike b) {directory place : Place}
    {path : String} (received : a.Receives directory path place) :
    b.Receives directory path place := by
  have there : b.locate .make directory path = .ok (b.seen (.free place)) := by
    rcases received with located | ⟨content, located⟩
    · exact alike.locate located
    · have there := alike.locate located
      exact there
  exact receives_of_seen there

theorem writeCopy_copying {tree : FileTree} {directory place : Place} {source destination : String}
    {found : Spot} (read : tree.locate .use directory source = .ok found)
    (notFree : ∀ free, found ≠ .free free)
    (received : tree.Receives directory destination place) :
    Copying tree directory source destination
      (tree.writeCopy directory found destination place) := by
  have notRoot : place ≠ Place.root := received.takesFile.ne_root
  cases found with
  | file from_ content =>
      unfold writeCopy
      dsimp only
      split
      · next same =>
        refine .done read received ?_
        intro other
        split
        · next atPlace =>
          rw [atPlace, ← same]
          exact get?_of_locate_file read
        · rfl
      · refine .done read received ?_
        intro other
        exact get?_put tree place other (.file content) notRoot
  | directory from_ => exact .withdrawn read received
  | free free => exact absurd rfl (notFree free)

theorem copying (tree : FileTree) (directory : Place) (source destination : String) :
    Copying tree directory source destination (tree.copyFile directory source destination) := by
  unfold copyFile
  split
  · exact .refused _
  · exact .refused _
  · next found notFree read =>
    split
    · exact .refused _
    · exact .refused _
    · next place content located =>
      exact writeCopy_copying read notFree (Or.inr ⟨content, located⟩)
    · next place located => exact writeCopy_copying read notFree (Or.inl located)

/-! ## Copies in a tree without links -/

theorem LinkFree.eq_of_receives {tree : FileTree} (linkFree : tree.LinkFree)
    {directory place destination : Place}
    (received : tree.Receives directory destination.text place) : place = destination := by
  rw [← Place.resolve_text directory destination]
  rcases received with located | ⟨content, located⟩
  · exact linkFree.place_of_locate located
  · exact linkFree.place_of_locate located

/-- Without links all segments but the last lead to a directory. -/
theorem Walk.dropLast {tree : FileTree} (linkFree : tree.LinkFree) {purpose : Purpose}
    {links : Nat} {here : Place} {segments : List String} {last : String} {spot : Spot}
    (walk : Walk tree purpose links here (segments ++ [last]) spot) :
    Walk tree .use links here segments (.directory (segments.foldl Place.enter here)) := by
  induction segments generalizing here with
  | nil => exact .arrived
  | cons segment rest ih =>
      have more : rest ++ [last] ≠ [] := by simp
      rw [List.cons_append] at walk
      generalize behind : rest ++ [last] = tail at walk more
      cases walk with
      | skipped skip further =>
          subst behind
          have directory := Walk.skipped skip (ih further)
          rw [List.foldl_cons, Place.enter_skipped skip]
          exact directory
      | back further =>
          subst behind
          have directory := Walk.back (ih further)
          rw [List.foldl_cons, Place.enter_dots]
          exact directory
      | directory passable found further =>
          subst behind
          have passableToo : Passable .use segment rest :=
            ⟨passable.named, passable.notDots, by simp, passable.short⟩
          exact .directory passableToo found (ih further)
      | link _ found _ => exact absurd found (linkFree _ _)
      | file _ _ => exact absurd rfl more
      | free _ _ => exact absurd rfl more

theorem Walk.above {tree : FileTree} (linkFree : tree.LinkFree) {purpose : Purpose} {links : Nat}
    {directory place : Place} (notRoot : place ≠ Place.root) {spot : Spot}
    (walk : Walk tree purpose links (startOf directory place.text) (Path.segments place.text)
      spot) :
    Walk tree .use links (startOf directory place.text) ("" :: place.parent.names)
      (.directory place.parent) := by
  rw [Place.segments_text_concat notRoot] at walk
  have above := walk.dropLast linkFree
  have leads : ("" :: place.parent.names).foldl Place.enter (startOf directory place.text)
      = place.parent := by
    rw [List.foldl_cons, Place.enter_skipped (Or.inl rfl), startOf,
      if_pos (Place.isAbsolute_text place), Place.foldl_enter_root]
  rw [leads] at above
  exact above

theorem Receives.exists_walk {tree : FileTree} {directory place : Place} {path : String}
    (received : tree.Receives directory path place) : ∃ spot,
      Walk tree .make mostLinks (startOf directory path) (Path.segments path) spot := by
  rcases received with located | ⟨content, located⟩
  · exact ⟨_, (locate_eq_ok_iff.mp located).2.2⟩
  · exact ⟨_, (locate_eq_ok_iff.mp located).2.2⟩

/-- The place that a copy is withdrawn from is the one it was started at. -/
theorem ownPlace_text {tree : FileTree} (linkFree : tree.LinkFree) {directory destination : Place}
    (received : tree.Receives directory destination.text destination) (content : String) :
    (tree.put destination (.file content)).ownPlace directory destination.text
      = some destination := by
  have takes := received.takesFile
  have notRoot : destination ≠ Place.root := takes.ne_root
  obtain ⟨spot, walk⟩ := received.exists_walk
  have above := (walk.above linkFree notRoot).alike (alike_put content takes notRoot)
  have last : (("" :: destination.parent.names) ++ [destination.name]).getLast?.getD ""
      = destination.name := by
    rw [List.getLast?_append]
    rfl
  simp only [ownPlace, Place.segments_text_concat notRoot, last, List.dropLast_concat,
    follow_of_walk above, seen, Place.enter_name notRoot]

theorem get?_withdraw {tree : FileTree} (linkFree : tree.LinkFree) {directory destination : Place}
    (received : tree.Receives directory destination.text destination) (other : Place) :
    (tree.withdraw directory destination.text destination).get? other
      = if other = destination then none else tree.get? other := by
  have notRoot : destination ≠ Place.root := received.takesFile.ne_root
  unfold withdraw
  dsimp only
  rw [ownPlace_text linkFree received ""]
  dsimp only
  rw [get?_erase _ _ _ notRoot, get?_put _ _ _ _ notRoot]
  split
  · rfl
  · rfl

end AssetCatalog.FileTree
