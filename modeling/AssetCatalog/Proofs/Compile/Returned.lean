import AssetCatalog.Proofs.Compile.Course
/-! # The files when the compiler has returned

All that has changed by then lies in the scratch directory, where nothing was before, so the
removal of the scratch directory takes it all back (`get?_closed_returned`).

When there are no links, the directory of the catalog is a directory outside of the scratch
directory, and so is everything that can be copied there (`outside_of_takesFile`). -/

set_option autoImplicit false

namespace AssetCatalog

/-- The compiler brings no links into the directory that it compiles into. -/
def Runner.LeavesNoLinks (runner : Runner) : Prop :=
  ∀ calls contents, (runner.respond calls).contents = some contents → contents.LinkFree

namespace Place

theorem outside_of_outside {a b c : Place} (part : a.isWithin b = true)
    (outside : a.isWithin c = false) : b.isWithin c = false := by
  cases within : b.isWithin c with
  | false => rfl
  | true =>
      rw [isWithin_trans part within] at outside
      cases outside

end Place

/-- The path of a scratch directory of a compile without its suffix. -/
def Setting.scratchStem (setting : Setting) : String :=
  Path.join setting.temporary.text Compile.scratchBeginning

theorem Work.get?_closed {work : Work} {scratch : Place} (notRoot : scratch ≠ Place.root)
    (other : Place) : (work.closed scratch).tree.get? other
      = if scratch.isWithin other then none else work.tree.get? other :=
  FileTree.get?_prune work.tree scratch other notRoot

namespace Compile

theorem located_of_scratchPlace {setting : Setting} {tree : FileTree} {scratches : Nat}
    {scratch : Place}
    (opened : setting.scratchPlace scratchBeginning tree scratches = .ok scratch) :
    tree.locate .make Place.root (setting.scratchStem ++ setting.suffix scratches)
        = .ok (.free scratch) ∧
      tree.ownPlace Place.root (setting.scratchStem ++ setting.suffix scratches)
        = some scratch := by
  unfold Setting.scratchPlace at opened
  dsimp only at opened
  split at opened
  · cases opened
  · next place located =>
    split at opened
    · next own =>
      cases opened
      exact ⟨located, own⟩
    · cases opened
  · cases opened
  · cases opened

theorem cause_of_scratchPlace {setting : Setting} {tree : FileTree} {scratches : Nat}
    {cause : Cause}
    (refusal : setting.scratchPlace scratchBeginning tree scratches = .error cause) :
    ∃ failure, cause = .system failure := by
  unfold Setting.scratchPlace at refusal
  dsimp only at refusal
  split at refusal
  · cases refusal
    exact ⟨_, rfl⟩
  · split at refusal
    · cases refusal
    · cases refusal
      exact ⟨_, rfl⟩
  · cases refusal
    exact ⟨_, rfl⟩
  · cases refusal
    exact ⟨_, rfl⟩

theorem free_of_scratchPlace {setting : Setting} {tree : FileTree} {scratches : Nat}
    {scratch : Place}
    (opened : setting.scratchPlace scratchBeginning tree scratches = .ok scratch) :
    tree.get? scratch = none :=
  FileTree.get?_of_locate_free (located_of_scratchPlace opened).1

namespace Ready

variable {setting : Setting} {request : Request} {work : Work}
  (ready : Ready setting request work)

theorem scratch_free : work.tree.get? ready.scratch = none := free_of_scratchPlace ready.opened

theorem scratch_ne_root : ready.scratch ≠ Place.root := FileTree.ne_root_of_free ready.scratch_free

theorem stagedName_ordinary : Ordinary stagedName := by decide

theorem staged_within : ready.scratch.isWithin (ready.scratch.enter stagedName) = true :=
  Place.isWithin_enter stagedName_ordinary

theorem staged_ne_root : ready.scratch.enter stagedName ≠ Place.root := by
  intro same
  have names : (ready.scratch.enter stagedName).names = ready.scratch.names ++ [stagedName] :=
    Place.enter_of_ordinary stagedName_ordinary
  rw [same] at names
  exact absurd names (by simp [Place.root])

/-- Nothing of a file system lies in the scratch directory of a compile that is to come. -/
theorem get?_of_within (grounded : work.tree.Grounded) {other : Place}
    (within : ready.scratch.isWithin other = true) : work.tree.get? other = none :=
  grounded.get?_of_isWithin ready.scratch_free within

theorem get?_staged {other : Place} (outside : ready.scratch.isWithin other = false) :
    ready.staged.get? other = work.tree.get? other := by
  have differ : other ≠ ready.scratch := by
    rintro rfl
    rw [Place.isWithin_self] at outside
    cases outside
  rw [FileTree.get?_stage ready.packed ready.staged_ne_root
    (Place.outside_of_outside ready.staged_within outside)]
  rw [Work.opened, FileTree.get?_put _ _ _ _ ready.scratch_ne_root, if_neg differ]

theorem get?_returned {other : Place} (outside : ready.scratch.isWithin other = false) :
    ready.returned.tree.get? other = work.tree.get? other := by
  rw [← ready.get?_staged outside]
  unfold returned Response.leaves
  dsimp only
  split
  · next contents same _ =>
    cases same
    apply FileTree.get?_graft_of_not_below
    rw [Place.isBelow, outside, Bool.false_and]
  · rfl

theorem get?_staged_scratch : ready.staged.get? ready.scratch = some .directory := by
  have notInside : (ready.scratch.enter stagedName).isWithin ready.scratch = false := by
    rw [Bool.eq_false_iff]
    intro within
    obtain ⟨rest, names⟩ := Place.isWithin_iff.mp within
    have lengths := congrArg List.length names
    rw [Place.enter_of_ordinary stagedName_ordinary] at lengths
    simp only [List.length_append, List.length_singleton] at lengths
    omega
  rw [FileTree.get?_stage ready.packed ready.staged_ne_root notInside, Work.opened,
    FileTree.get?_put _ _ _ _ ready.scratch_ne_root, if_pos rfl]

theorem get?_scratch : ready.returned.tree.get? ready.scratch = some .directory := by
  rw [← ready.get?_staged_scratch]
  unfold returned Response.leaves
  dsimp only
  split
  · next contents same _ =>
    cases same
    apply FileTree.get?_graft_of_not_below
    rw [Place.isBelow]
    simp
  · rfl

theorem get?_closed {after : Work} (grounded : work.tree.Grounded) {other : Place}
    (same : after.tree.get? other = ready.returned.tree.get? other) :
    (after.closed ready.scratch).tree.get? other = work.tree.get? other := by
  rw [Work.get?_closed ready.scratch_ne_root]
  cases within : ready.scratch.isWithin other with
  | true =>
      rw [if_pos rfl, ready.get?_of_within grounded within]
  | false =>
      rw [if_neg (by simp), same, ready.get?_returned within]

theorem closed_returned_same (grounded : work.tree.Grounded) :
    (ready.returned.closed ready.scratch).tree.Same work.tree :=
  fun _ => ready.get?_closed grounded rfl

theorem alike_closed {after : Work} (grounded : work.tree.Grounded)
    (alike : ready.returned.tree.Alike after.tree) :
    work.tree.Alike (after.closed ready.scratch).tree := by
  intro place
  cases within : ready.scratch.isWithin place with
  | true =>
      left
      rw [Work.get?_closed ready.scratch_ne_root, if_pos within,
        ready.get?_of_within grounded within]
  | false =>
      have kept : after.tree.get? place = (after.closed ready.scratch).tree.get? place := by
        rw [Work.get?_closed ready.scratch_ne_root, within]
        rfl
      have start := ready.get?_returned within
      rcases alike place with same | ⟨takes, takesAfter⟩
      · left
        rw [← start, same, kept]
      · exact Or.inr ⟨takes.congr start, takesAfter.congr kept⟩

/-! ## Without links -/

section

variable (linkFree : work.tree.LinkFree)
include linkFree

theorem linkFree_staged : ready.staged.LinkFree := by
  have opened : (work.opened ready.scratch).tree.LinkFree :=
    linkFree.put ready.scratch_ne_root fun _ => by simp
  exact opened.stage ready.packed ready.staged_ne_root

theorem linkFree_returned (noLinks : setting.runner.LeavesNoLinks) :
    ready.returned.tree.LinkFree := by
  have staged := ready.linkFree_staged linkFree
  unfold returned Response.leaves
  dsimp only
  split
  · next contents same left =>
    cases same
    exact staged.graft (noLinks _ _ left) _
  · exact staged

theorem get?_sourceDirectory (grounded : work.tree.Grounded) :
    work.tree.get? ready.layout.sourceDirectory = some .directory := by
  have tagFree := Layout.tag_noSlash ready.named
  have names := Layout.names_iconPackage tagFree
  have notRoot : ready.layout.iconPackage ≠ Place.root := by
    intro same
    rw [same] at names
    exact absurd names (by simp [Place.root])
  obtain ⟨spot, located⟩ : ∃ spot, work.tree.locate .use Place.root
      ready.layout.iconPackage.text = .ok spot := by
    have there := ready.packageThere
    unfold FileTree.isOccupied at there
    split at there
    · next located => exact ⟨_, located⟩
    · next located => exact ⟨_, located⟩
    · cases there
  have above := (FileTree.locate_eq_ok_iff.mp located).2.2.above linkFree notRoot
  have beside : ready.layout.iconPackage.parent = ready.layout.sourceDirectory :=
    Layout.parent_belonging tagFree .iconPackage
  rw [beside] at above
  apply above.get?_directory grounded
  rw [FileTree.startOf, if_pos (Place.isAbsolute_text _)]
  exact FileTree.get?_root work.tree

/-- What can be copied to beside the catalog lies outside of the scratch directory. -/
theorem outside_of_takesFile (grounded : work.tree.Grounded) {place : Place}
    (beside : place.parent = ready.layout.sourceDirectory)
    (takes : ready.returned.tree.TakesFile place) : ready.scratch.isWithin place = false := by
  cases within : ready.scratch.isWithin place with
  | false => rfl
  | true =>
      have differ : place ≠ ready.scratch := by
        rintro rfl
        obtain ⟨content, isFile⟩ := takes _ ready.get?_scratch
        cases isFile
      have above := Place.isWithin_parent within differ
      rw [beside] at above
      have gone := ready.get?_of_within grounded above
      rw [ready.get?_sourceDirectory linkFree grounded] at gone
      cases gone

end

end Ready

end Compile

end AssetCatalog
