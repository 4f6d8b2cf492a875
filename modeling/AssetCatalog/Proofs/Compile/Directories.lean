import AssetCatalog.Proofs.Compile.Batch
import AssetCatalog.Proofs.FileTree.Routes
/-! # Directories stay where they are

Whatever links there are, a copy makes no directory and takes none away, and what it adds lies
in a directory that was there before.  So the same directories are there before and after every
compile, and the files are those of a file system again (`after_keepsDirectories`).

The one thing that a copy can take away is what stands at its destination when the source turns
out to be a directory.  That is a file, or a link to the file that has been begun. -/

set_option autoImplicit false

namespace AssetCatalog

namespace FileTree

/-- The directories are the same, and what is new lies in one of them. -/
structure KeepsDirectories (before after : FileTree) : Prop where
  directories : ∀ place, after.get? place = some .directory ↔ before.get? place = some .directory
  housed : ∀ place entry, after.get? place = some entry →
    before.get? place = some entry ∨ before.get? place.parent = some .directory

variable {before middle after tree : FileTree}

theorem keepsDirectories_of_same (same : after.Same before) : KeepsDirectories before after :=
  ⟨fun place => by rw [same place], fun place entry found => by rw [← same place]; exact .inl found⟩

theorem KeepsDirectories.trans (first : KeepsDirectories before middle)
    (second : KeepsDirectories middle after) : KeepsDirectories before after := by
  refine ⟨fun place => (second.directories place).trans (first.directories place), ?_⟩
  intro place entry found
  rcases second.housed place entry found with there | above
  · exact first.housed place entry there
  · exact .inr ((first.directories _).mp above)

theorem KeepsDirectories.grounded (keeps : KeepsDirectories before after)
    (grounded : before.Grounded) : after.Grounded := by
  intro place entry found
  rw [keeps.directories]
  rcases keeps.housed place entry found with there | above
  · exact grounded place entry there
  · exact above

/-! ## Copies -/

theorem Walk.not_directory_of_last {purpose : Purpose} {links : Nat} {here : Place}
    {name : String} {spot : Spot} (walk : Walk tree purpose links here [name] spot)
    (ordinary : Ordinary name) (other : ∀ place, spot ≠ .directory place) :
    tree.get? (here.enter name) ≠ some .directory := by
  intro found
  cases walk with
  | skipped skip _ =>
      rcases skip with rfl | rfl
      · exact ordinary.1 rfl
      · exact ordinary.2.1 rfl
  | back _ => exact ordinary.2.2.1 rfl
  | directory _ _ further =>
      cases further
      exact other _ rfl
  | link _ lies _ | file _ lies | free _ lies => simp [lies] at found

theorem Receives.walk {directory destination place : Place}
    (received : tree.Receives directory destination.text place) : ∃ spot,
      Walk tree .make mostLinks Place.root destination.names spot ∧ spot.place = place ∧
        ∀ place, spot ≠ .directory place := by
  have walk : ∀ spot, tree.locate .make directory destination.text = .ok spot →
      Walk tree .make mostLinks Place.root destination.names spot := by
    intro spot located
    have walk := (locate_eq_ok_iff.mp located).2.2
    rw [← List.append_nil (Path.segments _), walk_text_iff, List.append_nil] at walk
    exact walk
  rcases received with located | ⟨content, located⟩
  · exact ⟨_, walk _ located, rfl, by simp⟩
  · exact ⟨_, walk _ located, rfl, by simp⟩

theorem Receives.directory_above {directory destination place : Place}
    (received : tree.Receives directory destination.text place) :
    tree.get? place.parent = some .directory := by
  obtain ⟨spot, walk, rfl, other⟩ := received.walk
  have reached := walk.reached (paved_root tree)
  cases spot with
  | directory place => exact absurd rfl (other place)
  | file place content => exact reached.1.get?
  | free place => exact reached.1.get?

theorem get?_withdraw_of_receives {directory destination place : Place}
    (received : tree.Receives directory destination.text place) : ∃ own,
      tree.get? own ≠ some .directory ∧ ∀ other,
        (tree.withdraw directory destination.text place).get? other = if other = own then none
          else if other = place then some (.file "") else tree.get? other := by
  have takes := received.takesFile
  obtain ⟨spot, walk, _, noDirectory⟩ := received.walk
  have notRoot : destination ≠ Place.root := by
    rintro rfl
    cases walk
    exact noDirectory _ rfl
  have ordinary := Place.ordinary_name notRoot
  rw [Place.names_eq_concat notRoot] at walk
  obtain ⟨middle, fewer, _, front, last⟩ := walk.split _ (by simp)
  have free := last.not_directory_of_last ordinary noDirectory
  refine ⟨middle.enter destination.name, free, ?_⟩
  have begun := front.alike (alike_put "" takes takes.ne_root)
  have way : (tree.put place (.file "")).follow .use mostLinks (startOf directory destination.text)
      ("" :: destination.parent.names) = .ok (.directory middle) := by
    rw [startOf, if_pos (Place.isAbsolute_text destination)]
    exact follow_of_walk (.skipped (Or.inl rfl) begun)
  have name : (("" :: destination.parent.names) ++ [destination.name]).getLast?.getD ""
      = destination.name := by
    rw [List.getLast?_concat]
    rfl
  have own : (tree.put place (.file "")).ownPlace directory destination.text
      = some (middle.enter destination.name) := by
    simp only [ownPlace, Place.segments_text_concat notRoot, name, List.dropLast_concat, way]
  intro other
  simp only [withdraw, own]
  rw [get?_erase _ _ _ (ne_root_of_not_directory free), get?_put _ _ _ _ takes.ne_root]

/-- A copy may put a file to a place and take away what is no directory. -/
theorem keepsDirectories_of_changes {place : Place} (takes : before.TakesFile place)
    (above : before.get? place.parent = some .directory)
    (changes : ∀ other, after.get? other = before.get? other ∨
      (other = place ∧ ∃ content, after.get? other = some (.file content)) ∨
      (before.get? other ≠ some .directory ∧ after.get? other = none)) :
    KeepsDirectories before after := by
  constructor
  · intro other
    rcases changes other with same | ⟨rfl, content, put⟩ | ⟨noDirectory, gone⟩
    · rw [same]
    · have noDirectory : before.get? other ≠ some .directory := by
        intro found
        obtain ⟨_, isFile⟩ := takes _ found
        cases isFile
      simp [put, noDirectory]
    · simp [gone, noDirectory]
  · intro other entry found
    rcases changes other with same | ⟨rfl, _⟩ | ⟨_, gone⟩
    · rw [same] at found
      exact .inl found
    · exact .inr above
    · rw [gone] at found
      cases found

theorem Copying.keepsDirectories {directory destination : Place} {source : String}
    {result : FileTree × Except SystemFault Unit}
    (copying : Copying tree directory source destination.text result) :
    KeepsDirectories tree result.1 := by
  cases copying with
  | refused _ => exact keepsDirectories_of_same (Same.refl tree)
  | done _ received stays =>
      refine keepsDirectories_of_changes received.takesFile received.directory_above ?_
      intro other
      rw [stays other]
      split
      · next same => exact .inr (.inl ⟨same, _, rfl⟩)
      · exact .inl rfl
  | withdrawn _ received =>
      obtain ⟨own, noDirectory, gone⟩ := get?_withdraw_of_receives received
      refine keepsDirectories_of_changes received.takesFile received.directory_above ?_
      intro other
      dsimp only
      rw [gone other]
      split
      · next same => exact .inr (.inr ⟨same ▸ noDirectory, rfl⟩)
      · split
        · next same => exact .inr (.inl ⟨same, _, rfl⟩)
        · exact .inl rfl

end FileTree

namespace Work

variable {setting : Setting} {step : CopyStep} {steps : List CopyStep}

theorem copy_keepsDirectories (work : Work) {destination : Place}
    (text : step.destination = destination.text) :
    work.tree.KeepsDirectories (copy setting step work).2.tree := by
  have copying := FileTree.copying work.tree setting.directory step.source step.destination
  rw [text] at copying
  have keeps := copying.keepsDirectories
  unfold copy
  dsimp only
  rw [text]
  split
  · exact FileTree.keepsDirectories_of_same (FileTree.Same.refl work.tree)
  · next copied =>
    rw [copied] at keeps
    exact keeps
  · next copied =>
    rw [copied] at keeps
    exact keeps

theorem copyAll_keepsDirectories
    (texts : ∀ step ∈ steps, ∃ destination : Place, step.destination = destination.text)
    (work : Work) : work.tree.KeepsDirectories (copyAll setting steps work).2.tree := by
  induction steps generalizing work with
  | nil => exact FileTree.keepsDirectories_of_same (FileTree.Same.refl work.tree)
  | cons step rest ih =>
      obtain ⟨destination, text⟩ := texts step List.mem_cons_self
      have first : work.tree.KeepsDirectories (copy setting step work).2.tree :=
        copy_keepsDirectories work text
      have further := fun middle => ih (fun other member =>
        texts other (List.mem_cons_of_mem _ member)) middle
      rw [copyAll_cons]
      split
      · next copied =>
        rw [copied] at first
        exact first
      · next middle copied =>
        rw [copied] at first
        have both := first.trans (further middle)
        split
        · next copies =>
          rw [copies] at both
          exact both
        · next copies =>
          rw [copies] at both
          exact both

end Work

namespace Compile

section

variable {setting : Setting} {request : Request} {work after : Work}
  {result : Except Cause Compiled}

/-- What is kept while the scratch directory is there is kept when it is gone. -/
theorem Ready.keepsDirectories_closed (ready : Ready setting request work)
    (grounded : work.tree.Grounded) (keeps : ready.returned.tree.KeepsDirectories after.tree) :
    work.tree.KeepsDirectories (after.closed ready.scratch).tree := by
  have closed : ∀ place, (after.closed ready.scratch).tree.get? place
      = if ready.scratch.isWithin place then none else after.tree.get? place :=
    Work.get?_closed ready.scratch_ne_root
  constructor
  · intro place
    rw [closed]
    cases within : ready.scratch.isWithin place with
    | true => simp [ready.get?_of_within grounded within]
    | false =>
        rw [← ready.get?_returned within, ← keeps.directories]
        rfl
  · intro place entry found
    rw [closed] at found
    cases within : ready.scratch.isWithin place with
    | true => simp [within] at found
    | false =>
        have outside : ready.scratch.isWithin place.parent = false := by
          rw [Bool.eq_false_iff]
          intro inside
          have part : place.parent.isWithin place = true := Place.isWithin_of_parent place
          rw [Place.isWithin_trans inside part] at within
          cases within
        rw [within] at found
        rcases keeps.housed place entry found with there | above
        · rw [ready.get?_returned within] at there
          exact .inl there
        · rw [ready.get?_returned outside] at above
          exact .inr above

theorem Course.keepsDirectories (course : Course setting request work result after)
    (grounded : work.tree.Grounded) : work.tree.KeepsDirectories after.tree := by
  by_cases clean : ∃ (ready : Ready setting request work) (files : List String),
      ready.Lists files
  · obtain ⟨ready, files, lists⟩ := clean
    obtain ⟨_, rfl⟩ :=
      course.of_verdict ready (Ready.verdict_eq_ok_iff.mpr ⟨files, lists, rfl⟩)
    apply ready.keepsDirectories_closed grounded
    apply Work.copyAll_keepsDirectories
    intro step member
    obtain ⟨destination, _, text⟩ := Publication.destination_of_mem member
    exact ⟨destination, text⟩
  · exact FileTree.keepsDirectories_of_same (course.same_of_unclean grounded clean).1

end

/-- The directories are the same before and after compiles. -/
theorem after_keepsDirectories {setting : Setting} {target : String} {verbose : Bool}
    {state : RunState} (grounded : state.tree.Grounded) (catalogs : List String) :
    state.tree.KeepsDirectories (after setting target verbose catalogs state).tree := by
  induction catalogs generalizing state with
  | nil => exact FileTree.keepsDirectories_of_same (FileTree.Same.refl state.tree)
  | cons catalog rest ih =>
      have first := (course_one setting ⟨catalog, target, verbose⟩ state).keepsDirectories grounded
      rw [after_cons]
      exact first.trans (ih (first.grounded grounded))

end Compile

end AssetCatalog
