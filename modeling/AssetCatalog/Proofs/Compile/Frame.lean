import AssetCatalog.Proofs.Compile.Publishing
/-! # What a compile leaves as it was

Whatever becomes of a compile, its scratch directory is gone afterwards, and everything is as it
was but what lies where the two destinations lead to.  When the compile fails, a first part of
the plan has been copied and the rest has not, and nothing at all when no copy has succeeded.

It is taken for granted that files lie in directories, and that a copy that fails leaves things
alone (`Attempt.LeavesAlone`): that is so unless its source is a directory. -/

set_option autoImplicit false

namespace AssetCatalog

/-- If the copy fails, it has changed nothing. -/
def Attempt.LeavesAlone (directory : Place) (attempt : Attempt) : Prop :=
  ∀ tree fault, attempt.tree.copyFile directory attempt.step.source attempt.step.destination
    = (tree, .error fault) → tree.Same attempt.tree

/-- The copies that have been begun since. -/
def Work.begunSince (before after : Work) : List Attempt :=
  after.attempts.drop before.attempts.length

theorem Work.same_of_copy_error {setting : Setting} {step : CopyStep} {work after : Work}
    {cause : Cause} (alone : Attempt.LeavesAlone setting.directory ⟨step, work.tree⟩)
    (failed : copy setting step work = (.error cause, after)) : after.tree.Same work.tree := by
  unfold copy at failed
  dsimp only at failed
  split at failed
  · cases failed
    exact FileTree.Same.refl work.tree
  · cases failed
  · next copied =>
    cases failed
    exact alone _ _ copied

namespace Compile

section

variable {setting : Setting} {request : Request} {work after : Work}
  {result : Except Cause Compiled}

theorem Ready.begun_of_copy_error (ready : Ready setting request work) {done : List CopyStep}
    {failing : CopyStep} {middle copied : Work} {written : List String} {cause : Cause}
    (before : Work.copyAll setting done ready.returned = (.ok written, middle))
    (fails : Work.copy setting failing middle = (.error cause, copied)) :
    ⟨failing, middle.tree⟩ ∈ work.begunSince (copied.closed ready.scratch) := by
  have enough : work.attempts.length ≤ middle.attempts.length := by
    have lengths := congrArg List.length (Work.copyAll_notes before).2.2.1
    have start : ready.returned.attempts = work.attempts := rfl
    rw [List.length_append, List.length_map, List.length_map, start] at lengths
    omega
  have attempts := (Work.copy_notes setting failing middle).1
  rw [fails] at attempts
  have all : (copied.closed ready.scratch).attempts
      = middle.attempts ++ [⟨failing, middle.tree⟩] := attempts
  rw [Work.begunSince, all, List.drop_append_of_le_length enough]
  exact List.mem_append_right _ (List.mem_singleton.mpr rfl)

/-- In a compile with a clean outcome a first part of the plan has been done in the end, all of
it exactly when the compile has answered. -/
theorem Course.prefix_done (course : Course setting request work result after)
    (alone : ∀ attempt ∈ work.begunSince after, attempt.LeavesAlone setting.directory)
    (ready : Ready setting request work) {files : List String} (lists : ready.Lists files) :
    ∃ done rest copied, Publication.stepsFor ready.layout files = done ++ rest ∧
      Work.copyAll setting done ready.returned = (.ok (done.map CopyStep.destination), copied) ∧
      after.tree.Same (copied.closed ready.scratch).tree ∧
      after.written = work.written ++ done.map CopyStep.destination ∧
      (rest = [] ↔ ∃ answer, result = .ok answer) := by
  have verdict := Ready.verdict_eq_ok_iff.mpr ⟨files, lists, rfl⟩
  obtain ⟨answer, left⟩ := course.of_verdict ready verdict
  cases copies : Work.copyAll setting (Publication.stepsFor ready.layout files)
      ready.returned with
  | mk copyResult copied =>
      rw [copies] at answer left
      subst answer
      subst left
      cases copyResult with
      | ok written =>
          obtain ⟨rfl, notes, _⟩ := Work.copyAll_notes copies
          refine ⟨Publication.stepsFor ready.layout files, [], copied,
            (List.append_nil _).symm, copies, FileTree.Same.refl _, notes, ?_⟩
          exact ⟨fun _ => ⟨_, rfl⟩, fun _ => rfl⟩
      | error cause =>
          obtain ⟨done, failing, rest, middle, split, before, fails, written⟩ :=
            Work.copyAll_error copies
          have begun := ready.begun_of_copy_error before fails
          have kept := Work.same_of_copy_error (alone _ begun) fails
          refine ⟨done, failing :: rest, middle, split, before, ?_, written, ?_⟩
          · intro place
            rw [Work.get?_closed ready.scratch_ne_root, Work.get?_closed ready.scratch_ne_root,
              kept place]
          · constructor
            · intro empty
              cases empty
            · rintro ⟨answer, impossible⟩
              cases impossible

/-- A compile without a clean outcome has done nothing in the end. -/
theorem Course.same_of_unclean (course : Course setting request work result after)
    (grounded : work.tree.Grounded)
    (unclean : ¬ ∃ (ready : Ready setting request work) (files : List String),
      ready.Lists files) :
    after.tree.Same work.tree ∧ after.written = work.written := by
  cases course with
  | turnedAway _ => exact ⟨FileTree.Same.refl work.tree, rfl⟩
  | @unstaged cause scratch _ opened =>
      refine ⟨?_, rfl⟩
      intro place
      have free := free_of_scratchPlace opened
      have notRoot := FileTree.ne_root_of_free free
      rw [Work.get?_closed notRoot]
      cases within : scratch.isWithin place with
      | true => rw [if_pos rfl, grounded.get?_of_isWithin free within]
      | false =>
          have differ : place ≠ scratch := by
            rintro rfl
            rw [Place.isWithin_self] at within
            cases within
          rw [if_neg (by simp), Work.opened, FileTree.get?_put _ _ _ _ notRoot, if_neg differ]
  | refused ready _ => exact ⟨ready.closed_returned_same grounded, rfl⟩
  | stopped ready verdict _ =>
      obtain ⟨files, lists, _⟩ := Ready.verdict_eq_ok_iff.mp verdict
      exact absurd ⟨ready, files, lists⟩ unclean
  | published ready verdict _ =>
      obtain ⟨files, lists, _⟩ := Ready.verdict_eq_ok_iff.mp verdict
      exact absurd ⟨ready, files, lists⟩ unclean

theorem Course.scratch_gone (course : Course setting request work result after)
    (grounded : work.tree.Grounded) {scratch : Place}
    (opened : setting.scratchPlace scratchBeginning work.tree work.scratches = .ok scratch)
    {place : Place} (within : scratch.isWithin place = true) : after.tree.get? place = none := by
  have free := free_of_scratchPlace opened
  cases course with
  | turnedAway _ => exact grounded.get?_of_isWithin free within
  | unstaged _ opened' =>
      cases opened.symm.trans opened'
      rw [Work.get?_closed (FileTree.ne_root_of_free free), if_pos within]
  | refused ready _ =>
      cases opened.symm.trans ready.opened
      rw [Work.get?_closed ready.scratch_ne_root, if_pos within]
  | stopped ready _ _ =>
      cases opened.symm.trans ready.opened
      rw [Work.get?_closed ready.scratch_ne_root, if_pos within]
  | published ready _ _ =>
      cases opened.symm.trans ready.opened
      rw [Work.get?_closed ready.scratch_ne_root, if_pos within]

theorem Course.frame (course : Course setting request work result after)
    (grounded : work.tree.Grounded)
    (alone : ∀ attempt ∈ work.begunSince after, attempt.LeavesAlone setting.directory)
    {place : Place} (elsewhere : ∀ (ready : Ready setting request work) (role : OutputRole)
      (destination : Place), role.destination? ready.layout = some destination →
        ¬ ready.returned.tree.Receives setting.directory destination.text place) :
    after.tree.get? place = work.tree.get? place := by
  by_cases clean : ∃ (ready : Ready setting request work) (files : List String),
      ready.Lists files
  · obtain ⟨ready, files, lists⟩ := clean
    obtain ⟨done, rest, copied, split, copies, same, _⟩ :=
      course.prefix_done alone ready lists
    rw [same place]
    apply ready.get?_closed grounded
    apply Work.copyAll_frame copies
    intro step member received
    have planned : step ∈ Publication.stepsFor ready.layout files := by
      rw [split]
      exact List.mem_append_left _ member
    obtain ⟨destination, goes, text⟩ := Publication.destination_of_mem planned
    rw [text] at received
    exact elsewhere ready step.role destination goes received
  · exact (course.same_of_unclean grounded clean).1 place

section

variable (course : Course setting request work result after) (grounded : work.tree.Grounded)
  (linkFree : work.tree.LinkFree) (noLinks : setting.runner.LeavesNoLinks)
include course grounded linkFree noLinks

/-- Without links a compile changes files only, and no others than the two destinations. -/
theorem Course.changes : work.tree.Alike after.tree ∧
    ∀ place, (∀ (ready : Ready setting request work) (role : OutputRole),
      role.destination? ready.layout ≠ some place) →
        after.tree.get? place = work.tree.get? place := by
  by_cases clean : ∃ (ready : Ready setting request work) (files : List String),
      ready.Lists files
  · obtain ⟨ready, files, lists⟩ := clean
    obtain ⟨_, rfl⟩ :=
      course.of_verdict ready (Ready.verdict_eq_ok_iff.mpr ⟨files, lists, rfl⟩)
    obtain ⟨alike, kept⟩ := @Work.copyAll_changes setting _ _ _
      (ready.linkFree_returned linkFree noLinks) fun step member =>
        @Publication.text_mem_of_mem ready.layout files step member
    constructor
    · exact ready.alike_closed grounded alike
    · intro place elsewhere
      apply ready.get?_closed grounded
      apply kept
      intro among
      rcases List.mem_pair.mp among with rfl | rfl
      · exact elsewhere ready .iconBundle rfl
      · exact elsewhere ready .assetArchive rfl
  · have same := (course.same_of_unclean grounded clean).1
    exact ⟨fun place => Or.inl (same place).symm, fun place _ => same place⟩

end

/-- A compile that fails has changed exactly what the first steps of the plan replace: nothing
unless the first copy has succeeded. -/
theorem Course.replaced_of_error {cause : Cause}
    (course : Course setting request work (.error cause) after) (grounded : work.tree.Grounded)
    (alone : ∀ attempt ∈ work.begunSince after, attempt.LeavesAlone setting.directory)
    (ready : Ready setting request work) {files : List String} (lists : ready.Lists files) :
    ∃ done rest, Publication.stepsFor ready.layout files = done ++ rest ∧ rest ≠ [] ∧
      after.written = work.written ++ done.map CopyStep.destination ∧
      (∀ place, (∀ step ∈ done,
          ¬ ready.returned.tree.Receives setting.directory step.destination place) →
        after.tree.get? place = work.tree.get? place) ∧
      ∀ step ∈ done, ∃ source place content,
        ready.returned.tree.locate .use setting.directory step.source
            = .ok (.file source content) ∧
          ready.returned.tree.Receives setting.directory step.destination place ∧
          after.tree.get? place
            = if ready.scratch.isWithin place then none else some (.file content) := by
  obtain ⟨done, rest, copied, split, copies, same, written, ended⟩ :=
    course.prefix_done alone ready lists
  have left : rest ≠ [] := by
    intro empty
    obtain ⟨answer, impossible⟩ := ended.mp empty
    cases impossible
  refine ⟨done, rest, split, left, written, ?_, ?_⟩
  · intro place untouched
    rw [same place]
    exact ready.get?_closed grounded (Work.copyAll_frame copies untouched)
  · have unmixed : Work.Unmixed ready.returned.tree setting.directory done := by
      have counts := congrArg List.length split
      rw [Publication.length_stepsFor lists.complete, List.length_append] at counts
      have some : 0 < rest.length := List.length_pos_iff.mpr left
      cases done with
      | nil => exact List.Pairwise.nil
      | cons step others =>
          have none : others = [] := by
            apply List.eq_nil_of_length_eq_zero
            rw [List.length_cons] at counts
            omega
          subst none
          exact List.pairwise_singleton _ step
    intro step member
    obtain ⟨source, place, content, read, received, lies⟩ :=
      Work.copyAll_delivers copies unmixed step member
    refine ⟨source, place, content, read, received, ?_⟩
    rw [same place, Work.get?_closed ready.scratch_ne_root, lies]

theorem Course.same_of_error {cause : Cause}
    (course : Course setting request work (.error cause) after) (grounded : work.tree.Grounded)
    (alone : ∀ attempt ∈ work.begunSince after, attempt.LeavesAlone setting.directory)
    (nothing : after.written = work.written) : after.tree.Same work.tree := by
  by_cases clean : ∃ (ready : Ready setting request work) (files : List String),
      ready.Lists files
  · obtain ⟨ready, files, lists⟩ := clean
    obtain ⟨done, rest, _, _, written, kept, _⟩ :=
      course.replaced_of_error grounded alone ready lists
    have none : done = [] := by
      rw [nothing] at written
      exact List.map_eq_nil_iff.mp (List.self_eq_append_right.mp written)
    intro place
    apply kept
    rw [none]
    simp
  · exact (course.same_of_unclean grounded clean).1

/-- Whatever becomes of a compile, its scratch directory is gone and everything is as it was
except where the destinations lead to; what a compile that fails has replaced are the
destinations of the copies that have succeeded. -/
theorem compile_frame (setting : Setting) (request : Request) (state : RunState)
    (grounded : state.tree.Grounded)
    (alone : ∀ attempt ∈ state.toWork.begunSince (one setting request state).2.toWork,
      attempt.LeavesAlone setting.directory) :
    (∀ scratch, setting.scratchPlace scratchBeginning state.tree state.scratches = .ok scratch →
      ∀ place, scratch.isWithin place = true →
        (one setting request state).2.tree.get? place = none) ∧
    (∀ place, (∀ (ready : Ready setting request state.toWork) (role : OutputRole)
        (destination : Place), role.destination? ready.layout = some destination →
          ¬ ready.returned.tree.Receives setting.directory destination.text place) →
      (one setting request state).2.tree.get? place = state.tree.get? place) ∧
    (state.tree.LinkFree → setting.runner.LeavesNoLinks → ∀ place,
      (∀ layout, Layout.ofPath setting.directory request.catalog = .ok layout →
        place ≠ layout.iconBundle ∧ place ≠ layout.assetArchive) →
      (one setting request state).2.tree.get? place = state.tree.get? place) ∧
    (∀ cause, (one setting request state).1 = .error cause →
      (one setting request state).2.written = state.written →
      (one setting request state).2.tree.Same state.tree) ∧
    (∀ cause, (one setting request state).1 = .error cause →
      ∀ (ready : Ready setting request state.toWork) (files : List String), ready.Lists files →
        ∃ done rest, Publication.stepsFor ready.layout files = done ++ rest ∧ rest ≠ [] ∧
          (one setting request state).2.written
            = state.written ++ done.map CopyStep.destination ∧
          (∀ place, (∀ step ∈ done,
              ¬ ready.returned.tree.Receives setting.directory step.destination place) →
            (one setting request state).2.tree.get? place = state.tree.get? place) ∧
          ∀ step ∈ done, ∃ source place content,
            ready.returned.tree.locate .use setting.directory step.source
                = .ok (.file source content) ∧
              ready.returned.tree.Receives setting.directory step.destination place ∧
              (one setting request state).2.tree.get? place
                = if ready.scratch.isWithin place then none else some (.file content)) := by
  have course := course_one setting request state
  refine ⟨?_, ?_, ?_, ?_, ?_⟩
  · intro scratch opened place within
    exact course.scratch_gone grounded opened within
  · intro place elsewhere
    exact course.frame grounded alone elsewhere
  · intro linkFree noLinks place elsewhere
    apply (course.changes grounded linkFree noLinks).2
    intro ready role goes
    obtain ⟨notIcon, notArchive⟩ := elsewhere ready.layout ready.named
    cases role with
    | partialInfoList => cases goes
    | iconBundle => exact notIcon (Option.some.inj goes).symm
    | assetArchive => exact notArchive (Option.some.inj goes).symm
  · intro cause failed nothing
    rw [failed] at course
    exact course.same_of_error grounded alone nothing
  · intro cause failed ready files lists
    rw [failed] at course
    exact course.replaced_of_error grounded alone ready lists

end

namespace Sample

def plain : List (Place × Entry) :=
  [(place "/w/app.icns", .file "old bundle"), (place "/w/Assets.car", .file "old archive")]

theorem plain_grounded : (tree plain).Grounded := by
  apply FileTree.grounded_of_entries
  decide +kernel

theorem plain_linkFree : (tree plain).LinkFree := by
  apply FileTree.linkFree_of_entries
  intro entry member target
  simp only [tree, plain, List.cons_append, List.nil_append, List.mem_cons, List.not_mem_nil,
    or_false] at member
  rcases member with rfl | rfl | rfl | rfl | rfl <;> simp

theorem scratchPlace_setting (contents : FileTree) :
    (setting contents).scratchPlace = (setting bothOutputs).scratchPlace := by
  unfold setting Setting.scratchPlace
  dsimp only

theorem plain_opened (contents : FileTree) :
    ((setting contents).scratchPlace scratchBeginning (tree plain) 0).toOption = some scratch := by
  rw [scratchPlace_setting]
  decide +kernel

def plainReady (contents : FileTree) :
    Ready (setting contents) request (Work.start (tree plain)) :=
  ready contents plain (by decide +kernel) (plain_opened contents) (by decide +kernel)

theorem plain_verdict (contents : FileTree) : (plainReady contents).verdict = .ok steps := judged

theorem plain_course (contents : FileTree) :
    (one (setting contents) request (RunState.start (tree plain))).1
        = (Work.copyAll (setting contents) steps (plainReady contents).returned).1.map
          (compiled layout) ∧
      (one (setting contents) request (RunState.start (tree plain))).2.toWork
        = (Work.copyAll (setting contents) steps (plainReady contents).returned).2.closed scratch :=
  (course_one (setting contents) request
    (RunState.start (tree plain))).of_verdict (plainReady contents) (plain_verdict contents)

theorem plain_leaves_alone : ∀ attempt ∈ (Work.start (tree plain)).begunSince
    (one (setting bothOutputs) request (RunState.start (tree plain))).2.toWork,
      attempt.LeavesAlone (place "/w") := by
  rw [(plain_course bothOutputs).2]
  have done : ∀ attempt ∈ (Work.start (tree plain)).begunSince
      ((Work.copyAll (setting bothOutputs) steps (plainReady bothOutputs).returned).2.closed
        scratch), (attempt.tree.copyFile (place "/w") attempt.step.source
          attempt.step.destination).2.isOk = true := by
    decide +kernel
  intro attempt begun after fault failed
  have succeeded := done attempt begun
  rw [failed] at succeeded
  cases succeeded

theorem plain_compile_frame :
    (tree plain).Grounded ∧
    (∀ attempt ∈ (Work.start (tree plain)).begunSince
      (one (setting bothOutputs) request (RunState.start (tree plain))).2.toWork,
        attempt.LeavesAlone (place "/w")) ∧
    (one (setting bothOutputs) request (RunState.start (tree plain))).2.tree.get?
      (scratch.enter "Assets.car") = none := by
  refine ⟨plain_grounded, plain_leaves_alone, ?_⟩
  exact (compile_frame (setting bothOutputs) request (RunState.start (tree plain))
    plain_grounded plain_leaves_alone).1 scratch (plainReady bothOutputs).opened
      (scratch.enter "Assets.car") (by decide +kernel)

/-- A destination that is a link to another file lets the compile replace that file. -/
theorem linked_file_replaced :
    place "/w/shared" ≠ layout.iconBundle ∧ place "/w/shared" ≠ layout.assetArchive ∧
    (tree linked).get? (place "/w/shared") = some (.file "old") ∧
    (one (setting bothOutputs) request (RunState.start (tree linked))).2.tree.get?
      (place "/w/shared") = some (.file "C") := by
  refine ⟨by decide +kernel, by decide +kernel, by decide +kernel, ?_⟩
  rw [linked_work]
  decide +kernel

end Sample

end Compile

end AssetCatalog
