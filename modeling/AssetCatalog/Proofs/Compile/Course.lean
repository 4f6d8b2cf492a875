import AssetCatalog.Proofs.Compile.Copying
/-! # The course of a compile

A compile gets as far as the call of the compiler exactly when it is `Ready`: the path names a
catalog, the icon package is there, a scratch directory can be made and the package staged in
it.  The call then has a response, and the response a verdict, which gives the copies to be made
or the cause for which none is made.  `Course` lists the five ways in which a compile can go,
and `course_one` says that `Compile.one` goes one of them from every state. -/

set_option autoImplicit false

namespace AssetCatalog

namespace Compile

/-- The compiler is called in the compile of the catalog. -/
structure Ready (setting : Setting) (request : Request) (work : Work) where
  layout : Layout
  scratch : Place
  staged : FileTree
  named : Layout.ofPath setting.directory request.catalog = .ok layout
  packageThere : work.tree.isOccupied Place.root layout.iconPackage.text = true
  opened : setting.scratchPlace scratchBeginning work.tree work.scratches = .ok scratch
  packed : (work.opened scratch).tree.stage layout.iconPackage (scratch.enter stagedName)
    = .ok staged

namespace Ready

variable {setting : Setting} {request : Request} {work : Work}

theorem eq (a b : Ready setting request work) : a = b := by
  obtain ⟨layout, scratch, staged, named, packageThere, opened, packed⟩ := a
  obtain ⟨layout', scratch', staged', named', packageThere', opened', packed'⟩ := b
  cases named.symm.trans named'
  cases opened.symm.trans opened'
  cases packed.symm.trans packed'
  rfl

def atCall (ready : Ready setting request work) : Work :=
  { work.opened ready.scratch with tree := ready.staged }

def call (ready : Ready setting request work) : Call :=
  ⟨argumentsFor request ready.layout ready.scratch, ready.staged⟩

def response (ready : Ready setting request work) : Response :=
  setting.runner.respond (work.calls ++ [ready.call])

def returned (ready : Ready setting request work) : Work :=
  { work.opened ready.scratch with
    tree := ready.response.leaves (some ready.scratch) ready.staged
    calls := work.calls ++ [ready.call] }

/-- The copies to be made, if the compiler has returned and left a clean outcome behind. -/
def verdict (ready : Ready setting request work) : Except Cause (List CopyStep) :=
  match ready.response.outcome with
  | .error message => .error (.brokenDown message)
  | .ok outcome => judge ready.layout outcome

end Ready

/-- How a compile can go, with its answer and the work that it leaves behind. -/
inductive Course (setting : Setting) (request : Request) (work : Work) :
    Except Cause Compiled → Work → Prop where
  | turnedAway {cause : Cause} (unready : Ready setting request work → False) :
      Course setting request work (.error cause) work
  | unstaged {cause : Cause} {scratch : Place} (unready : Ready setting request work → False)
      (opened : setting.scratchPlace scratchBeginning work.tree work.scratches = .ok scratch) :
      Course setting request work (.error cause) ((work.opened scratch).closed scratch)
  | refused {cause : Cause} (ready : Ready setting request work)
      (verdict : ready.verdict = .error cause) :
      Course setting request work (.error cause) (ready.returned.closed ready.scratch)
  | stopped {cause : Cause} {steps : List CopyStep} {after : Work}
      (ready : Ready setting request work) (verdict : ready.verdict = .ok steps)
      (failed : Work.copyAll setting steps ready.returned = (.error cause, after)) :
      Course setting request work (.error cause) (after.closed ready.scratch)
  | published {steps : List CopyStep} {written : List String} {after : Work}
      (ready : Ready setting request work) (verdict : ready.verdict = .ok steps)
      (copied : Work.copyAll setting steps ready.returned = (.ok written, after)) :
      Course setting request work (.ok (compiled ready.layout written))
        (after.closed ready.scratch)

section

variable {setting : Setting} {request : Request} {work : Work}

theorem deed_of_badName {fault : NameFault}
    (misnamed : Layout.ofPath setting.directory request.catalog = .error fault) :
    deed setting request work = (.error (.badName fault), work) := by
  unfold deed
  rw [Deed.andThen, misnamed]
  rfl

section

variable {layout : Layout} (named : Layout.ofPath setting.directory request.catalog = .ok layout)
include named

theorem deed_of_iconMissing
    (missing : work.tree.isOccupied Place.root layout.iconPackage.text = false) :
    deed setting request work = (.error (.iconMissing layout), work) := by
  unfold deed
  rw [Deed.andThen, named]
  dsimp only [Deed.ofExcept, Deed.answer]
  rw [Deed.andThen, Deed.files]
  dsimp only
  rw [missing]
  rfl

variable (there : work.tree.isOccupied Place.root layout.iconPackage.text = true)
include there

theorem deed_of_found : deed setting request work
    = Deed.inScratch setting scratchBeginning (insideDeed setting request layout) work := by
  unfold deed
  rw [Deed.andThen, named]
  dsimp only [Deed.ofExcept, Deed.answer]
  rw [Deed.andThen, Deed.files]
  dsimp only
  rw [there, if_pos (Eq.refl true)]

theorem deed_of_unopened {cause : Cause}
    (refused : setting.scratchPlace scratchBeginning work.tree work.scratches = .error cause) :
    deed setting request work = (.error cause, work) := by
  rw [deed_of_found named there]
  unfold Deed.inScratch
  rw [refused]

theorem deed_of_opened {scratch : Place}
    (opened : setting.scratchPlace scratchBeginning work.tree work.scratches = .ok scratch) :
    deed setting request work
      = ((insideDeed setting request layout scratch (work.opened scratch)).1,
        (insideDeed setting request layout scratch (work.opened scratch)).2.closed scratch) := by
  rw [deed_of_found named there]
  unfold Deed.inScratch
  rw [opened]

end

theorem stageDeed_of_ok {layout : Layout} {staged : Place} {tree : FileTree}
    (packed : work.tree.stage layout.iconPackage staged = .ok tree) :
    stageDeed layout staged work = (.ok (), { work with tree }) := by
  unfold stageDeed Deed.andThen Deed.files
  dsimp only
  rw [packed]
  rfl

theorem stageDeed_of_error {layout : Layout} {staged : Place} {fault : SystemFault}
    (refused : work.tree.stage layout.iconPackage staged = .error fault) :
    ∃ failure, stageDeed layout staged work = (.error (.system failure), work) := by
  unfold stageDeed Deed.andThen Deed.files
  dsimp only
  rw [refused]
  exact ⟨_, rfl⟩

theorem Ready.staging (ready : Ready setting request work) :
    stageDeed ready.layout (ready.scratch.enter stagedName) (work.opened ready.scratch)
      = (.ok (), ready.atCall) := stageDeed_of_ok ready.packed

theorem Ready.calling (ready : Ready setting request work) :
    Work.call setting (argumentsFor request ready.layout ready.scratch) (some ready.scratch)
        ready.atCall
      = (ready.response.outcome.mapError Cause.brokenDown, ready.returned) := rfl

theorem insideDeed_of_ready (ready : Ready setting request work) :
    insideDeed setting request ready.layout ready.scratch (work.opened ready.scratch)
      = match ready.verdict with
        | .error cause => (.error cause, ready.returned)
        | .ok steps =>
          match Work.copyAll setting steps ready.returned with
          | (.error cause, after) => (.error cause, after)
          | (.ok written, after) => (.ok (compiled ready.layout written), after) := by
  rw [insideDeed, Deed.andThen, ready.staging]
  dsimp only
  rw [Deed.andThen, ready.calling, Ready.verdict]
  cases ready.response.outcome with
  | error message => rfl
  | ok outcome =>
      simp only [Except.mapError]
      rw [publishDeed, Deed.andThen]
      cases judge ready.layout outcome with
      | error cause => rfl
      | ok steps =>
          dsimp only [Deed.ofExcept, Deed.answer]
          rw [Deed.andThen]
          cases Work.copyAll setting steps ready.returned with
          | mk result after =>
              cases result with
              | error cause => rfl
              | ok written => rfl

theorem insideDeed_of_not_staged {layout : Layout} {scratch : Place} {fault : SystemFault}
    (refused : (work.opened scratch).tree.stage layout.iconPackage (scratch.enter stagedName)
      = .error fault) :
    ∃ failure, insideDeed setting request layout scratch (work.opened scratch)
      = (.error (.system failure), work.opened scratch) := by
  obtain ⟨failure, staging⟩ := stageDeed_of_error refused
  refine ⟨failure, ?_⟩
  rw [insideDeed, Deed.andThen, staging]

theorem deed_of_unstaged {layout : Layout} {scratch : Place} {fault : SystemFault}
    (named : Layout.ofPath setting.directory request.catalog = .ok layout)
    (there : work.tree.isOccupied Place.root layout.iconPackage.text = true)
    (opened : setting.scratchPlace scratchBeginning work.tree work.scratches = .ok scratch)
    (refused : (work.opened scratch).tree.stage layout.iconPackage (scratch.enter stagedName)
      = .error fault) :
    ∃ failure, deed setting request work
      = (.error (.system failure), (work.opened scratch).closed scratch) := by
  obtain ⟨failure, inside⟩ := @insideDeed_of_not_staged setting request _ _ _ _ refused
  exact ⟨failure, by rw [deed_of_opened named there opened, inside]⟩

theorem course_of_opened {layout : Layout} {scratch : Place}
    (named : Layout.ofPath setting.directory request.catalog = .ok layout)
    (packageThere : work.tree.isOccupied Place.root layout.iconPackage.text = true)
    (opened : setting.scratchPlace scratchBeginning work.tree work.scratches = .ok scratch) :
    Course setting request work
      (insideDeed setting request layout scratch (work.opened scratch)).1
      ((insideDeed setting request layout scratch (work.opened scratch)).2.closed scratch) := by
  cases packed : (work.opened scratch).tree.stage layout.iconPackage (scratch.enter stagedName) with
  | error fault =>
      obtain ⟨_, inside⟩ := @insideDeed_of_not_staged setting request _ _ _ _ packed
      rw [inside]
      refine .unstaged (fun ready => ?_) opened
      have same : layout = ready.layout := Except.ok.inj (named.symm.trans ready.named)
      have place : scratch = ready.scratch := Except.ok.inj (opened.symm.trans ready.opened)
      rw [same, place, ready.packed] at packed
      cases packed
  | ok staged =>
      have inside := insideDeed_of_ready
        (⟨layout, scratch, staged, named, packageThere, opened, packed⟩ :
          Ready setting request work)
      dsimp only at inside
      rw [inside]
      split
      · next verdict => exact .refused _ verdict
      · next verdict =>
        split
        · next failed => exact .stopped _ verdict failed
        · next copied => exact .published _ verdict copied

theorem course (setting : Setting) (request : Request) (work : Work) :
    Course setting request work (deed setting request work).1 (deed setting request work).2 := by
  cases named : Layout.ofPath setting.directory request.catalog with
  | error fault =>
      rw [deed_of_badName named]
      refine .turnedAway fun ready => ?_
      cases named.symm.trans ready.named
  | ok layout =>
      cases there : work.tree.isOccupied Place.root layout.iconPackage.text with
      | false =>
          rw [deed_of_iconMissing named there]
          refine .turnedAway fun ready => ?_
          have same : layout = ready.layout := Except.ok.inj (named.symm.trans ready.named)
          rw [same, ready.packageThere] at there
          cases there
      | true =>
          cases opened : setting.scratchPlace scratchBeginning work.tree work.scratches with
          | error cause =>
              rw [deed_of_unopened named there opened]
              refine .turnedAway fun ready => ?_
              cases opened.symm.trans ready.opened
          | ok scratch =>
              have further := course_of_opened named there opened
              rw [deed_of_opened named there opened]
              generalize insideDeed setting request layout scratch (work.opened scratch) = ran
                at further ⊢
              exact further

/-- The compile of a catalog takes one of the five courses, from every state. -/
theorem course_one (setting : Setting) (request : Request) (state : RunState) :
    Course setting request state.toWork (one setting request state).1
      (one setting request state).2.toWork := by
  obtain ⟨sameResult, sameWork⟩ := does_one setting request state
  rw [sameResult, sameWork]
  exact course setting request state.toWork

theorem Course.of_refusal {result : Except Cause Compiled} {after : Work}
    (course : Course setting request work result after) (ready : Ready setting request work)
    {cause : Cause} (refusal : ready.verdict = .error cause) : result = .error cause := by
  cases course with
  | turnedAway unready => exact (unready ready).elim
  | unstaged unready _ => exact (unready ready).elim
  | refused ready' refusal' =>
      rw [ready'.eq ready] at refusal'
      cases refusal.symm.trans refusal'
      rfl
  | stopped ready' verdict _ | published ready' verdict _ =>
      rw [ready'.eq ready] at verdict
      cases verdict.symm.trans refusal

/-- A compile whose outcome is refused leaves the files as the compiler has left them. -/
theorem Course.left_of_refusal {result : Except Cause Compiled} {after : Work}
    (course : Course setting request work result after) (ready : Ready setting request work)
    {cause : Cause} (refusal : ready.verdict = .error cause) :
    after = ready.returned.closed ready.scratch := by
  cases course with
  | turnedAway unready => exact (unready ready).elim
  | unstaged unready _ => exact (unready ready).elim
  | refused other _ => rw [other.eq ready]
  | stopped other verdict _ | published other verdict _ =>
      rw [other.eq ready] at verdict
      cases verdict.symm.trans refusal

/-- The compiler is called once by a compile that gets ready, and not at all otherwise. -/
theorem Course.calls {result : Except Cause Compiled} {after : Work}
    (course : Course setting request work result after) :
    (∀ ready : Ready setting request work,
      after.calls = work.calls ++ [ready.call] ∧ after.scratches = work.scratches + 1) ∧
    ((Ready setting request work → False) → after.calls = work.calls) := by
  cases course with
  | turnedAway unready => exact ⟨fun ready => (unready ready).elim, fun _ => rfl⟩
  | unstaged unready _ => exact ⟨fun ready => (unready ready).elim, fun _ => rfl⟩
  | refused ready _ =>
      refine ⟨fun ready' => ?_, fun unready => (unready ready).elim⟩
      rw [ready'.eq ready]
      exact ⟨rfl, rfl⟩
  | @stopped _ steps _ ready _ copied | @published steps _ _ ready _ copied =>
      have kept := Work.copyAll_calls setting steps ready.returned
      rw [copied] at kept
      refine ⟨fun ready' => ?_, fun unready => (unready ready).elim⟩
      rw [ready'.eq ready]
      exact kept

theorem Course.of_verdict {result : Except Cause Compiled} {after : Work}
    (course : Course setting request work result after) (ready : Ready setting request work)
    {steps : List CopyStep} (verdict : ready.verdict = .ok steps) :
    result = (Work.copyAll setting steps ready.returned).1.map (compiled ready.layout) ∧
      after = (Work.copyAll setting steps ready.returned).2.closed ready.scratch := by
  cases course with
  | turnedAway unready => exact (unready ready).elim
  | unstaged unready _ => exact (unready ready).elim
  | refused ready' refusal =>
      rw [ready'.eq ready] at refusal
      cases verdict.symm.trans refusal
  | stopped ready' verdict' failed =>
      obtain rfl := ready'.eq ready
      cases verdict.symm.trans verdict'
      rw [failed]
      exact ⟨rfl, rfl⟩
  | published ready' verdict' copied =>
      obtain rfl := ready'.eq ready
      cases verdict.symm.trans verdict'
      rw [copied]
      exact ⟨rfl, rfl⟩

end

end Compile

end AssetCatalog
