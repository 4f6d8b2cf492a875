import AssetCatalog.Proofs.CommandLine.Protocol
import AssetCatalog.Proofs.Compile.Stages
/-! # Failures without a category

What the version gate and the build configuration refuse has a category, and so has what the
compile of a catalog rejects on its own account.  A refusal of the file system is passed on as it
is wherever a compile makes or copies files: at the scratch directory, at the staged package and
at the outputs.  `Uncategorised` lists these together with a runner that breaks down, and
`categories_of_failures` says that there is nothing else. -/

set_option autoImplicit false

namespace AssetCatalog

namespace Gate

variable {setting : Setting} {required : Version} {state : RunState} {outcome : ProcessOutcome}
  {cause : Cause}

theorem category_of_detect (undetected : detect outcome = .error cause) :
    cause.category? = some .capability := by
  unfold detect at undetected
  split at undetected
  · cases undetected
    rfl
  · split at undetected
    · cases undetected
      rfl
    · cases undetected
      rfl
    · split at undetected
      · cases undetected
      · cases undetected
        rfl

theorem category_of_accept {detected : Version} (old : accept required detected = .error cause) :
    cause.category? = some .capability := by
  unfold accept at old
  split at old
  · cases old
  · cases old
    rfl

theorem category_of_verify
    (answered : (setting.runner.respond (state.calls ++ [query state.tree])).outcome = .ok outcome)
    (refused : (verify setting required state).1 = .error cause) :
    cause.category? = some .capability := by
  rw [(verify_eq setting required state).2, answered] at refused
  dsimp only at refused
  split at refused
  · next undetected =>
    cases refused
    exact category_of_detect undetected
  · exact category_of_accept refused

end Gate

namespace Configuration

theorem category_of_target {setting : Setting} {checkout : String} {state : RunState}
    {cause : Cause} (refused : (target setting checkout state).1 = .error cause) :
    cause.category? = some .configuration := by
  rw [target_eq] at refused
  unfold targetOf targetIn at refused
  dsimp only at refused
  split at refused
  · cases refused
    rfl
  · next configuration _ =>
    cases extracted : DeploymentTarget.extract configuration with
    | ok target =>
        rw [extracted] at refused
        cases refused
    | error count =>
        rw [extracted] at refused
        cases refused
        rfl

end Configuration

namespace Compile

section

variable {setting : Setting} {request : Request} {work : Work} {state : RunState}
  {outcome : ProcessOutcome} {layout : Layout} {cause : Cause}

theorem category_of_judge (refused : judge layout outcome = .error cause) :
    cause.category? = some .compilation := by
  unfold judge at refused
  split at refused
  · next other unread =>
    cases refused
    unfold readReply at unread
    cases shown : Reply.read outcome with
    | ok reply =>
        rw [shown] at unread
        cases unread
    | error fault =>
        rw [shown] at unread
        cases fault <;> cases unread <;> rfl
  · split at refused
    · cases refused
      rfl
    · next reply _ _ _ =>
      cases planned : Publication.plan layout reply.results with
      | ok steps =>
          rw [planned] at refused
          cases refused
      | error fault =>
          rw [planned] at refused
          cases refused
          rfl

theorem category_of_verdict {ready : Ready setting request work}
    (refusal : ready.verdict = .error cause) :
    (∃ message, ready.response.outcome = .error message ∧ cause = .brokenDown message) ∨
      cause.category? = some .compilation := by
  unfold Ready.verdict at refusal
  split at refusal
  · next message broken =>
    cases refusal
    exact Or.inl ⟨message, broken, rfl⟩
  · exact Or.inr (category_of_judge refusal)

/-- How a catalog comes to be rejected, and for what. -/
inductive Rejection (setting : Setting) (request : Request) (work : Work) : Cause → Prop where
  | badName {fault : NameFault}
      (misnamed : Layout.ofPath setting.directory request.catalog = .error fault) :
      Rejection setting request work (.badName fault)
  | iconMissing {layout : Layout}
      (named : Layout.ofPath setting.directory request.catalog = .ok layout)
      (missing : work.tree.isOccupied Place.root layout.iconPackage.text = false) :
      Rejection setting request work (.iconMissing layout)
  | scratch {layout : Layout} {failure : SystemFailure}
      (named : Layout.ofPath setting.directory request.catalog = .ok layout)
      (there : work.tree.isOccupied Place.root layout.iconPackage.text = true)
      (refused : setting.scratchPlace scratchBeginning work.tree work.scratches
        = .error (.system failure)) :
      Rejection setting request work (.system failure)
  | staging {layout : Layout} {scratch : Place} {fault : SystemFault} {failure : SystemFailure}
      (named : Layout.ofPath setting.directory request.catalog = .ok layout)
      (there : work.tree.isOccupied Place.root layout.iconPackage.text = true)
      (opened : setting.scratchPlace scratchBeginning work.tree work.scratches = .ok scratch)
      (refused : (work.opened scratch).tree.stage layout.iconPackage (scratch.enter stagedName)
        = .error fault) :
      Rejection setting request work (.system failure)
  | verdict {cause : Cause} (ready : Ready setting request work)
      (refusal : ready.verdict = .error cause) : Rejection setting request work cause
  | copying {steps : List CopyStep} {failure : SystemFailure} (ready : Ready setting request work)
      (verdict : ready.verdict = .ok steps)
      (refused : (Work.copyAll setting steps ready.returned).1 = .error (.system failure)) :
      Rejection setting request work (.system failure)

section

variable (rejected : (one setting request state).1 = .error cause)
include rejected

theorem rejection_of_ready (ready : Ready setting request state.toWork) :
    Rejection setting request state.toWork cause := by
  have course := course_one setting request state
  cases verdict : ready.verdict with
  | error refusal =>
      cases rejected.symm.trans (course.of_refusal ready verdict)
      exact .verdict ready verdict
  | ok steps =>
      have result := rejected.symm.trans (course.of_verdict ready verdict).1
      cases copied : (Work.copyAll setting steps ready.returned).1 with
      | ok written =>
          rw [copied] at result
          cases result
      | error refusal =>
          obtain ⟨failure, rfl⟩ := Work.cause_of_copyAll copied
          rw [copied] at result
          cases result
          exact .copying ready verdict copied

theorem rejection_of_unready (unready : Ready setting request state.toWork → False) :
    Rejection setting request state.toWork cause := by
  have ended := (does_one setting request state).1.symm.trans rejected
  cases named : Layout.ofPath setting.directory request.catalog with
  | error fault =>
      rw [deed_of_badName named] at ended
      cases ended
      exact .badName named
  | ok layout =>
      cases there : state.tree.isOccupied Place.root layout.iconPackage.text with
      | false =>
          rw [deed_of_iconMissing named there] at ended
          cases ended
          exact .iconMissing named there
      | true =>
          cases opened : setting.scratchPlace scratchBeginning state.tree state.scratches with
          | error refusal =>
              obtain ⟨failure, rfl⟩ := cause_of_scratchPlace opened
              rw [deed_of_unopened named there opened] at ended
              cases ended
              exact .scratch named there opened
          | ok scratch =>
              cases packed : (state.toWork.opened scratch).tree.stage layout.iconPackage
                  (scratch.enter stagedName) with
              | ok staged =>
                  exact (unready ⟨layout, scratch, staged, named, there, opened, packed⟩).elim
              | error fault =>
                  obtain ⟨failure, unstaged⟩ :=
                    @deed_of_unstaged setting request _ _ _ _ named there opened packed
                  rw [unstaged] at ended
                  cases ended
                  exact .staging named there opened packed

theorem rejection_of_one : Rejection setting request state.toWork cause := by
  rcases Classical.em (Nonempty (Ready setting request state.toWork)) with ⟨⟨ready⟩⟩ | unready
  · exact rejection_of_ready rejected ready
  · exact rejection_of_unready rejected fun ready => unready ⟨ready⟩

end

/-- What ends the compile of a catalog without a category. -/
inductive Uncategorised (setting : Setting) (request : Request) (work : Work) : Prop where
  | scratch {layout : Layout} {cause : Cause}
      (named : Layout.ofPath setting.directory request.catalog = .ok layout)
      (there : work.tree.isOccupied Place.root layout.iconPackage.text = true)
      (refused : setting.scratchPlace scratchBeginning work.tree work.scratches = .error cause)
  | staging {layout : Layout} {scratch : Place} {fault : SystemFault}
      (named : Layout.ofPath setting.directory request.catalog = .ok layout)
      (there : work.tree.isOccupied Place.root layout.iconPackage.text = true)
      (opened : setting.scratchPlace scratchBeginning work.tree work.scratches = .ok scratch)
      (refused : (work.opened scratch).tree.stage layout.iconPackage (scratch.enter stagedName)
        = .error fault)
  | runner {message : String} (ready : Ready setting request work)
      (broken : ready.response.outcome = .error message)
  | copying {steps : List CopyStep} {cause : Cause} (ready : Ready setting request work)
      (verdict : ready.verdict = .ok steps)
      (refused : (Work.copyAll setting steps ready.returned).1 = .error cause)

theorem Uncategorised.rejects (uncategorised : Uncategorised setting request state.toWork) :
    ∃ cause, (one setting request state).1 = .error cause ∧ cause.category? = none := by
  cases uncategorised with
  | scratch named there refused =>
      obtain ⟨failure, rfl⟩ := cause_of_scratchPlace refused
      refine ⟨.system failure, ?_, rfl⟩
      rw [(does_one setting request state).1, deed_of_unopened named there refused]
  | staging named there opened refused =>
      obtain ⟨failure, ended⟩ := deed_of_unstaged named there opened refused
      refine ⟨.system failure, ?_, rfl⟩
      rw [(does_one setting request state).1, ended]
  | @runner message ready broken =>
      have verdict : ready.verdict = .error (.brokenDown message) := by
        rw [Ready.verdict, broken]
      exact ⟨_, (course_one setting request state).of_refusal ready verdict, rfl⟩
  | copying ready verdict refused =>
      obtain ⟨failure, rfl⟩ := Work.cause_of_copyAll refused
      refine ⟨.system failure, ?_, rfl⟩
      rw [((course_one setting request state).of_verdict ready verdict).1, refused]
      rfl

/-- A compile is rejected without a category in the four cases only. -/
theorem category_eq_none_iff (rejected : (one setting request state).1 = .error cause) :
    cause.category? = none ↔ Uncategorised setting request state.toWork := by
  constructor
  · intro plain
    cases rejection_of_one rejected with
    | badName _ => cases plain
    | iconMissing _ _ => cases plain
    | scratch named there refused => exact .scratch named there refused
    | staging named there opened refused => exact .staging named there opened refused
    | copying ready verdict refused => exact .copying ready verdict refused
    | verdict ready refusal =>
        rcases category_of_verdict refusal with ⟨message, broken, _⟩ | compilation
        · exact .runner ready broken
        · cases plain.symm.trans compilation
  · intro uncategorised
    obtain ⟨other, rejected', plain⟩ := uncategorised.rejects
    cases rejected.symm.trans rejected'
    exact plain

/-- What the gate and the configuration refuse has a category, and the compile of a catalog is
rejected without one in four cases, which are the only ones.  A batch ends with what its first
failing catalog is rejected for. -/
theorem categories_of_failures (setting : Setting) (state : RunState) :
    (∀ required outcome cause,
      (setting.runner.respond (state.calls ++ [Gate.query state.tree])).outcome = .ok outcome →
      (Gate.verify setting required state).1 = .error cause →
        cause.category? = some .capability) ∧
    (∀ checkout cause, (Configuration.target setting checkout state).1 = .error cause →
      cause.category? = some .configuration) ∧
    (∀ request,
      (Uncategorised setting request state.toWork →
        ∃ cause, (one setting request state).1 = .error cause ∧ cause.category? = none) ∧
      ∀ cause, (one setting request state).1 = .error cause →
        (cause.category? = none ↔ Uncategorised setting request state.toWork)) ∧
    (∀ catalogs target verbose cause, (all setting target verbose catalogs state).1 = .error cause →
      ∃ k catalog, catalogs[k]? = some catalog ∧
        (∀ i, i < k → ∃ answer, Answers setting target verbose catalogs state i answer) ∧
        (cause.category? = none ↔ Uncategorised setting ⟨catalog, target, verbose⟩
          (after setting target verbose (catalogs.take k) state).toWork)) := by
  refine ⟨fun _ _ _ answered refused => Gate.category_of_verify answered refused,
    fun _ _ refused => Configuration.category_of_target refused,
    fun _ => ⟨Uncategorised.rejects, fun _ rejected => category_eq_none_iff rejected⟩, ?_⟩
  intro catalogs target verbose cause failed
  obtain ⟨k, catalog, there, earlier, rejected⟩ := first_error_of_all failed
  exact ⟨k, catalog, there, earlier, category_eq_none_iff rejected⟩

end

namespace Sample

/-- An output that is listed and has not been left behind ends a compile without a category. -/
theorem missing_output_uncategorised :
    (plainReady iconOnly).response.outcome.isOk = true ∧
    ∃ cause, (one (setting iconOnly) request (RunState.start (tree plain))).1 = .error cause ∧
      cause.category? = none ∧ cause.failure? = none := by
  have failed : (Work.copyAll (setting iconOnly) steps (plainReady iconOnly).returned).1.isOk
      = false := by
    decide +kernel
  refine ⟨by decide +kernel, ?_⟩
  rw [(plain_course iconOnly).1]
  cases copied : (Work.copyAll (setting iconOnly) steps (plainReady iconOnly).returned).1 with
  | ok written =>
      rw [copied] at failed
      cases failed
  | error cause =>
      obtain ⟨failure, rfl⟩ := Work.cause_of_copyAll copied
      exact ⟨.system failure, rfl, rfl, rfl⟩

end Sample

end Compile

end AssetCatalog
