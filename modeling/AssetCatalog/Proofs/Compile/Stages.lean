import AssetCatalog.Proofs.Compile.Publishing
/-! # The first stage that fails

The compile of a catalog goes through stages, and what is wrong at one of them can be wrong
whatever comes before: a compiler can leave an unclean reply that also lists the wrong files.
`Stage.Fails` says of each stage by itself when something is wrong there, and `stage_precedence`
that a compile is rejected for the first of the stages at which something is.

Nothing at all has been done when that is one of the first two stages. -/

set_option autoImplicit false

namespace AssetCatalog

/-- The stages of a compile, apart from those that only copy files. -/
inductive Stage where
  | naming
  | package
  | reading
  | shape
  | judgement
  | results
  | files
  | count
  | roles
  deriving DecidableEq

/-- The reply in what a compiler has left behind, whatever its shape. -/
def Reply.of? (outcome : ProcessOutcome) : Option Reply :=
  (PropertyList.read outcome.output).toOption.map
    (Reply.ofValue outcome.exitCode outcome.errorOutput)

namespace Stage

def all : List Stage :=
  [naming, package, reading, shape, judgement, results, files, count, roles]

def before (stage : Stage) : List Stage := all.takeWhile (· ≠ stage)

def Fails (setting : Setting) (request : Request) (tree : FileTree) (outcome : ProcessOutcome) :
    Stage → Prop
  | naming => ∃ fault, Layout.ofPath setting.directory request.catalog = .error fault
  | package => ∀ layout, Layout.ofPath setting.directory request.catalog = .ok layout →
      tree.isOccupied Place.root layout.iconPackage.text = false
  | reading => ∃ fault, PropertyList.read outcome.output = .error fault
  | shape => ∃ value, PropertyList.read outcome.output = .ok value ∧ Shape.compilation value ≠ []
  | judgement => ∃ reply, Reply.of? outcome = some reply ∧ Report.ofReply? reply ≠ none
  | results => ∃ reply, Reply.of? outcome = some reply ∧ reply.results = none
  | files => ∃ reply, Reply.of? outcome = some reply ∧ reply.results = some ⟨none⟩
  | count => ∃ reply files, Reply.of? outcome = some reply ∧ reply.results = some ⟨some files⟩ ∧
      files.length ≠ Publication.expectedCount
  | roles => ∃ reply files, Reply.of? outcome = some reply ∧ reply.results = some ⟨some files⟩ ∧
      ¬ ((∀ file ∈ files, ∃ role : OutputRole, Path.baseName file = role.fileName) ∧
        (files.map Path.baseName).Nodup)

/-- Something is wrong at the stage and at none before it. -/
structure First (setting : Setting) (request : Request) (tree : FileTree)
    (outcome : ProcessOutcome) (stage : Stage) : Prop where
  fails : stage.Fails setting request tree outcome
  passed : ∀ earlier ∈ stage.before, ¬ earlier.Fails setting request tree outcome

def family : Stage → Family
  | naming => .format
  | package => .catalog
  | _ => .compilation

def category : Stage → Category
  | naming => .format
  | package => .input
  | _ => .compilation

/-- The compiler is not called before these have been passed. -/
def IsEarly (stage : Stage) : Prop := stage = naming ∨ stage = package

theorem exists_first_of (fails : Stage → Prop) : ∀ stages : List Stage,
    (∀ stage ∈ stages, ¬ fails stage) ∨
      ∃ stage ∈ stages, fails stage ∧ ∀ earlier ∈ stages.takeWhile (· ≠ stage), ¬ fails earlier
  | [] => .inl (by simp)
  | stage :: others => by
      by_cases failing : fails stage
      · exact .inr ⟨stage, List.mem_cons_self, failing, by simp⟩
      · rcases exists_first_of fails others with passed | ⟨first, member, fails, before⟩
        · exact .inl (List.forall_mem_cons.mpr ⟨failing, passed⟩)
        · have other : stage ≠ first := fun same => failing (same ▸ fails)
          refine .inr ⟨first, List.mem_cons_of_mem _ member, fails, ?_⟩
          rw [List.takeWhile_cons_of_pos (by simpa using other)]
          exact List.forall_mem_cons.mpr ⟨failing, before⟩

theorem exists_first (setting : Setting) (request : Request) (tree : FileTree)
    (outcome : ProcessOutcome) :
    (∀ stage : Stage, ¬ stage.Fails setting request tree outcome) ∨
      ∃ stage, First setting request tree outcome stage := by
  have every : ∀ stage : Stage, stage ∈ all := by
    intro stage
    cases stage <;> decide
  rcases exists_first_of (Fails setting request tree outcome) all with
    passed | ⟨stage, _, fails, before⟩
  · exact .inl fun stage => passed stage (every stage)
  · exact .inr ⟨stage, fails, before⟩

theorem early_or_passed (setting : Setting) (request : Request) (tree : FileTree)
    (outcome : ProcessOutcome) :
    (∃ stage, First setting request tree outcome stage ∧ stage.IsEarly) ∨
      ∀ stage : Stage, stage.IsEarly → ¬ stage.Fails setting request tree outcome := by
  rcases exists_first setting request tree outcome with passed | ⟨stage, first⟩
  · exact .inr fun stage _ => passed stage
  · by_cases early : stage.IsEarly
    · exact .inl ⟨stage, first, early⟩
    · have behind : naming ∈ stage.before ∧ package ∈ stage.before := by
        cases stage with
        | naming => exact absurd (.inl rfl) early
        | package => exact absurd (.inr rfl) early
        | reading | shape | judgement | results | files | count | roles => decide
      refine .inr ?_
      rintro _ (rfl | rfl)
      · exact first.passed naming behind.1
      · exact first.passed package behind.2

/-- The failure for which a compile is rejected at a stage. -/
structure Makes (outcome : ProcessOutcome) (stage : Stage) (failure : Failure) : Prop where
  family : failure.family = stage.family
  category : failure.category = stage.category
  details : stage = reading ∨ stage = shape →
    failure.details = some (Cause.outcomeDetails outcome.exitCode outcome.errorOutput)
  report : failure.report
    = if stage = judgement then (Reply.of? outcome).bind Report.ofReply? else none
  message : ∀ report, failure.report = some report → failure.message = report.text

end Stage

namespace Compile

variable {setting : Setting} {request : Request} {work after : Work} {layout : Layout}
  {outcome : ProcessOutcome}

/-! ## The judgement, stage by stage -/

theorem judge_of_unreadable {fault : PropertyList.Fault}
    (unreadable : PropertyList.read outcome.output = .error fault) :
    judge layout outcome
      = .error (.replyUnreadable outcome.exitCode outcome.errorOutput fault) := by
  simp [judge, readReply, Reply.read, readShaped, unreadable, Except.map, Except.mapError]

theorem judge_of_misshapen (layout : Layout) {value : Value}
    (read : PropertyList.read outcome.output = .ok value)
    (misshapen : Shape.compilation value ≠ []) : ∃ issues, judge layout outcome
      = .error (.replyMisshapen outcome.exitCode outcome.errorOutput issues) := by
  cases issues : Shape.compilation value with
  | nil => exact absurd issues misshapen
  | cons issue others =>
      refine ⟨issue :: others, ?_⟩
      simp [judge, readReply, Reply.read, readShaped, read, issues, Except.map, Except.mapError]

theorem judge_of_shaped {value : Value} {reply : Reply}
    (read : PropertyList.read outcome.output = .ok value) (shaped : Shape.compilation value = [])
    (found : Reply.of? outcome = some reply) :
    judge layout outcome = match Report.ofReply? reply with
      | some report => .error (.unclean layout.catalog report)
      | none => (Publication.plan layout reply.results).mapError .unpublished := by
  have isReply : reply = Reply.ofValue outcome.exitCode outcome.errorOutput value := by
    rw [Reply.of?, read] at found
    exact (Option.some.inj found).symm
  have replied := readReply_eq_ok_iff.mpr ⟨value, read, shaped, isReply⟩
  cases reported : Report.ofReply? reply with
  | none => simp only [judge, replied, reported]
  | some report => simp only [judge, replied, reported]

theorem plan_of_roles (layout : Layout) {files : List String} {reply : Reply}
    (listed : reply.results = some ⟨some files⟩)
    (wrong : ¬ ((∀ file ∈ files, ∃ role : OutputRole, Path.baseName file = role.fileName) ∧
      (files.map Path.baseName).Nodup)) :
    ∃ fault, Publication.plan layout reply.results = .error fault := by
  cases planned : Publication.plan layout reply.results with
  | error fault => exact ⟨fault, rfl⟩
  | ok steps =>
      obtain ⟨files', listed', perm, _⟩ := Publication.plan_eq_ok_iff.mp planned
      cases listed.symm.trans listed'
      refine absurd ⟨?_, ?_⟩ wrong
      · intro file member
        have name := perm.mem_iff.mp (List.mem_map_of_mem member)
        obtain ⟨role, _, same⟩ := List.mem_map.mp name
        exact ⟨role, same.symm⟩
      · rw [perm.nodup_iff]
        decide

theorem plan_ok_of_roles (layout : Layout) {files : List String} {reply : Reply}
    (listed : reply.results = some ⟨some files⟩) (three : files.length = Publication.expectedCount)
    (known : ∀ file ∈ files, ∃ role : OutputRole, Path.baseName file = role.fileName)
    (different : (files.map Path.baseName).Nodup) :
    ∃ steps, Publication.plan layout reply.results = .ok steps := by
  have knownName : ∀ name ∈ files.map Path.baseName,
      ∃ role : OutputRole, name = role.fileName := by
    intro name member
    obtain ⟨file, listedFile, rfl⟩ := List.mem_map.mp member
    exact known file listedFile
  obtain ⟨roles, names⟩ := Publication.exists_roles knownName
  have distinct : roles.Nodup := by
    rw [names] at different
    exact different.of_map
  have enough : roles.length = Publication.expectedCount := by
    have lengths := congrArg List.length names
    rw [List.length_map, List.length_map] at lengths
    omega
  have perm := (Publication.perm_all_iff.mpr ⟨enough, distinct⟩).map OutputRole.fileName
  rw [← names] at perm
  exact ⟨_, Publication.plan_eq_ok_iff.mpr ⟨files, listed, perm, rfl⟩⟩

/-! ## Rejections -/

section

variable {stage : Stage} {tree : FileTree}
  (first : Stage.First setting request tree outcome stage)
include first

/-- Behind the shape of a reply, the reply is read and has its shape. -/
theorem shaped_of_first {reply : Reply} (found : Reply.of? outcome = some reply)
    (behind : Stage.shape ∈ stage.before) :
    ∃ value, PropertyList.read outcome.output = .ok value ∧ Shape.compilation value = [] := by
  have passed := first.passed .shape behind
  cases read : PropertyList.read outcome.output with
  | error fault =>
      rw [Reply.of?, read] at found
      cases found
  | ok value =>
      refine ⟨value, rfl, Decidable.byContradiction fun misshapen => passed ?_⟩
      exact ⟨value, read, misshapen⟩

/-- Behind the judgement a reply is clean, so only the plan can fail, and without a report. -/
theorem judge_of_plan {reply : Reply} (found : Reply.of? outcome = some reply)
    (planning : stage ∈ [Stage.results, .files, .count, .roles]) {fault : Publication.Fault}
    (planned : Publication.plan layout reply.results = .error fault) : ∃ cause failure,
    judge layout outcome = .error cause ∧ cause.failure? = some failure ∧
      stage.Makes outcome failure := by
  have behind : Stage.shape ∈ stage.before ∧ Stage.judgement ∈ stage.before := by
    simp only [List.mem_cons, List.not_mem_nil, or_false] at planning
    rcases planning with rfl | rfl | rfl | rfl <;> decide
  obtain ⟨value, read, shaped⟩ := shaped_of_first first found behind.1
  have clean : Report.ofReply? reply = none := by
    refine Decidable.byContradiction fun unclean => first.passed .judgement behind.2 ?_
    exact ⟨reply, found, unclean⟩
  refine ⟨.unpublished fault, _, ?_, rfl, ?_⟩
  · rw [judge_of_shaped read shaped found, clean, planned]
    rfl
  · simp only [List.mem_cons, List.not_mem_nil, or_false] at planning
    rcases planning with rfl | rfl | rfl | rfl <;>
      exact ⟨rfl, rfl, by simp, rfl, by simp [Cause.report?]⟩

end

theorem verdict_of_first {stage : Stage} (ready : Ready setting request work)
    (answered : ready.response.outcome = .ok outcome)
    (first : Stage.First setting request work.tree outcome stage) : ∃ cause failure,
    ready.verdict = .error cause ∧ cause.failure? = some failure ∧
      stage.Makes outcome failure := by
  have judged : ready.verdict = judge ready.layout outcome := by
    rw [Ready.verdict, answered]
  rw [judged]
  have fails := first.fails
  cases stage with
  | naming =>
      obtain ⟨fault, misnamed⟩ := fails
      cases misnamed.symm.trans ready.named
  | package =>
      cases (fails _ ready.named).symm.trans ready.packageThere
  | reading =>
      obtain ⟨fault, unreadable⟩ := fails
      refine ⟨_, _, judge_of_unreadable unreadable, rfl, rfl, rfl, fun _ => rfl, rfl, ?_⟩
      simp [Cause.report?]
  | shape =>
      obtain ⟨value, read, misshapen⟩ := fails
      obtain ⟨issues, refusal⟩ := judge_of_misshapen ready.layout read misshapen
      refine ⟨_, _, refusal, rfl, rfl, rfl, fun _ => rfl, rfl, ?_⟩
      simp [Cause.report?]
  | judgement =>
      obtain ⟨reply, found, unclean⟩ := fails
      obtain ⟨value, read, shaped⟩ := shaped_of_first first found (by decide)
      rw [judge_of_shaped read shaped found]
      cases reported : Report.ofReply? reply with
      | none => exact absurd reported unclean
      | some report =>
          refine ⟨_, _, rfl, rfl, rfl, rfl, by simp, ?_, ?_⟩
          · simp [found, reported, Cause.report?]
          · intro other same
            cases same
            rfl
  | results =>
      obtain ⟨reply, found, none⟩ := fails
      exact judge_of_plan first found (by decide) (by rw [none]; rfl)
  | files =>
      obtain ⟨reply, found, none⟩ := fails
      exact judge_of_plan first found (by decide) (by rw [none]; rfl)
  | count =>
      obtain ⟨reply, files, found, listed, other⟩ := fails
      have planned : Publication.plan ready.layout reply.results = .error (.count files) := by
        rw [listed, Publication.plan, if_neg other]
      exact judge_of_plan first found (by decide) planned
  | roles =>
      obtain ⟨reply, files, found, listed, wrong⟩ := fails
      obtain ⟨fault, planned⟩ := plan_of_roles ready.layout listed wrong
      exact judge_of_plan first found (by decide) planned

theorem verdict_of_passed (ready : Ready setting request work)
    (answered : ready.response.outcome = .ok outcome)
    (passed : ∀ stage, ¬ Stage.Fails setting request work.tree outcome stage) :
    ∃ steps, ready.verdict = .ok steps := by
  have judged : ready.verdict = judge ready.layout outcome := by
    rw [Ready.verdict, answered]
  rw [judged]
  cases read : PropertyList.read outcome.output with
  | error fault => exact absurd ⟨fault, read⟩ (passed .reading)
  | ok value =>
      have shaped : Shape.compilation value = [] :=
        Decidable.byContradiction fun misshapen => passed .shape ⟨value, read, misshapen⟩
      have found : Reply.of? outcome
          = some (Reply.ofValue outcome.exitCode outcome.errorOutput value) := by
        rw [Reply.of?, read]
        rfl
      generalize Reply.ofValue outcome.exitCode outcome.errorOutput value = reply at found
      have clean : Report.ofReply? reply = none :=
        Decidable.byContradiction fun unclean => passed .judgement ⟨reply, found, unclean⟩
      rw [judge_of_shaped read shaped found, clean]
      cases listed : reply.results with
      | none => exact absurd ⟨reply, found, listed⟩ (passed .results)
      | some results =>
          obtain ⟨_ | files⟩ := results
          · exact absurd ⟨reply, found, listed⟩ (passed .files)
          · have three : files.length = Publication.expectedCount :=
              Decidable.byContradiction fun other =>
                passed .count ⟨reply, files, found, listed, other⟩
            have right : (∀ file ∈ files, ∃ role : OutputRole, Path.baseName file = role.fileName) ∧
                (files.map Path.baseName).Nodup :=
              Classical.byContradiction fun wrong =>
                passed .roles ⟨reply, files, found, listed, wrong⟩
            obtain ⟨steps, planned⟩ :=
              plan_ok_of_roles ready.layout listed three right.1 right.2
            rw [listed] at planned
            exact ⟨steps, by rw [planned]; rfl⟩

/-! ## Refusals of the file system -/

/-- If the catalog has its name and its package but the compiler is not called, the file system
has refused something. -/
theorem deed_of_unready (named : Layout.ofPath setting.directory request.catalog = .ok layout)
    (there : work.tree.isOccupied Place.root layout.iconPackage.text = true)
    (unready : Ready setting request work → False) :
    ∃ failure, (deed setting request work).1 = .error (.system failure) := by
  cases opened : setting.scratchPlace scratchBeginning work.tree work.scratches with
  | error cause =>
      obtain ⟨failure, rfl⟩ := cause_of_scratchPlace opened
      exact ⟨failure, by rw [deed_of_unopened named there opened]⟩
  | ok scratch =>
      cases packed : (work.opened scratch).tree.stage layout.iconPackage
          (scratch.enter stagedName) with
      | ok staged => exact (unready ⟨layout, scratch, staged, named, there, opened, packed⟩).elim
      | error fault =>
          obtain ⟨failure, ended⟩ := deed_of_unstaged named there opened packed
          exact ⟨failure, by rw [ended]⟩

/-! ## The first stage decides -/

def Rejects (setting : Setting) (request : Request) (state : RunState) (outcome : ProcessOutcome)
    (stage : Stage) : Prop :=
  ∃ cause failure, (one setting request state).1 = .error cause ∧
    cause.failure? = some failure ∧ stage.Makes outcome failure

section

variable {state : RunState} {stage : Stage}

theorem rejects_of_early (first : Stage.First setting request state.tree outcome stage)
    (early : stage.IsEarly) :
    Rejects setting request state outcome stage ∧
      (one setting request state).2.toWork = state.toWork := by
  obtain ⟨sameResult, sameWork⟩ := does_one setting request state
  rw [Rejects, sameResult, sameWork]
  rcases early with rfl | rfl
  · obtain ⟨fault, misnamed⟩ := first.fails
    rw [deed_of_badName misnamed]
    exact ⟨⟨_, _, rfl, rfl, rfl, rfl, by simp, rfl, by simp [Cause.report?]⟩, rfl⟩
  · have passed := first.passed .naming (by decide)
    cases named : Layout.ofPath setting.directory request.catalog with
    | error fault => exact absurd ⟨fault, named⟩ passed
    | ok layout =>
        rw [deed_of_iconMissing named (first.fails layout named)]
        exact ⟨⟨_, _, rfl, rfl, rfl, rfl, by simp, rfl, by simp [Cause.report?]⟩, rfl⟩

theorem rejects_of_ready (ready : Ready setting request state.toWork)
    (answered : ready.response.outcome = .ok outcome)
    (first : Stage.First setting request state.tree outcome stage) :
    Rejects setting request state outcome stage := by
  obtain ⟨cause, failure, verdict, made, makes⟩ := verdict_of_first ready answered first
  exact ⟨cause, failure, (course_one setting request state).of_refusal ready verdict, made, makes⟩

theorem result_of_passed (ready : Ready setting request state.toWork)
    (answered : ready.response.outcome = .ok outcome)
    (passed : ∀ stage : Stage, ¬ stage.Fails setting request state.tree outcome) :
    (∃ answer, (one setting request state).1 = .ok answer) ∨
      ∃ failure, (one setting request state).1 = .error (.system failure) := by
  obtain ⟨steps, verdict⟩ := verdict_of_passed ready answered passed
  obtain ⟨result, _⟩ := (course_one setting request state).of_verdict ready verdict
  rw [result]
  cases copied : (Work.copyAll setting steps ready.returned).1 with
  | ok written => exact .inl ⟨_, rfl⟩
  | error cause =>
      obtain ⟨failure, rfl⟩ := Work.cause_of_copyAll copied
      exact .inr ⟨failure, rfl⟩

theorem result_of_unready (unready : Ready setting request state.toWork → False)
    (passed : ∀ stage : Stage, stage.IsEarly → ¬ stage.Fails setting request state.tree outcome) :
    ∃ failure, (one setting request state).1 = .error (.system failure) := by
  rw [(does_one setting request state).1]
  cases named : Layout.ofPath setting.directory request.catalog with
  | error fault => exact absurd ⟨fault, named⟩ (passed .naming (.inl rfl))
  | ok layout =>
      cases there : state.tree.isOccupied Place.root layout.iconPackage.text with
      | true => exact deed_of_unready named there unready
      | false =>
          refine absurd (fun layout' named' => ?_) (passed .package (.inr rfl))
          cases named.symm.trans named'
          exact there

/-- Only the judgement of a reply gives a compilation failure a report. -/
theorem report_iff_judgement {cause : Cause} {failure : Failure}
    (rejected : (one setting request state).1 = .error cause)
    (made : cause.failure? = some failure) (compilation : failure.family = .compilation) :
    failure.report ≠ none ↔ ∃ (ready : Ready setting request state.toWork) (outcome : _),
      ready.response.outcome = .ok outcome ∧
        Stage.First setting request state.tree outcome .judgement := by
  have makes : ∀ {outcome stage}, Rejects setting request state outcome stage →
      stage.Makes outcome failure := by
    rintro outcome stage ⟨cause', failure', rejected', made', makes⟩
    cases rejected.symm.trans rejected'
    cases made.symm.trans made'
    exact makes
  have refused : ∀ {failure}, (one setting request state).1 ≠ .error (.system failure) := by
    intro failure system
    cases rejected.symm.trans system
    cases made
  constructor
  · intro reported
    rcases Classical.em (Nonempty (Ready setting request state.toWork)) with ⟨⟨ready⟩⟩ | unready
    · cases answered : ready.response.outcome with
      | error message =>
          have broken : ready.verdict = .error (.brokenDown message) := by
            rw [Ready.verdict, answered]
          cases rejected.symm.trans ((course_one setting request state).of_refusal ready broken)
          cases made
      | ok outcome =>
          rcases Stage.exists_first setting request state.tree outcome with passed | ⟨stage, first⟩
          · rcases result_of_passed ready answered passed with ⟨answer, published⟩ | ⟨_, system⟩
            · cases rejected.symm.trans published
            · exact absurd system refused
          · have report := (makes (rejects_of_ready ready answered first)).report
            by_cases judged : stage = .judgement
            · subst judged
              exact ⟨ready, outcome, answered, first⟩
            · rw [if_neg judged] at report
              exact absurd report reported
    · have unready : Ready setting request state.toWork → False := fun ready => unready ⟨ready⟩
      rcases Stage.early_or_passed setting request state.tree ⟨0, [], ""⟩ with
        ⟨stage, first, early⟩ | passed
      · have family := (makes (rejects_of_early first early).1).family
        rw [compilation] at family
        rcases early with rfl | rfl <;> cases family
      · obtain ⟨_, system⟩ := result_of_unready unready passed
        exact absurd system refused
  · rintro ⟨ready, outcome, answered, first⟩
    have report := (makes (rejects_of_ready ready answered first)).report
    obtain ⟨reply, found, unclean⟩ := first.fails
    rw [report, if_pos rfl, found]
    exact unclean

end

/-- A compile is rejected for the first stage at which something is wrong.  Nothing has been done
if that stage is one of the first two; behind them the compiler is called once, in a scratch
directory made for it, unless the file system refuses that directory or the package in it.  Only
the file system can refuse what passes every stage. -/
theorem stage_precedence (setting : Setting) (request : Request) (state : RunState) :
    (∀ outcome stage, Stage.First setting request state.tree outcome stage → stage.IsEarly →
      Rejects setting request state outcome stage ∧
        (one setting request state).2.toWork = state.toWork) ∧
    (∀ ready : Ready setting request state.toWork,
      (one setting request state).2.calls = state.calls ++ [ready.call] ∧
      (one setting request state).2.scratches = state.scratches + 1 ∧
      ∀ outcome, ready.response.outcome = .ok outcome →
        (∀ stage, Stage.First setting request state.tree outcome stage →
          Rejects setting request state outcome stage) ∧
        ((∃ stage, Stage.First setting request state.tree outcome stage) ∨
          (∃ answer, (one setting request state).1 = .ok answer) ∨
          ∃ failure, (one setting request state).1 = .error (.system failure))) ∧
    (∀ outcome, (Ready setting request state.toWork → False) →
      (∀ stage : Stage, stage.IsEarly → ¬ stage.Fails setting request state.tree outcome) →
      (one setting request state).2.calls = state.calls ∧
        ∃ failure, (one setting request state).1 = .error (.system failure)) ∧
    (∀ cause failure, (one setting request state).1 = .error cause →
      cause.failure? = some failure → failure.family = .compilation →
      (failure.report ≠ none ↔ ∃ (ready : Ready setting request state.toWork) (outcome : _),
        ready.response.outcome = .ok outcome ∧
          Stage.First setting request state.tree outcome .judgement)) := by
  have course := course_one setting request state
  refine ⟨fun _ _ first early => rejects_of_early first early, fun ready => ?_,
    fun _ unready passed => ⟨course.calls.2 unready, result_of_unready unready passed⟩,
    fun _ _ rejected made compilation => report_iff_judgement rejected made compilation⟩
  obtain ⟨called, made⟩ := course.calls.1 ready
  refine ⟨called, made, fun outcome answered => ?_⟩
  refine ⟨fun _ first => rejects_of_ready ready answered first, ?_⟩
  rcases Stage.exists_first setting request state.tree outcome with passed | first
  · exact .inr (result_of_passed ready answered passed)
  · exact .inl first

end Compile

end AssetCatalog
