import AssetCatalog.Proofs.Compile.Publishing
import AssetCatalog.Proofs.Compile.Telling
/-! # The law of the event trace

The compile of a catalog tells of its stages in a fixed order.  It tells of all of them exactly
when it answers, and of the first few when it is rejected.  If details are wanted, the copies
that have been told of are at every moment just those that have been made (`InStep`), so no event
runs ahead of the files or behind them. -/

set_option autoImplicit false

namespace AssetCatalog

def Progress.destination? : Progress → Option String
  | .copied destination => some destination
  | _ => none

def stagesOf (told : List Moment) : List String := told.map fun moment => moment.event.progress.stage

/-- Where the copies have gone to that have been told of. -/
def copiesTold (told : List Moment) : List String :=
  told.filterMap fun moment => moment.event.progress.destination?

theorem copiesTold_cons (moment : Moment) (rest : List Moment) :
    copiesTold (moment :: rest)
      = moment.event.progress.destination?.toList ++ copiesTold rest := by
  unfold copiesTold
  rw [List.filterMap_cons]
  cases moment.event.progress.destination? <;> rfl

/-- At each moment just those copies have been made that have been told of by then. -/
inductive InStep : List String → List Moment → List String → Prop where
  | ended (written : List String) : InStep written [] written
  | told {written last : List String} {moment : Moment} {rest : List Moment}
      (made : moment.work.written = written ++ moment.event.progress.destination?.toList)
      (further : InStep moment.work.written rest last) : InStep written (moment :: rest) last

namespace InStep

variable {written middle last : List String} {told further : List Moment} {moment : Moment}

@[simp] theorem nil_iff : InStep written [] last ↔ last = written := by
  constructor
  · intro inStep
    cases inStep
    rfl
  · rintro rfl
    exact .ended last

@[simp] theorem cons_iff : InStep written (moment :: told) last ↔
    moment.work.written = written ++ moment.event.progress.destination?.toList ∧
      InStep moment.work.written told last := by
  constructor
  · intro inStep
    cases inStep with
    | told made further => exact ⟨made, further⟩
  · rintro ⟨made, further⟩
    exact .told made further

theorem append (first : InStep written told middle) (second : InStep middle further last) :
    InStep written (told ++ further) last := by
  induction first with
  | ended => exact second
  | told made _ ih => exact .told made (ih second)

theorem last_eq (inStep : InStep written told last) : last = written ++ copiesTold told := by
  induction inStep with
  | ended written => simp [copiesTold]
  | told made _ ih => rw [ih, made, copiesTold_cons, List.append_assoc]

theorem written_eq (inStep : InStep written (told ++ moment :: further) last) :
    moment.work.written = written ++ copiesTold (told ++ [moment]) := by
  induction told generalizing written with
  | nil =>
      rw [List.nil_append, cons_iff] at inStep
      rw [inStep.1, List.nil_append, copiesTold_cons]
      simp [copiesTold]
  | cons earlier rest ih =>
      rw [List.cons_append, cons_iff] at inStep
      rw [ih inStep.2, inStep.1, List.cons_append, copiesTold_cons, List.append_assoc]

end InStep

def Request.stages (request : Request) : List String :=
  if request.verbose then
    ["validated", "staged", "invoking", "classified", "copied", "copied", "completed"]
  else ["validated", "staged", "classified", "completed"]

namespace Compile

variable {setting : Setting} {request : Request} {layout : Layout} {work after : Work}
  {steps : List CopyStep}

/-! ## The copies -/

theorem toldOfCopies_cons_of_ok {step : CopyStep} {middle : Work}
    (copied : Work.copy setting step work = (.ok (), middle)) :
    toldOfCopies setting request layout (step :: steps) work
      = detail request layout (.copied step.destination) middle
        ++ toldOfCopies setting request layout steps middle :=
  Deed.followedBy_of_ok copied

theorem toldOfCopies_cons_of_error {step : CopyStep} {cause : Cause} {middle : Work}
    (failed : Work.copy setting step work = (.error cause, middle)) :
    toldOfCopies setting request layout (step :: steps) work = [] :=
  Deed.followedBy_of_error failed

def copyStages (request : Request) (copies : List CopyStep) : List String :=
  if request.verbose then copies.map fun _ => "copied" else []

theorem stagesOf_detail_append (step : CopyStep) (work : Work) (told : List Moment)
    (stages : stagesOf told = copyStages request steps) :
    stagesOf (detail request layout (.copied step.destination) work ++ told)
      = copyStages request (step :: steps) := by
  unfold stagesOf copyStages at *
  unfold detail
  by_cases verbose : request.verbose = true
  · simp_all [moment, Progress.stage]
  · simp_all

theorem stages_of_copied {written : List String}
    (copied : Work.copyAll setting steps work = (.ok written, after)) :
    stagesOf (toldOfCopies setting request layout steps work) = copyStages request steps := by
  induction steps generalizing work written with
  | nil => simp [toldOfCopies, stagesOf, copyStages]
  | cons step rest ih =>
      obtain ⟨middle, others, first, further, _⟩ := Work.copyAll_cons_ok copied
      rw [toldOfCopies_cons_of_ok first]
      exact stagesOf_detail_append step middle _ (ih further)

/-- The copies that are told of when one has failed are those before it. -/
theorem stages_of_failed {cause : Cause}
    (failed : Work.copyAll setting steps work = (.error cause, after)) :
    ∃ done failing rest, steps = done ++ failing :: rest ∧
      stagesOf (toldOfCopies setting request layout steps work) = copyStages request done := by
  induction steps generalizing work with
  | nil => cases failed
  | cons step rest ih =>
      rw [Work.copyAll_cons] at failed
      split at failed
      · next first =>
        rw [toldOfCopies_cons_of_error first]
        exact ⟨[], step, rest, rfl, by simp [stagesOf, copyStages]⟩
      · next middle first =>
        split at failed
        · next further =>
          cases failed
          obtain ⟨done, failing, others, split, stages⟩ := ih further
          refine ⟨step :: done, failing, others, by rw [split]; rfl, ?_⟩
          rw [toldOfCopies_cons_of_ok first]
          exact stagesOf_detail_append step middle _ stages
        · cases failed

theorem stages_of_published {written : List String}
    (copied : Work.copyAll setting steps work = (.ok written, after)) :
    stagesOf (toldOfPlan setting request layout steps work)
      = copyStages request steps ++ ["completed"] := by
  unfold toldOfPlan
  rw [Deed.followedBy_of_ok copied, stagesOf, List.map_append]
  exact congrArg (· ++ ["completed"]) (stages_of_copied copied)

theorem stages_of_unpublished {cause : Cause}
    (failed : Work.copyAll setting steps work = (.error cause, after)) :
    ∃ done failing rest, steps = done ++ failing :: rest ∧
      stagesOf (toldOfPlan setting request layout steps work) = copyStages request done := by
  unfold toldOfPlan
  rw [Deed.followedBy_of_error failed, List.append_nil]
  exact stages_of_failed failed

theorem copies_inStep (verbose : request.verbose = true) :
    InStep work.written (toldOfCopies setting request layout steps work)
      (Work.copyAll setting steps work).2.written := by
  induction steps generalizing work with
  | nil => exact .ended work.written
  | cons step rest ih =>
      have notes := (Work.copy_notes setting step work).2.2.2
      rw [Work.copyAll_cons]
      split
      · next cause middle first =>
        rw [first] at notes
        rw [toldOfCopies_cons_of_error first]
        simpa using notes
      · next middle first =>
        rw [first] at notes
        have further := @ih middle
        rw [toldOfCopies_cons_of_ok first, detail, if_pos verbose]
        refine .told notes ?_
        split
        · next rest => rwa [rest] at further
        · next rest => rwa [rest] at further

/-- The event is about the catalog, and not about a command. -/
def About (layout : Layout) (moment : Moment) : Prop :=
  moment.event.catalog = layout.catalog ∧ ∀ command, moment.event.progress ≠ .invoking command

theorem about_of_mem_copies : ∀ told ∈ toldOfCopies setting request layout steps work,
    About layout told := by
  induction steps generalizing work with
  | nil => simp [toldOfCopies]
  | cons step rest ih =>
      cases first : Work.copy setting step work with
      | mk result middle =>
          cases result with
          | error cause => simp [toldOfCopies_cons_of_error first]
          | ok _ =>
              rw [toldOfCopies_cons_of_ok first]
              intro told member
              rcases List.mem_append.mp member with member | member
              · unfold detail at member
                split at member
                · rw [List.mem_singleton.mp member]
                  exact ⟨rfl, by simp [moment]⟩
                · cases member
              · exact ih told member

/-! ## Before and after the call of the compiler -/

namespace Ready

variable (ready : Ready setting request work)

def opening : List Moment :=
  moment ready.layout (.validated ready.layout.tag) work ::
    moment ready.layout (.staged ready.layout.iconPackage.name) ready.atCall ::
      detail request ready.layout (.invoking (setting.runner.command :: ready.call.arguments))
        ready.atCall

def closing : List Moment :=
  match ready.response.outcome with
  | .error _ => []
  | .ok outcome => toldOfOutcome setting request ready.layout outcome ready.returned

theorem told_eq : told setting request work = ready.opening ++ ready.closing := by
  have behind : (Work.call setting (argumentsFor request ready.layout ready.scratch)
      (some ready.scratch)).followedBy (toldOfOutcome setting request ready.layout) ready.atCall
        = ready.closing := by
    unfold Deed.followedBy closing
    rw [ready.calling]
    cases ready.response.outcome with
    | error message => rfl
    | ok outcome => rfl
  unfold told
  rw [ready.named]
  dsimp only
  rw [if_pos ready.packageThere]
  unfold toldInScratch
  rw [ready.opened]
  dsimp only
  unfold toldInside
  rw [Deed.followedBy_of_ok ready.staging, behind]
  rfl

theorem closing_of_refusal {cause : Cause} (refusal : ready.verdict = .error cause) :
    ready.closing = [] ∨ ready.closing = [moment ready.layout .classified ready.returned] := by
  unfold verdict at refusal
  unfold closing
  cases answered : ready.response.outcome with
  | error message => exact Or.inl rfl
  | ok outcome =>
      rw [answered] at refusal
      dsimp only at refusal ⊢
      unfold judge at refusal
      unfold toldOfOutcome
      cases read : readReply outcome with
      | error other => exact Or.inl rfl
      | ok reply =>
          rw [read] at refusal
          dsimp only at refusal ⊢
          cases judged : Report.ofReply? reply with
          | some report => exact Or.inl rfl
          | none =>
              rw [judged] at refusal
              dsimp only at refusal ⊢
              cases planned : Publication.plan ready.layout reply.results with
              | error fault => exact Or.inr rfl
              | ok steps =>
                  rw [planned] at refusal
                  cases refusal

theorem closing_of_verdict (verdict : ready.verdict = .ok steps) :
    ready.closing = moment ready.layout .classified ready.returned ::
      toldOfPlan setting request ready.layout steps ready.returned := by
  unfold Ready.verdict at verdict
  unfold closing
  cases answered : ready.response.outcome with
  | error message =>
      rw [answered] at verdict
      cases verdict
  | ok outcome =>
      rw [answered] at verdict
      obtain ⟨reply, read, quiet, planned⟩ := judge_eq_ok_iff_reply.mp verdict
      dsimp only
      unfold toldOfOutcome
      rw [read]
      dsimp only
      rw [quiet]
      dsimp only
      rw [planned]

theorem length_of_verdict (verdict : ready.verdict = .ok steps) : steps.length = 2 := by
  obtain ⟨files, lists, rfl⟩ := verdict_eq_ok_iff.mp verdict
  exact Publication.length_stepsFor lists.complete

end Ready

def openingStages (request : Request) : List String :=
  if request.verbose then ["validated", "staged", "invoking"] else ["validated", "staged"]

def closingStages (request : Request) : List String :=
  ["classified"] ++ (if request.verbose then ["copied", "copied"] else []) ++ ["completed"]

theorem stages_eq (request : Request) :
    request.stages = openingStages request ++ closingStages request := by
  unfold Request.stages openingStages closingStages
  cases request.verbose <;> rfl

theorem stages_opening (ready : Ready setting request work) :
    stagesOf ready.opening = openingStages request := by
  unfold stagesOf Ready.opening openingStages detail
  cases request.verbose <;> rfl

/-- A compile that has called the compiler closes with all stages, or it has been rejected. -/
theorem Course.stages_closing {result : Except Cause Compiled}
    (course : Course setting request work result after) (ready : Ready setting request work) :
    stagesOf ready.closing <+: closingStages request ∧
      (stagesOf ready.closing = closingStages request ↔ ∃ answer, result = .ok answer) := by
  cases course with
  | turnedAway unready => exact (unready ready).elim
  | unstaged unready _ => exact (unready ready).elim
  | refused other refusal =>
      obtain rfl := other.eq ready
      rcases other.closing_of_refusal refusal with told | told
      · simp [told, stagesOf, closingStages]
      · simp [told, stagesOf, closingStages, moment, Progress.stage]
  | stopped other verdict failed =>
      obtain rfl := other.eq ready
      obtain ⟨done, failing, rest, split, stages⟩ :=
        @stages_of_unpublished setting request other.layout _ _ _ _ failed
      have two := other.length_of_verdict verdict
      have fewer : done = [] ∨ ∃ step, done = [step] := by
        rw [split, List.length_append, List.length_cons] at two
        cases done with
        | nil => exact Or.inl rfl
        | cons step others =>
            have none : others.length = 0 := by
              rw [List.length_cons] at two
              omega
            exact Or.inr ⟨step, by rw [List.length_eq_zero_iff.mp none]⟩
      rw [other.closing_of_verdict verdict, stagesOf, List.map_cons]
      change "classified" :: stagesOf _ <+: _ ∧ ("classified" :: stagesOf _ = _ ↔ _)
      rw [stages]
      unfold copyStages closingStages
      rcases fewer with rfl | ⟨step, rfl⟩
      · cases request.verbose <;> simp
      · cases request.verbose <;> simp
  | published other verdict copied =>
      obtain rfl := other.eq ready
      have two := other.length_of_verdict verdict
      have whole : stagesOf other.closing = closingStages request := by
        rw [other.closing_of_verdict verdict, stagesOf, List.map_cons]
        change "classified" :: stagesOf _ = _
        rw [stages_of_published copied]
        obtain ⟨first, second, rfl⟩ := List.length_eq_two.mp two
        unfold copyStages closingStages
        cases request.verbose <;> rfl
      rw [whole]
      exact ⟨List.prefix_rfl, iff_of_true rfl ⟨_, rfl⟩⟩

theorem about_of_mem_plan : ∀ told ∈ toldOfPlan setting request layout steps work,
    About layout told := by
  intro told member
  rcases List.mem_append.mp member with member | member
  · exact about_of_mem_copies told member
  · unfold Deed.followedBy at member
    split at member
    · rw [List.mem_singleton.mp member]
      exact ⟨rfl, by simp [moment]⟩
    · cases member

theorem Ready.about_of_mem_closing (ready : Ready setting request work) :
    ∀ told ∈ ready.closing, About ready.layout told := by
  have classified : About ready.layout (moment ready.layout .classified ready.returned) :=
    ⟨rfl, by simp [moment]⟩
  cases verdict : ready.verdict with
  | error cause =>
      rcases ready.closing_of_refusal verdict with told | told
      · simp [told]
      · simpa [told] using classified
  | ok steps =>
      rw [ready.closing_of_verdict verdict]
      intro told member
      rcases List.mem_cons.mp member with rfl | member
      · exact classified
      · exact about_of_mem_plan told member

theorem plan_inStep (verbose : request.verbose = true) :
    InStep work.written (toldOfPlan setting request layout steps work)
      (Work.copyAll setting steps work).2.written := by
  refine InStep.append (copies_inStep verbose) ?_
  unfold Deed.followedBy
  split
  · next copied => simp [copied, moment, Progress.destination?]
  · next failed => simp

theorem Course.closing_inStep {result : Except Cause Compiled}
    (course : Course setting request work result after) (ready : Ready setting request work)
    (verbose : request.verbose = true) : InStep work.written ready.closing after.written := by
  have start : ready.returned.written = work.written := rfl
  cases verdict : ready.verdict with
  | error cause =>
      have left : after.written = work.written := by
        rw [course.left_of_refusal ready verdict]
        rfl
      rw [left]
      rcases ready.closing_of_refusal verdict with told | told
      · simp [told]
      · simp [told, moment, Progress.destination?, start]
  | ok steps =>
      obtain ⟨_, left⟩ := course.of_verdict ready verdict
      rw [ready.closing_of_verdict verdict, left]
      exact .told (by simp [moment, Progress.destination?, start]) (plan_inStep verbose)

/-! ## The whole trace -/

theorem told_of_unready (unready : Ready setting request work → False) :
    told setting request work = [] ∨ ∃ layout,
      Layout.ofPath setting.directory request.catalog = .ok layout ∧
        told setting request work = [moment layout (.validated layout.tag) work] := by
  unfold told
  cases named : Layout.ofPath setting.directory request.catalog with
  | error fault => exact Or.inl rfl
  | ok layout =>
      refine Or.inr ⟨layout, rfl, ?_⟩
      dsimp only
      split
      · next there =>
        unfold toldInScratch
        cases opened : setting.scratchPlace scratchBeginning work.tree work.scratches with
        | error cause => rfl
        | ok scratch =>
            cases packed : (work.opened scratch).tree.stage layout.iconPackage
                (scratch.enter stagedName) with
            | error fault =>
                obtain ⟨failure, refused⟩ := stageDeed_of_error packed
                simp [toldInside, Deed.followedBy_of_error refused]
            | ok staged =>
                exact (unready ⟨layout, scratch, staged, named, there, opened, packed⟩).elim
      · rfl

theorem Course.of_unready {result : Except Cause Compiled}
    (course : Course setting request work result after)
    (unready : Ready setting request work → False) :
    (∃ cause, result = .error cause) ∧ after.written = work.written := by
  cases course with
  | turnedAway _ => exact ⟨⟨_, rfl⟩, rfl⟩
  | unstaged _ _ => exact ⟨⟨_, rfl⟩, rfl⟩
  | refused ready _ => exact (unready ready).elim
  | stopped ready _ _ => exact (unready ready).elim
  | published ready _ _ => exact (unready ready).elim

theorem Course.written_of_answer {answer : Compiled}
    (course : Course setting request work (.ok answer) after) :
    after.written = work.written ++ answer.written := by
  cases course with
  | published ready verdict copied => exact (Work.copyAll_notes copied).2.1

theorem Ready.opening_inStep (ready : Ready setting request work) :
    InStep work.written ready.opening work.written := by
  have start : ready.atCall.written = work.written := rfl
  unfold Ready.opening detail
  split <;> simp [moment, Progress.destination?, start]

theorem Ready.of_mem_opening (ready : Ready setting request work) : ∀ told ∈ ready.opening,
    told.event.catalog = ready.layout.catalog ∧ ∀ command,
      told.event.progress = .invoking command →
        command = setting.runner.command :: ready.call.arguments := by
  unfold Ready.opening detail
  split <;> simp [moment]

/-- What is demanded of the events that the compile of a catalog tells. -/
structure TraceLaw (setting : Setting) (request : Request) (before : RunState)
    (result : Except Cause Compiled) (after : RunState) (trace : List Moment) : Prop where
  moments : after.moments = before.moments ++ trace
  deliveries : after.deliveries = before.deliveries ++ deliveriesOf setting.handlers trace
  begun : stagesOf trace <+: request.stages
  whole_iff : stagesOf trace = request.stages ↔ ∃ answer, result = .ok answer
  catalog : ∀ told ∈ trace, told.event.catalog = setting.directory.resolve request.catalog
  command : ∀ told ∈ trace, ∀ command, told.event.progress = .invoking command →
    ∃ call, after.calls = before.calls ++ [call] ∧
      command = setting.runner.command :: call.arguments
  inStep : request.verbose = true → ∀ earlier told later, trace = earlier ++ told :: later →
    told.work.written = before.written ++ copiesTold (earlier ++ [told])
  atEnd : request.verbose = true → after.written = before.written ++ copiesTold trace
  answered : request.verbose = true → ∀ answer, result = .ok answer →
    answer.written = copiesTold trace

/-- The demands on what has been written follow from one that can be passed along the trace. -/
theorem traceLaw_of_inStep {state : RunState}
    (begun : stagesOf (told setting request state.toWork) <+: request.stages)
    (whole_iff : stagesOf (told setting request state.toWork) = request.stages
      ↔ ∃ answer, (one setting request state).1 = .ok answer)
    (catalog : ∀ moment ∈ told setting request state.toWork,
      moment.event.catalog = setting.directory.resolve request.catalog)
    (command : ∀ moment ∈ told setting request state.toWork, ∀ command,
      moment.event.progress = .invoking command →
        ∃ call, (one setting request state).2.calls = state.calls ++ [call] ∧
          command = setting.runner.command :: call.arguments)
    (inStep : request.verbose = true → InStep state.written
      (told setting request state.toWork) (one setting request state).2.written) :
    TraceLaw setting request state (one setting request state).1 (one setting request state).2
      (told setting request state.toWork) := by
  obtain ⟨moments, deliveries⟩ := tells_one setting request state
  refine ⟨moments, deliveries, begun, whole_iff, catalog, command, ?_, ?_, ?_⟩
  · intro verbose earlier moment later split
    have inStep := inStep verbose
    rw [split] at inStep
    exact inStep.written_eq
  · intro verbose
    exact (inStep verbose).last_eq
  · intro verbose answer ok
    have course := course_one setting request state
    rw [ok] at course
    have last := (inStep verbose).last_eq
    rw [course.written_of_answer] at last
    exact List.append_cancel_left last

theorem traceLaw_of_ready {state : RunState} (ready : Ready setting request state.toWork) :
    TraceLaw setting request state (one setting request state).1 (one setting request state).2
      (told setting request state.toWork) := by
  have course := course_one setting request state
  obtain ⟨closes, closes_iff⟩ := course.stages_closing ready
  have named : ready.layout.catalog = setting.directory.resolve request.catalog := by
    obtain ⟨_, _, _, _, parts⟩ := Layout.ofPath_eq_ok_iff.mp ready.named
    rw [parts]
    rfl
  have stages : stagesOf (told setting request state.toWork)
      = openingStages request ++ stagesOf ready.closing := by
    rw [ready.told_eq, ← stages_opening ready]
    exact List.map_append
  apply traceLaw_of_inStep
  · rw [stages, stages_eq]
    exact (List.prefix_append_right_inj _).mpr closes
  · rw [stages, stages_eq, List.append_cancel_left_eq]
    exact closes_iff
  · intro told member
    rw [ready.told_eq] at member
    rw [← named]
    rcases List.mem_append.mp member with member | member
    · exact (ready.of_mem_opening told member).1
    · exact (ready.about_of_mem_closing told member).1
  · intro told member command isCommand
    rw [ready.told_eq] at member
    refine ⟨ready.call, (course.calls.1 ready).1, ?_⟩
    rcases List.mem_append.mp member with member | member
    · exact (ready.of_mem_opening told member).2 command isCommand
    · exact absurd isCommand ((ready.about_of_mem_closing told member).2 command)
  · intro verbose
    rw [ready.told_eq]
    exact ready.opening_inStep.append (course.closing_inStep ready verbose)

theorem traceLaw_of_unready {state : RunState}
    (unready : Ready setting request state.toWork → False) :
    TraceLaw setting request state (one setting request state).1 (one setting request state).2
      (told setting request state.toWork) := by
  have course := course_one setting request state
  obtain ⟨⟨cause, rejected⟩, written⟩ := course.of_unready unready
  apply traceLaw_of_inStep
  · rcases told_of_unready unready with none | ⟨layout, _, one⟩
    · simp [none, stagesOf]
    · rw [one]
      unfold stagesOf Request.stages
      split <;> simp [moment, Progress.stage]
  · refine iff_of_false ?_ (by simp [rejected])
    rcases told_of_unready unready with none | ⟨layout, _, one⟩
    · rw [none]
      unfold stagesOf Request.stages
      split <;> simp
    · rw [one]
      unfold stagesOf Request.stages
      split <;> simp
  · rcases told_of_unready unready with none | ⟨layout, named, one⟩
    · simp [none]
    · obtain ⟨_, _, _, _, parts⟩ := Layout.ofPath_eq_ok_iff.mp named
      simp [one, moment, parts, Layout.ofNames]
  · rcases told_of_unready unready with none | ⟨layout, _, one⟩
    · simp [none]
    · simp [one, moment]
  · intro _
    rw [written]
    rcases told_of_unready unready with none | ⟨layout, _, one⟩
    · simp [none]
    · simp [one, moment, Progress.destination?]

/-- The compile of a catalog keeps the law of the event trace, however it ends and whoever
follows it. -/
theorem event_trace_law (setting : Setting) (request : Request) (state : RunState) :
    ∃ trace, TraceLaw setting request state (one setting request state).1
      (one setting request state).2 trace := by
  rcases Classical.em (Nonempty (Ready setting request state.toWork)) with ⟨⟨ready⟩⟩ | unready
  · exact ⟨_, traceLaw_of_ready ready⟩
  · exact ⟨_, traceLaw_of_unready fun ready => unready ⟨ready⟩⟩

end Compile

end AssetCatalog
