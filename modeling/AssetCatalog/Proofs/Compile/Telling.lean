import AssetCatalog.Proofs.Compile.Deeds
/-! # What a compile tells

A run `Tells` the moments that are listed for the work it starts from: they come behind those
that the state has already, and each of them is delivered to all handlers, in the order in which
these are registered.  A handler that breaks down keeps nothing from those behind it.

`Compile.told` lists the moments of the compile of a catalog, found from what is done to files
and processes, without any look at the handlers.  `tells_one` says that these are what the
compile tells. -/

set_option autoImplicit false

namespace AssetCatalog

variable {α β : Type} {setting : Setting}

/-- The deliveries of moments to handlers: each moment goes to all of them before the next. -/
def deliveriesOf (handlers : List Handler) (told : List Moment) : List (String × Event) :=
  told.flatMap fun moment => handlers.map fun handler => (handler.name, moment.event)

def Deed.followedBy (deed : Deed α) (told : α → Work → List Moment) (work : Work) :
    List Moment :=
  match deed work with
  | (.ok value, work) => told value work
  | (.error _, _) => []

def toldInScratch (setting : Setting) (beginning : String) (told : Place → Work → List Moment)
    (work : Work) : List Moment :=
  match setting.scratchPlace beginning work.tree work.scratches with
  | .error _ => []
  | .ok scratch => told scratch (work.opened scratch)

section

variable {deed : Deed α} {told : α → Work → List Moment} {work after : Work}

theorem Deed.followedBy_of_ok {value : α} (did : deed work = (.ok value, after)) :
    deed.followedBy told work = told value after := by
  simp [followedBy, did]

theorem Deed.followedBy_of_error {cause : Cause} (did : deed work = (.error cause, after)) :
    deed.followedBy told work = [] := by
  simp [followedBy, did]

end

namespace Run

/-- The run tells these moments, which depend on the work that it starts from. -/
def Tells (setting : Setting) (run : Run α) (told : Work → List Moment) : Prop :=
  ∀ state, (run state).2.moments = state.moments ++ told state.toWork ∧
    (run state).2.deliveries
      = state.deliveries ++ deliveriesOf setting.handlers (told state.toWork)

def Mute (setting : Setting) (run : Run α) : Prop := Tells setting run fun _ => []

theorem mute_of_kept {run : Run α}
    (kept : ∀ state, (run state).2.moments = state.moments ∧
      (run state).2.deliveries = state.deliveries) : Mute setting run := by
  intro state
  simp [deliveriesOf, kept state]

theorem mute_answer (value : α) : Mute setting (pure value) := mute_of_kept fun _ => ⟨rfl, rfl⟩

theorem mute_stop (cause : Cause) : Mute setting (stop cause : Run α) :=
  mute_of_kept fun _ => ⟨rfl, rfl⟩

theorem mute_ofExcept {ε : Type} (causeOf : ε → Cause) (result : Except ε α) :
    Mute setting (ofExcept causeOf result) := by
  cases result with
  | ok value => exact mute_answer value
  | error fault => exact mute_stop (causeOf fault)

theorem mute_perform (deed : Deed α) : Mute setting (perform deed) :=
  mute_of_kept fun _ => ⟨rfl, rfl⟩

theorem mute_note (level : LogLevel) (message : String) (fields : List (String × Value)) :
    Mute setting (note level message fields) := mute_of_kept fun _ => ⟨rfl, rfl⟩

theorem Tells.andThen {first : Run α} {next : α → Run β} {deed : Deed α}
    {told : Work → List Moment} {further : α → Work → List Moment} (does : Does first deed)
    (tells : Tells setting first told) (tellsNext : ∀ value, Tells setting (next value)
      (further value)) :
    Tells setting (first >>= next) fun work => told work ++ deed.followedBy further work := by
  intro state
  obtain ⟨sameResult, sameWork⟩ := does state
  obtain ⟨moments, deliveries⟩ := tells state
  rw [bind_apply]
  cases ran : first state with
  | mk result after =>
      cases did : deed state.toWork with
      | mk result' work =>
          rw [ran, did] at sameResult sameWork
          rw [ran] at moments deliveries
          dsimp only at sameResult sameWork moments deliveries
          subst sameResult
          subst sameWork
          cases result with
          | error cause => simp [moments, deliveries, Deed.followedBy_of_error did]
          | ok value =>
              obtain ⟨momentsNext, deliveriesNext⟩ := tellsNext value after
              simp [momentsNext, deliveriesNext, moments, deliveries, deliveriesOf,
                Deed.followedBy_of_ok did]

theorem Tells.andThenTells {first : Run Unit} {next : Unit → Run α}
    {told further : Work → List Moment} (silent : Silent first) (tells : Tells setting first told)
    (tellsNext : ∀ value, Tells setting (next value) further) :
    Tells setting (first >>= next) fun work => told work ++ further work :=
  Tells.andThen silent tells tellsNext

theorem Mute.andThen {first : Run α} {next : α → Run β} {deed : Deed α}
    {further : α → Work → List Moment} (mute : Mute setting first) (does : Does first deed)
    (tellsNext : ∀ value, Tells setting (next value) (further value)) :
    Tells setting (first >>= next) (deed.followedBy further) :=
  Tells.andThen does mute tellsNext

theorem Mute.andThenTells {first : Run Unit} {next : Unit → Run α} {told : Work → List Moment}
    (mute : Mute setting first) (silent : Silent first)
    (tellsNext : ∀ value, Tells setting (next value) told) :
    Tells setting (first >>= next) told := Tells.andThenTells silent mute tellsNext

theorem Tells.found {ε : Type} {causeOf : ε → Cause} {value : α} {next : α → Run β}
    {told : Work → List Moment} (tells : Tells setting (next value) told) :
    Tells setting (ofExcept causeOf (.ok value) >>= next) told := tells

theorem Mute.stopped {first : Run α} {next : α → Run β} {cause : Cause}
    (mute : Mute setting first) (stops : Does first (Deed.stop cause)) :
    Mute setting (first >>= next) := by
  intro state
  obtain ⟨stopped, _⟩ := stops state
  obtain ⟨moments, deliveries⟩ := mute state
  rw [bind_apply]
  cases ran : first state with
  | mk result after =>
      rw [ran] at stopped moments deliveries
      cases stopped
      exact ⟨moments, deliveries⟩

theorem Tells.andThenMute {first : Run α} {next : α → Run β} {told : Work → List Moment}
    (tells : Tells setting first told) (mute : ∀ value, Mute setting (next value)) :
    Tells setting (first >>= next) told := by
  intro state
  obtain ⟨moments, deliveries⟩ := tells state
  rw [bind_apply]
  cases ran : first state with
  | mk result after =>
      rw [ran] at moments deliveries
      dsimp only at moments deliveries
      cases result with
      | error cause => exact ⟨moments, deliveries⟩
      | ok value =>
          obtain ⟨momentsNext, deliveriesNext⟩ := mute value after
          simp [momentsNext, deliveriesNext, moments, deliveries, deliveriesOf]

theorem deliverAll_deliveries (event : Event) (handlers : List Handler) (state : RunState) :
    (deliverAll event handlers state).2.moments = state.moments ∧
      (deliverAll event handlers state).2.deliveries
        = state.deliveries ++ handlers.map fun handler => (handler.name, event) := by
  induction handlers generalizing state with
  | nil => simp [deliverAll, answer]
  | cons handler rest ih =>
      rw [deliverAll, bind_apply]
      have one : ∃ log, deliver event handler state = (.ok (), { state with
          deliveries := state.deliveries ++ [(handler.name, event)], log := log }) := by
        unfold deliver
        dsimp only
        split
        · exact ⟨_, rfl⟩
        · exact ⟨_, rfl⟩
      obtain ⟨log, one⟩ := one
      rw [one]
      dsimp only
      obtain ⟨moments, deliveries⟩ := ih { state with
        deliveries := state.deliveries ++ [(handler.name, event)], log := log }
      exact ⟨moments, by rw [deliveries]; simp⟩

theorem tells_emit (event : Event) :
    Tells setting (emit setting event) fun work => [⟨event, work⟩] := by
  intro state
  obtain ⟨moments, deliveries⟩ := deliverAll_deliveries event setting.handlers
    { state with moments := state.moments ++ [⟨event, state.toWork⟩] }
  unfold emit
  rw [moments, deliveries]
  simp [deliveriesOf]

theorem tells_inScratch {beginning : String} {body : Place → Run α}
    {told : Place → Work → List Moment}
    (tells : ∀ scratch, Tells setting (body scratch) (told scratch)) :
    Tells setting (inScratch setting beginning body) (toldInScratch setting beginning told) := by
  intro state
  unfold inScratch makeScratch perform toldInScratch
  dsimp only
  cases setting.scratchPlace beginning state.tree state.scratches with
  | error cause => simp [deliveriesOf]
  | ok scratch => exact tells scratch { state with toWork := state.toWork.opened scratch }

end Run

/-! ## The compile of a catalog -/

namespace Compile

section

variable (setting : Setting) (request : Request) (layout : Layout)

def moment (progress : Progress) (work : Work) : Moment := ⟨⟨layout.catalog, progress⟩, work⟩

def detail (progress : Progress) (work : Work) : List Moment :=
  if request.verbose then [moment layout progress work] else []

def toldOfCopies : List CopyStep → Work → List Moment
  | [] => fun _ => []
  | step :: rest =>
    (Work.copy setting step).followedBy fun _ work =>
      detail request layout (.copied step.destination) work ++ toldOfCopies rest work

def toldOfPlan (steps : List CopyStep) (work : Work) : List Moment :=
  toldOfCopies setting request layout steps work
    ++ (Work.copyAll setting steps).followedBy
      (fun _ work => [moment layout .completed work]) work

def toldOfOutcome (outcome : ProcessOutcome) (work : Work) : List Moment :=
  match readReply outcome with
  | .error _ => []
  | .ok reply =>
    match Report.ofReply? reply with
    | some _ => []
    | none =>
      moment layout .classified work ::
        match Publication.plan layout reply.results with
        | .error _ => []
        | .ok steps => toldOfPlan setting request layout steps work

def toldInside (scratch : Place) : Work → List Moment :=
  (stageDeed layout (scratch.enter stagedName)).followedBy fun _ work =>
    moment layout (.staged layout.iconPackage.name) work ::
      (detail request layout
          (.invoking (setting.runner.command :: argumentsFor request layout scratch)) work
        ++ (Work.call setting (argumentsFor request layout scratch) (some scratch)).followedBy
          (toldOfOutcome setting request layout) work)

end

def told (setting : Setting) (request : Request) (work : Work) : List Moment :=
  match Layout.ofPath setting.directory request.catalog with
  | .error _ => []
  | .ok layout =>
    moment layout (.validated layout.tag) work ::
      if work.tree.isOccupied Place.root layout.iconPackage.text then
        toldInScratch setting scratchBeginning (toldInside setting request layout) work
      else []

section

variable {request : Request} {layout : Layout}

theorem tells_tell (progress : Progress) :
    Run.Tells setting (tell setting layout progress) fun work => [moment layout progress work] :=
  Run.tells_emit _

theorem tells_tellDetail (progress : Progress) :
    Run.Tells setting (tellDetail setting request layout progress)
      (detail request layout progress) := by
  unfold tellDetail detail
  split
  · exact tells_tell progress
  · exact Run.mute_answer ()

theorem mute_stage (staged : Place) : Run.Mute setting (stage layout staged) := by
  refine Run.Tells.andThenMute (Run.mute_perform _) fun tree => ?_
  refine Run.Tells.andThenMute (Run.mute_ofExcept _ _) fun tree => ?_
  exact Run.mute_perform _

theorem tells_publish (steps : List CopyStep) :
    Run.Tells setting
      (publish setting
        (fun step => tellDetail setting request layout (.copied step.destination)) steps)
      (toldOfCopies setting request layout steps) := by
  induction steps with
  | nil => exact Run.mute_answer []
  | cons step rest ih =>
      refine Run.Mute.andThenTells (Run.mute_note _ _ _) (Run.silent_note _ _ _) fun _ => ?_
      have copies : Run.Does (Run.copy setting step) (Work.copy setting step) :=
        Run.does_perform _
      refine Run.Mute.andThen (Run.mute_perform _) copies fun _ => ?_
      refine Run.Tells.andThenTells (silent_tellDetail _ _ _ _) (tells_tellDetail _)
        fun _ => ?_
      exact Run.Tells.andThenMute ih fun others => Run.mute_answer (step.destination :: others)

theorem tells_publishReply {reply : Reply} {steps : List CopyStep}
    (planned : Publication.plan layout reply.results = .ok steps) :
    Run.Tells setting (publishReply setting request layout reply)
      (toldOfPlan setting request layout steps) := by
  unfold publishReply
  rw [planned]
  apply Run.Tells.found
  rw [Publication.destinations_of_plan planned]
  apply Run.Tells.found
  have copies : Run.Does
      (publish setting
        (fun step => tellDetail setting request layout (.copied step.destination)) steps)
      (Work.copyAll setting steps) := does_publish (fun _ => silent_tellDetail _ _ _ _) steps
  refine Run.Tells.andThen copies (tells_publish steps) fun written => ?_
  refine Run.Mute.andThenTells (Run.mute_note _ _ _) (Run.silent_note _ _ _) fun _ => ?_
  exact Run.Tells.andThenMute (tells_tell .completed) fun _ => Run.mute_answer _

theorem tells_publishOutcome (outcome : ProcessOutcome) :
    Run.Tells setting
      (do
        let reply ← Run.ofExcept id (readReply outcome)
        requireClean layout reply
        tell setting layout .classified
        publishReply setting request layout reply)
      (toldOfOutcome setting request layout outcome) := by
  unfold toldOfOutcome
  cases readReply outcome with
  | error cause => exact Run.Mute.stopped (Run.mute_stop cause) (Run.does_stop cause)
  | ok reply =>
      apply Run.Tells.found
      dsimp only
      unfold requireClean
      cases Report.ofReply? reply with
      | some report =>
          have stops : Run.Does
              (do
                Run.note .error "actool reported failures"
                  [("catalog", .text layout.catalog.text),
                    ("reasons", .texts (report.reasons.map fun reason => reason.1.label))]
                Run.stop (.unclean layout.catalog report))
              (Deed.stop (α := Unit) (.unclean layout.catalog report)) :=
            Run.Silent.andThen (Run.silent_note _ _ _) (Run.does_stop _)
          refine Run.Mute.stopped ?_ stops
          exact Run.Mute.andThenTells (Run.mute_note _ _ _) (Run.silent_note _ _ _)
            fun _ => Run.mute_stop _
      | none =>
          refine Run.Mute.andThenTells (Run.mute_answer ()) (Run.does_answer ()) fun _ => ?_
          cases planned : Publication.plan layout reply.results with
          | error fault =>
              refine Run.Tells.andThenMute (tells_tell .classified) fun _ => ?_
              unfold publishReply
              rw [planned]
              exact Run.Mute.stopped (Run.mute_stop _) (Run.does_stop _)
          | ok steps =>
              have both := Run.Tells.andThenTells (silent_tell setting layout .classified)
                (tells_tell .classified) fun _ => @tells_publishReply setting request _ _ _ planned
              exact both

theorem tells_inside (scratch : Place) :
    Run.Tells setting (inside setting request layout scratch)
      (toldInside setting request layout scratch) := by
  have calling : Run.Tells setting
      (invoke setting request layout scratch (scratch.enter stagedName))
      (detail request layout
        (.invoking (setting.runner.command :: argumentsFor request layout scratch))) := by
    refine Run.Mute.andThenTells (Run.mute_note _ _ _) (Run.silent_note _ _ _) fun _ => ?_
    exact Run.Tells.andThenMute (tells_tellDetail _) fun _ => Run.mute_perform _
  have publishing := Run.Tells.andThen (does_invoke setting request layout scratch) calling
    (@tells_publishOutcome setting request layout)
  have staging := Run.Tells.andThenTells (silent_tell setting layout _)
    (tells_tell (.staged layout.iconPackage.name)) fun _ => publishing
  exact Run.Mute.andThen (mute_stage (scratch.enter stagedName))
    (does_stage layout (scratch.enter stagedName)) fun _ => staging

theorem tells_one (setting : Setting) (request : Request) :
    Run.Tells setting (one setting request) (told setting request) := by
  have packaged : ∀ layout, Run.Tells setting
      (do
        if (← Run.files).isOccupied Place.root layout.iconPackage.text then
          Run.inScratch setting scratchBeginning (inside setting request layout)
        else Run.stop (.iconMissing layout))
      (Deed.files.followedBy fun tree work =>
        if tree.isOccupied Place.root layout.iconPackage.text then
          toldInScratch setting scratchBeginning (toldInside setting request layout) work
        else []) := by
    intro layout
    refine Run.Mute.andThen (Run.mute_perform _) (Run.does_perform _) fun tree => ?_
    split
    · exact Run.tells_inScratch tells_inside
    · exact Run.mute_stop _
  unfold one told
  cases Layout.ofPath setting.directory request.catalog with
  | error fault => exact Run.Mute.stopped (Run.mute_stop _) (Run.does_stop _)
  | ok layout =>
      apply Run.Tells.found
      have both := Run.Tells.andThenTells (silent_tell setting layout _)
        (tells_tell (.validated layout.tag)) fun _ => packaged layout
      exact both

end

end Compile

end AssetCatalog
