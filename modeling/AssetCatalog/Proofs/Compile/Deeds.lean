import AssetCatalog.Proofs.Compile.Judgement
/-! # What a compile does, apart from what it tells

A run `Does` a deed when it comes to the same answer and leaves the same work behind, from every
state.  What a run tells does nothing, so it can be left out on the way: `Compile.deed` is the
compile of a catalog without events, handlers and log, and `does_one` says that `Compile.one`
does it.  Neither the handlers nor the wish for details has any influence on the work. -/

set_option autoImplicit false

namespace AssetCatalog

variable {α β : Type}

namespace Deed

def answer (value : α) : Deed α := fun work => (.ok value, work)

def stop (cause : Cause) : Deed α := fun work => (.error cause, work)

def files : Deed FileTree := fun work => (.ok work.tree, work)

def ofExcept {ε : Type} (causeOf : ε → Cause) : Except ε α → Deed α
  | .ok value => answer value
  | .error fault => stop (causeOf fault)

def andThen (first : Deed α) (next : α → Deed β) : Deed β := fun work =>
  match first work with
  | (.ok value, work) => next value work
  | (.error cause, work) => (.error cause, work)

def inScratch (setting : Setting) (beginning : String) (body : Place → Deed α) : Deed α :=
  fun work =>
    match setting.scratchPlace beginning work.tree work.scratches with
    | .error cause => (.error cause, work)
    | .ok scratch =>
      let (result, work) := body scratch (work.opened scratch)
      (result, work.closed scratch)

end Deed

namespace Run

/-- The run answers as the deed does and leaves the same work behind. -/
def Does (run : Run α) (deed : Deed α) : Prop :=
  ∀ state, (run state).1 = (deed state.toWork).1 ∧ (run state).2.toWork = (deed state.toWork).2

/-- The run does nothing, whatever it tells. -/
def Silent (run : Run Unit) : Prop := Does run (Deed.answer ())

theorem does_answer (value : α) : Does (pure value) (Deed.answer value) := fun _ => ⟨rfl, rfl⟩

theorem does_stop (cause : Cause) : Does (stop cause : Run α) (Deed.stop cause) :=
  fun _ => ⟨rfl, rfl⟩

theorem does_ofExcept {ε : Type} (causeOf : ε → Cause) (result : Except ε α) :
    Does (ofExcept causeOf result) (Deed.ofExcept causeOf result) := by
  cases result with
  | ok value => exact does_answer value
  | error fault => exact does_stop (causeOf fault)

theorem does_perform (deed : Deed α) : Does (perform deed) deed := fun _ => ⟨rfl, rfl⟩

theorem Does.andThen {first : Run α} {next : α → Run β} {deed : Deed α} {further : α → Deed β}
    (does : Does first deed) (doesNext : ∀ value, Does (next value) (further value)) :
    Does (first >>= next) (Deed.andThen deed further) := by
  intro state
  obtain ⟨sameResult, sameWork⟩ := does state
  rw [bind_apply, Deed.andThen]
  cases ran : first state with
  | mk result after =>
      cases did : deed state.toWork with
      | mk result' work =>
          rw [ran, did] at sameResult sameWork
          dsimp only at sameResult sameWork
          subst sameResult
          subst sameWork
          cases result with
          | ok value => exact doesNext value after
          | error cause => exact ⟨rfl, rfl⟩

theorem Silent.andThen {first : Run Unit} {next : Unit → Run α} {deed : Deed α}
    (silent : Silent first) (does : Does (next ()) deed) : Does (first >>= next) deed := by
  have both : Does (first >>= next) (Deed.andThen (Deed.answer ()) fun _ => deed) :=
    Does.andThen silent fun _ => does
  exact both

theorem Does.found {ε : Type} {causeOf : ε → Cause} {value : α} {next : α → Run β}
    {deed : Deed β} (does : Does (next value) deed) :
    Does (ofExcept causeOf (.ok value) >>= next) deed := does

theorem Does.stopped {cause : Cause} {first : Run α} {next : α → Run β}
    (does : Does first (Deed.stop cause)) : Does (first >>= next) (Deed.stop cause) := by
  intro state
  obtain ⟨sameResult, sameWork⟩ := does state
  rw [bind_apply]
  cases ran : first state with
  | mk result after =>
      rw [ran] at sameResult sameWork
      cases sameResult
      exact ⟨rfl, sameWork⟩

theorem silent_note (level : LogLevel) (message : String) (fields : List (String × Value)) :
    Silent (note level message fields) := fun _ => ⟨rfl, rfl⟩

theorem silent_deliver (event : Event) (handler : Handler) : Silent (deliver event handler) := by
  intro state
  unfold deliver
  dsimp only
  split
  · exact ⟨rfl, rfl⟩
  · exact ⟨rfl, rfl⟩

theorem silent_deliverAll (event : Event) (handlers : List Handler) :
    Silent (deliverAll event handlers) := by
  induction handlers with
  | nil => exact does_answer ()
  | cons handler rest ih => exact Silent.andThen (silent_deliver event handler) ih

theorem silent_emit (setting : Setting) (event : Event) : Silent (emit setting event) :=
  fun state => silent_deliverAll event setting.handlers
    { state with moments := state.moments ++ [⟨event, state.toWork⟩] }

theorem does_inScratch {setting : Setting} {beginning : String} {body : Place → Run α}
    {deed : Place → Deed α} (does : ∀ scratch, Does (body scratch) (deed scratch)) :
    Does (inScratch setting beginning body) (Deed.inScratch setting beginning deed) := by
  intro state
  unfold inScratch makeScratch perform Deed.inScratch
  dsimp only
  cases setting.scratchPlace beginning state.tree state.scratches with
  | error cause => exact ⟨rfl, rfl⟩
  | ok scratch =>
      obtain ⟨sameResult, sameWork⟩ :=
        does scratch { state with toWork := state.toWork.opened scratch }
      dsimp only
      rw [sameResult, sameWork]
      exact ⟨rfl, rfl⟩

end Run

/-! ## The compile of a catalog -/

def Work.copyAll (setting : Setting) : List CopyStep → Deed (List String)
  | [] => Deed.answer []
  | step :: rest =>
    Deed.andThen (Work.copy setting step) fun _ =>
      Deed.andThen (Work.copyAll setting rest) fun others =>
        Deed.answer (step.destination :: others)

namespace Compile

def stageDeed (layout : Layout) (staged : Place) : Deed Unit :=
  Deed.andThen Deed.files fun tree =>
    let failure fault : Cause := .system (.refused fault
      ("cp '" ++ layout.iconPackage.text ++ "' -> '" ++ staged.text ++ "'"))
    Deed.andThen (Deed.ofExcept failure (tree.stage layout.iconPackage staged)) fun tree work =>
      (.ok (), { work with tree })

def argumentsFor (request : Request) (layout : Layout) (scratch : Place) : List String :=
  CompileCommand.arguments
    { catalog := layout.catalog.text, stagedIcon := (scratch.enter stagedName).text,
      scratch := scratch.text, target := request.target }

def compiled (layout : Layout) (written : List String) : Compiled where
  catalog := layout.catalog
  tag := layout.tag
  destinations := ⟨layout.iconBundle.text, layout.assetArchive.text⟩
  written := written

def publishDeed (setting : Setting) (layout : Layout) (outcome : ProcessOutcome) :
    Deed Compiled :=
  Deed.andThen (Deed.ofExcept id (judge layout outcome)) fun steps =>
    Deed.andThen (Work.copyAll setting steps) fun written =>
      Deed.answer (compiled layout written)

def insideDeed (setting : Setting) (request : Request) (layout : Layout) (scratch : Place) :
    Deed Compiled :=
  Deed.andThen (stageDeed layout (scratch.enter stagedName)) fun _ =>
    Deed.andThen (Work.call setting (argumentsFor request layout scratch) (some scratch))
      (publishDeed setting layout)

/-- All that the compile of a catalog does to files and processes. -/
def deed (setting : Setting) (request : Request) : Deed Compiled :=
  Deed.andThen (Deed.ofExcept Cause.badName (Layout.ofPath setting.directory request.catalog))
    fun layout =>
      Deed.andThen Deed.files fun tree =>
        if tree.isOccupied Place.root layout.iconPackage.text then
          Deed.inScratch setting scratchBeginning (insideDeed setting request layout)
        else Deed.stop (.iconMissing layout)

theorem silent_tell (setting : Setting) (layout : Layout) (progress : Progress) :
    Run.Silent (tell setting layout progress) := Run.silent_emit setting _

theorem silent_tellDetail (setting : Setting) (request : Request) (layout : Layout)
    (progress : Progress) : Run.Silent (tellDetail setting request layout progress) := by
  unfold tellDetail
  split
  · exact silent_tell setting layout progress
  · exact Run.does_answer ()

theorem does_stage (layout : Layout) (staged : Place) :
    Run.Does (stage layout staged) (stageDeed layout staged) := by
  refine Run.Does.andThen (Run.does_perform _) fun tree => ?_
  refine Run.Does.andThen (Run.does_ofExcept _ _) fun tree => ?_
  exact Run.does_perform _

theorem does_publish {setting : Setting} {told : CopyStep → Run Unit}
    (silent : ∀ step, Run.Silent (told step)) (steps : List CopyStep) :
    Run.Does (publish setting told steps) (Work.copyAll setting steps) := by
  induction steps with
  | nil => exact Run.does_answer []
  | cons step rest ih =>
      refine Run.Silent.andThen (Run.silent_note _ _ _) ?_
      refine Run.Does.andThen (Run.does_perform (Work.copy setting step)) fun _ => ?_
      refine Run.Silent.andThen (silent step) ?_
      exact Run.Does.andThen ih fun others => Run.does_answer (step.destination :: others)

theorem does_invoke (setting : Setting) (request : Request) (layout : Layout) (scratch : Place) :
    Run.Does (invoke setting request layout scratch (scratch.enter stagedName))
      (Work.call setting (argumentsFor request layout scratch) (some scratch)) := by
  refine Run.Silent.andThen (Run.silent_note _ _ _) ?_
  refine Run.Silent.andThen (silent_tellDetail setting request layout _) ?_
  exact Run.does_perform _

theorem does_publishReply {setting : Setting} {request : Request} {layout : Layout} {reply : Reply}
    {steps : List CopyStep} (planned : Publication.plan layout reply.results = .ok steps) :
    Run.Does (publishReply setting request layout reply)
      (Deed.andThen (Work.copyAll setting steps) fun written =>
        Deed.answer (compiled layout written)) := by
  unfold publishReply
  rw [planned]
  apply Run.Does.found
  rw [Publication.destinations_of_plan planned]
  apply Run.Does.found
  refine Run.Does.andThen (does_publish (fun step => silent_tellDetail _ _ _ _) steps) ?_
  intro written
  refine Run.Silent.andThen (Run.silent_note _ _ _) ?_
  refine Run.Silent.andThen (silent_tell setting layout .completed) ?_
  exact Run.does_answer _

/-- What is done with an outcome depends on its judgement only. -/
theorem does_publishOutcome (setting : Setting) (request : Request) (layout : Layout)
    (outcome : ProcessOutcome) :
    Run.Does
      (do
        let reply ← Run.ofExcept id (readReply outcome)
        requireClean layout reply
        tell setting layout .classified
        publishReply setting request layout reply)
      (publishDeed setting layout outcome) := by
  unfold publishDeed judge
  cases readReply outcome with
  | error cause => exact Run.Does.stopped (Run.does_stop _)
  | ok reply =>
      apply Run.Does.found
      dsimp only
      unfold requireClean
      cases Report.ofReply? reply with
      | some report =>
          refine Run.Does.stopped ?_
          exact Run.Silent.andThen (Run.silent_note _ _ _) (Run.does_stop _)
      | none =>
          refine Run.Silent.andThen (Run.does_answer ()) ?_
          refine Run.Silent.andThen (silent_tell setting layout .classified) ?_
          cases planned : Publication.plan layout reply.results with
          | error fault =>
              unfold publishReply
              rw [planned]
              exact Run.Does.stopped (Run.does_stop _)
          | ok steps => exact does_publishReply planned

theorem does_inside (setting : Setting) (request : Request) (layout : Layout) (scratch : Place) :
    Run.Does (inside setting request layout scratch)
      (insideDeed setting request layout scratch) := by
  refine Run.Does.andThen (does_stage layout (scratch.enter stagedName)) fun _ => ?_
  refine Run.Silent.andThen (silent_tell setting layout _) ?_
  refine Run.Does.andThen (does_invoke setting request layout scratch) fun outcome => ?_
  exact does_publishOutcome setting request layout outcome

/-- The compile of a catalog does what its deed says, whoever follows its progress. -/
theorem does_one (setting : Setting) (request : Request) :
    Run.Does (one setting request) (deed setting request) := by
  refine Run.Does.andThen (Run.does_ofExcept _ _) fun layout => ?_
  refine Run.Silent.andThen (silent_tell setting layout _) ?_
  refine Run.Does.andThen (Run.does_perform _) fun tree => ?_
  split
  · exact Run.does_inScratch (does_inside setting request layout)
  · exact Run.does_stop _

end Compile

end AssetCatalog
