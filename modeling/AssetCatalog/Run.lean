import AssetCatalog.Log
import AssetCatalog.Work
/-! # Runs

A run goes through states; `RunState` holds the work that has been done and everything that has
been told about it, in the order in which it was told.  What is told never changes the work, and
only `Run.perform` does any.

A `Run` takes a state to the next one and to an answer, or to the cause for which it ends
early.  Whatever it has done by then stays done and stays in the state. -/

set_option autoImplicit false

namespace AssetCatalog

/-- An event, and all that had been done to files and processes when it came. -/
structure Moment where
  event : Event
  work : Work

/-- How far a run has come, and all that it has done and told. -/
structure RunState extends Work where
  moments : List Moment
  /-- The events with the names of the handlers that have received them. -/
  deliveries : List (String × Event)
  log : List LogEntry

def RunState.start (tree : FileTree) : RunState :=
  { Work.start tree with moments := [], deliveries := [], log := [] }

def RunState.events (state : RunState) : List Event := state.moments.map Moment.event

def Run (α : Type) : Type := RunState → Except Cause α × RunState

namespace Run

variable {α β : Type}

def answer (value : α) : Run α := fun state => (.ok value, state)

def andThen (first : Run α) (next : α → Run β) : Run β := fun state =>
  match first state with
  | (.ok value, state) => next value state
  | (.error cause, state) => (.error cause, state)

instance : Monad Run where
  pure := answer
  bind := andThen

@[simp] theorem pure_apply (value : α) (state : RunState) :
    (pure value : Run α) state = (.ok value, state) := rfl

@[simp] theorem bind_apply (first : Run α) (next : α → Run β) (state : RunState) :
    (first >>= next) state = match first state with
      | (.ok value, state) => next value state
      | (.error cause, state) => (.error cause, state) := rfl

def stop (cause : Cause) : Run α := fun state => (.error cause, state)

def ofExcept {ε : Type} (causeOf : ε → Cause) : Except ε α → Run α
  | .ok value => answer value
  | .error fault => stop (causeOf fault)

def perform (deed : Deed α) : Run α := fun state =>
  let (result, work) := deed state.toWork
  (result, { state with toWork := work })

def files : Run FileTree := perform fun work => (.ok work.tree, work)

def setFiles (tree : FileTree) : Run Unit := perform fun work => (.ok (), { work with tree })

def note (level : LogLevel) (message : String) (fields : List (String × Value)) : Run Unit :=
  fun state => (.ok (), { state with log := state.log ++ [⟨level, message, fields⟩] })

/-! ## Events -/

/-- A handler receives the last event.  If it breaks down, that is noted and the run goes on. -/
def deliver (event : Event) (handler : Handler) : Run Unit := fun state =>
  let state := { state with deliveries := state.deliveries ++ [(handler.name, event)] }
  match handler.breakdown state.events with
  | none => (.ok (), state)
  | some message =>
    note .warn "Compile event handler threw"
      [("stage", .text event.progress.stage), ("error", .text message)] state

def deliverAll (event : Event) : List Handler → Run Unit
  | [] => answer ()
  | handler :: rest => do
    deliver event handler
    deliverAll event rest

def emit (setting : Setting) (event : Event) : Run Unit := fun state =>
  deliverAll event setting.handlers
    { state with moments := state.moments ++ [⟨event, state.toWork⟩] }

/-! ## Processes and files -/

def call (setting : Setting) (arguments : List String) (into : Option Place) :
    Run ProcessOutcome := perform (Work.call setting arguments into)

def makeScratch (setting : Setting) (beginning : String) : Run Place := perform fun work =>
  match setting.scratchPlace beginning work.tree work.scratches with
  | .ok scratch => (.ok scratch, work.opened scratch)
  | .error cause => (.error cause, work)

/-- Does something with a new directory, which is gone afterwards with all that lies in it,
however the thing has ended. -/
def inScratch (setting : Setting) (beginning : String) (body : Place → Run α) : Run α :=
  fun state =>
    match makeScratch setting beginning state with
    | (.error cause, state) => (.error cause, state)
    | (.ok scratch, state) =>
      let (result, state) := body scratch state
      (result, { state with toWork := state.toWork.closed scratch })

def copy (setting : Setting) (step : CopyStep) : Run Unit := perform (Work.copy setting step)

end Run

end AssetCatalog
