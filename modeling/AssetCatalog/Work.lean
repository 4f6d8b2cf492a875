import AssetCatalog.Event
import AssetCatalog.Failure
import AssetCatalog.FileTree.Copy
import AssetCatalog.FileTree.Staging
import AssetCatalog.Process
/-! # What a run does

A run works in a `Setting` that stays the same: the directories it starts from, the process it
calls and the handlers that follow its progress.  `Work` holds the tree of files and all that
the run has done to files and processes, in the order in which it was done; what the run tells
about it is kept apart.

A `Deed` takes the work so far to the work afterwards and to an answer, or to the cause for
which it fails.  Whatever it has done by then stays done. -/

set_option autoImplicit false

namespace AssetCatalog

structure Call where
  arguments : List String
  tree : FileTree

/-- What comes of a call: an outcome, or the message of a breakdown, and what then lies in the
directory that the call was to compile into, if that has changed. -/
structure Response where
  outcome : Except String ProcessOutcome
  contents : Option FileTree

def Response.leaves (response : Response) (into : Option Place) (tree : FileTree) : FileTree :=
  match into, response.contents with
  | some place, some contents => tree.graft place contents
  | _, _ => tree

/-- A process that can be called.  It may answer a call by all calls so far; the last of these
is the one that it answers. -/
structure Runner where
  command : String
  respond : List Call → Response

/-- Follows the progress of a run.  A handler may break down at any event, with a message, by
all events so far. -/
structure Handler where
  name : String
  breakdown : List Event → Option String

structure Setting where
  directory : Place
  temporary : Place
  /-- Makes the names of scratch directories differ. -/
  suffix : Nat → String
  runner : Runner
  handlers : List Handler

/-- The place of the next scratch directory, whose name begins in the given way, when so many
have been made.  Whatever has that name already is in the way, a link too that leads nowhere. -/
def Setting.scratchPlace (setting : Setting) (beginning : String) (tree : FileTree)
    (scratches : Nat) : Except Cause Place :=
  let stem := Path.join setting.temporary.text beginning
  let path := stem ++ setting.suffix scratches
  let failure fault : Cause := .system (.refused fault ("mkdtemp '" ++ stem ++ "XXXXXX'"))
  match SystemFailure.ofArguments? [("prefix", stem)], tree.locate .make Place.root path with
  | some failure, _ => .error (.system failure)
  | none, .ok (.free place) =>
    if tree.ownPlace Place.root path = some place then .ok place
    else .error (failure .alreadyThere)
  | none, .ok _ => .error (failure .alreadyThere)
  | none, .error fault => .error (failure fault)

structure Attempt where
  step : CopyStep
  tree : FileTree

structure Work where
  tree : FileTree
  scratches : Nat
  calls : List Call
  attempts : List Attempt
  written : List String

/-- Something that is done to files and processes. -/
abbrev Deed (α : Type) : Type := Work → Except Cause α × Work

namespace Work

def start (tree : FileTree) : Work := ⟨tree, 0, [], [], []⟩

def opened (work : Work) (scratch : Place) : Work :=
  { work with tree := work.tree.put scratch .directory, scratches := work.scratches + 1 }

def closed (work : Work) (scratch : Place) : Work :=
  { work with tree := work.tree.prune scratch }

/-- Calls the process.  What it leaves in the directory `into`, if there is one, is there
afterwards; it changes nothing else. -/
def call (setting : Setting) (arguments : List String) (into : Option Place) :
    Deed ProcessOutcome := fun work =>
  let calls := work.calls ++ [⟨arguments, work.tree⟩]
  let response := setting.runner.respond calls
  (response.outcome.mapError Cause.brokenDown,
    { work with calls, tree := response.leaves into work.tree })

def copy (setting : Setting) (step : CopyStep) : Deed Unit := fun work =>
  let attempt : Attempt := ⟨step, work.tree⟩
  let work := { work with attempts := work.attempts ++ [attempt] }
  match SystemFailure.ofArguments? [("src", step.source), ("dest", step.destination)],
      work.tree.copyFile setting.directory step.source step.destination with
  | some failure, _ => (.error (.system failure), work)
  | none, (tree, .ok ()) =>
    (.ok (), { work with tree, written := work.written ++ [step.destination] })
  | none, (tree, .error fault) =>
    let operation := "copyfile '" ++ step.source ++ "' -> '" ++ step.destination ++ "'"
    (.error (.system (.refused fault operation)), { work with tree })

end Work

end AssetCatalog
