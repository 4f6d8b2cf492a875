import AssetCatalog.Event
import AssetCatalog.Terminal.Spinner
import AssetCatalog.Terminal.Table
/-! # Showing progress

While catalogs are compiled the display follows the events.  Each catalog has a spinner of its
own, started when the catalog has been validated and ended when it has been compiled.  If
details are wanted there is no spinner, and lines tell of the catalogs, the commands and the
copies instead.

A `Display.Act` is one thing that the display does; what is written follows from the acts. -/

set_option autoImplicit false

namespace AssetCatalog.CommandLine

open AssetCatalog.Terminal

structure Console where
  kind : Option String
  errorsOnTerminal : Bool

def Console.interactive (console : Console) : Bool :=
  console.errorsOnTerminal && decide (console.kind ≠ some dumbTerminal)

structure Display where
  console : Console
  verbose : Bool
  spinner : Spinner
  current : String

namespace Display

inductive Act where
  | message (kind : MessageKind) (text : String)
  | spin (spinner : Spinner) (call : SpinnerCall)

def Act.written : Act → List Written
  | .message kind text => kind.written text
  | .spin spinner call => (spinner.apply call).2

def start (console : Console) (verbose : Bool) : Display :=
  ⟨console, verbose, .create console.interactive "", ""⟩

def spun (display : Display) (call : SpinnerCall) : Display × List Act :=
  ({ display with spinner := (display.spinner.apply call).1 }, [.spin display.spinner call])

def receiveVerbose (display : Display) (event : Event) : Display × List Act :=
  match event.progress with
  | .validated _ =>
    ({ display with current := event.catalog.name },
      [.message .information ("Processing: " ++ event.catalog.text)])
  | .invoking _ | .copied _ => (display, [.message .stageInformation event.message])
  | .completed => (display, [.message .stageSuccess event.message])
  | .staged _ | .classified => (display, [])

/-- The display after an event that is shown by a spinner. -/
def receiveQuiet (display : Display) (event : Event) : Display × List Act :=
  match event.progress with
  | .validated _ =>
    let current := event.catalog.name
    let spinner := Spinner.create display.console.interactive ("Compiling " ++ current ++ "...")
    spun { display with current, spinner } (.start "")
  | .completed => display.spun (.succeed event.message)
  | _ => (display, [])

def receive (display : Display) (event : Event) : Display × List Act :=
  if display.verbose then display.receiveVerbose event else display.receiveQuiet event

def follow (display : Display) : List Event → Display × List Act
  | [] => (display, [])
  | event :: rest =>
    let (display, acts) := display.receive event
    let (display, others) := display.follow rest
    (display, acts ++ others)

/-- What the display does when the compile of a catalog has failed: a spinner that still turns
tells for which one. -/
def fail (display : Display) : List Act :=
  if display.spinner.spinning then (display.spun (.fail ("Failed " ++ display.current))).2
  else []

end Display

end AssetCatalog.CommandLine
