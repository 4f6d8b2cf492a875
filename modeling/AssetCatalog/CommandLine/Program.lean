import AssetCatalog.CommandLine.Display
import AssetCatalog.CommandLine.Help
import AssetCatalog.Compile
import AssetCatalog.Configuration
import AssetCatalog.Gate
import AssetCatalog.Terminal.Duration
import AssetCatalog.Terminal.Table
/-! # The program

`Program.run` does what a command line asks for.  Before catalogs are compiled the version gate
has to be passed and the deployment target has to be found, in this order; to check the setting
is to do just that.  A run that comes to its end says so, with a table of what has been written
where; one that fails ends with a label and a message, and with exit code 1. -/

set_option autoImplicit false

namespace AssetCatalog.CommandLine

open AssetCatalog.Terminal

structure Host where
  setting : Setting
  console : Console
  /-- The value of the variable that names the source checkout. -/
  sourceRootVariable : Option String
  ownCheckout : Place
  /-- How many milliseconds go by while catalogs are compiled. -/
  elapsed : Number

structure Ended where
  exitCode : Nat
  written : List Written
  log : List String
  state : RunState

/-- What a command comes to: the result, the state and what has been written. -/
structure Performed where
  result : Except Cause Unit
  state : RunState
  written : List Written

def sourceRootVariableName : String := "COMPILE_CAR_SOURCE_ROOT"

/-- The source checkout: the one that the switch names, else the one that the variable names,
else the program's own.  An empty text names none. -/
def sourceRoot (directory : Place) (switch named : Option String) (own : Place) : Place :=
  match (switch.filter (· ≠ "")).or (named.filter (· ≠ "")) with
  | some path => directory.resolve path
  | none => own

def Host.checkout (host : Host) (switch : Option String) : Place :=
  sourceRoot host.setting.directory switch host.sourceRootVariable host.ownCheckout

def Performed.after (written : List Written) (performed : Performed) : Performed :=
  { performed with written := written ++ performed.written }

namespace Program

/-! ## The summary -/

/-- The place as it is shown to someone in a directory: from there, if it lies there. -/
def displayPath (directory place : Place) : String :=
  let relative := directory.pathTo place
  if relative ≠ "" ∧ ¬ "..".toList.isPrefixOf relative.toList then relative else place.text

def catalogsText (count : Nat) : String :=
  toString count ++ (if count = 1 then " asset catalog" else " asset catalogs")

def displayText (directory : Place) (path : String) : String :=
  displayPath directory (directory.resolve path)

def summaryRow (directory : Place) (compiled : Compiled) : List String :=
  [displayPath directory compiled.catalog,
    displayText directory compiled.destinations.iconBundle,
    displayText directory compiled.destinations.assetArchive]

def summaryTable (directory : Place) (compiled : List Compiled) : Table where
  head := ["Catalog", "Icon bundle", "Asset archive"]
  rows := compiled.map (summaryRow directory)

def summary (host : Host) (compiled : List Compiled) : List Written :=
  let border := Border.forTerminal host.console.kind
  let table := (summaryTable host.setting.directory compiled).text border
  [toOutput "", toOutput table, toOutput ""]
    ++ MessageKind.success.written
      ("Compiled " ++ catalogsText compiled.length ++ " in " ++ durationText host.elapsed)

/-! ## Commands -/

def compileCatalogs (host : Host) (paths : List String) (verbose : Bool) (target : String)
    (state : RunState) : Performed :=
  let announced :=
    (if verbose then MessageKind.information.written
      ("Determined the minimum deployment target to be " ++ target ++ ".") else [])
      ++ MessageKind.header.written ("Compiling " ++ catalogsText paths.length)
  let (result, after) := Compile.all host.setting target verbose paths state
  let (display, acts) := (Display.start host.console verbose).follow
    (after.events.drop state.events.length)
  match result with
  | .ok compiled =>
    ⟨.ok (), after, announced ++ acts.flatMap Display.Act.written ++ summary host compiled⟩
  | .error cause =>
    ⟨.error cause, after, announced ++ (acts ++ display.fail).flatMap Display.Act.written⟩

/-- Passes the version gate and finds the deployment target, and goes on with it. -/
def prepare (host : Host) (switch : Option String) (versionNote : String)
    (next : String → RunState → Performed) (state : RunState) : Performed :=
  match Gate.verify host.setting Gate.requiredVersion state with
  | (.error cause, state) => ⟨.error cause, state, []⟩
  | (.ok version, state) =>
    let written := MessageKind.stageSuccess.written ("actool " ++ version.text ++ versionNote)
    match Configuration.target host.setting (host.checkout switch).text state with
    | (.error cause, state) => ⟨.error cause, state, written⟩
    | (.ok target, state) => (next target state).after written

def compile (host : Host) (paths : List String) (verbose : Bool) (switch : Option String) :
    RunState → Performed :=
  prepare host switch "" (compileCatalogs host paths verbose)

def check (host : Host) (switch : Option String) : RunState → Performed :=
  prepare host switch (" (" ++ Gate.requiredVersion.text ++ " or newer required)")
    fun target state =>
      ⟨.ok (), state,
        MessageKind.stageSuccess.written ("Minimum deployment target: " ++ target)⟩

/-! ## The whole program -/

def ended (verbose : Bool) (performed : Performed) : Ended :=
  let log := (Log.ofVerbose verbose).lines performed.state.log
  match performed.result with
  | .ok () => ⟨0, performed.written, log, performed.state⟩
  | .error cause =>
    ⟨1, performed.written ++ MessageKind.failure.written cause.display, log, performed.state⟩

def onOutput (lines : List String) : List Written := lines.map toOutput

def onErrorOutput (lines : List String) : List Written := lines.map fun line => ⟨.errorOutput, line⟩

def execute (host : Host) (state : RunState) : Plan → Ended
  | .showVersion => ⟨0, onOutput [versionText], [], state⟩
  | .showHelp command => ⟨0, onOutput (helpAbout command), [], state⟩
  | .refuseHelp => ⟨1, onErrorOutput programHelp, [], state⟩
  | .refuse complaint => ⟨1, onErrorOutput [complaint.message], [], state⟩
  | .compile paths verbose switch => ended verbose (compile host paths verbose switch state)
  | .check switch => ended false (check host switch state)

def run (host : Host) (arguments : List String) (state : RunState) : Ended :=
  execute host state (Plan.ofArguments arguments)

end Program

end AssetCatalog.CommandLine
