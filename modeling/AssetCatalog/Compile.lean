import AssetCatalog.CompileCommand
import AssetCatalog.Run
/-! # Compiling catalogs

The compile of one catalog goes through these steps, each of which has to go well before the
next one is begun:

1. the path is the path of a catalog, and the icon package lies beside it;
2. the icon package is copied into a new scratch directory;
3. the compiler is called, and its reply is read and judged;
4. the outputs that the reply lists are planned and then copied beside the catalog.

Nothing is copied beside the catalog before the whole reply has been judged.  `Compile.all`
compiles catalogs one after the other and ends at the first that fails. -/

set_option autoImplicit false

namespace AssetCatalog

structure Request where
  catalog : String
  target : String
  /-- The command and the copies are told among the events. -/
  verbose : Bool

/-- What comes of the compile of a catalog. -/
structure Compiled where
  catalog : Place
  tag : String
  destinations : Publication.Destinations
  written : List String
  deriving DecidableEq

namespace Compile

def scratchBeginning : String := "compile-car-"

def readReply (outcome : ProcessOutcome) : Except Cause Reply :=
  (Reply.read outcome).mapError fun
    | .unreadable fault => .replyUnreadable outcome.exitCode outcome.errorOutput fault
    | .misshapen issues => .replyMisshapen outcome.exitCode outcome.errorOutput issues

def requireClean (layout : Layout) (reply : Reply) : Run Unit :=
  match Report.ofReply? reply with
  | none => pure ()
  | some report => do
    Run.note .error "actool reported failures"
      [("catalog", .text layout.catalog.text),
        ("reasons", .texts (report.reasons.map fun reason => reason.1.label))]
    Run.stop (.unclean layout.catalog report)

def publish (setting : Setting) (told : CopyStep → Run Unit) : List CopyStep → Run (List String)
  | [] => pure []
  | step :: rest => do
    Run.note .debug "Copying actool output"
      [("role", .text step.role.label), ("from", .text step.source),
        ("to", .text step.destination)]
    Run.copy setting step
    told step
    let others ← publish setting told rest
    return step.destination :: others

/-- Copies the icon package to where the compiler finds it. -/
def stage (layout : Layout) (staged : Place) : Run Unit := do
  let tree ← Run.files
  let failure fault : Cause := .system (.refused fault
    ("cp '" ++ layout.iconPackage.text ++ "' -> '" ++ staged.text ++ "'"))
  Run.setFiles (← Run.ofExcept failure (tree.stage layout.iconPackage staged))

def tell (setting : Setting) (layout : Layout) (progress : Progress) : Run Unit :=
  Run.emit setting ⟨layout.catalog, progress⟩

def tellDetail (setting : Setting) (request : Request) (layout : Layout) (progress : Progress) :
    Run Unit :=
  if request.verbose then tell setting layout progress else pure ()

def invoke (setting : Setting) (request : Request) (layout : Layout) (scratch staged : Place) :
    Run ProcessOutcome := do
  let arguments := CompileCommand.arguments
    { catalog := layout.catalog.text, stagedIcon := staged.text, scratch := scratch.text,
      target := request.target }
  let command := setting.runner.command :: arguments
  Run.note .debug "Invoking actool" [("command", .text (" ".intercalate command))]
  tellDetail setting request layout (.invoking command)
  Run.call setting arguments (some scratch)

def publishReply (setting : Setting) (request : Request) (layout : Layout) (reply : Reply) :
    Run Compiled := do
  let steps ← Run.ofExcept Cause.unpublished (Publication.plan layout reply.results)
  let destinations ← Run.ofExcept Cause.unpublished (Publication.destinations steps)
  let written ← publish setting
    (fun step => tellDetail setting request layout (.copied step.destination)) steps
  Run.note .info "Catalog compiled"
    [("catalog", .text layout.catalog.text), ("written", .texts written)]
  tell setting layout .completed
  return { catalog := layout.catalog, tag := layout.tag, destinations, written }

/-- The part of a compile that needs a scratch directory. -/
def inside (setting : Setting) (request : Request) (layout : Layout) (scratch : Place) :
    Run Compiled := do
  let staged := scratch.enter stagedName
  stage layout staged
  tell setting layout (.staged layout.iconPackage.name)
  let outcome ← invoke setting request layout scratch staged
  let reply ← Run.ofExcept id (readReply outcome)
  requireClean layout reply
  tell setting layout .classified
  publishReply setting request layout reply

def one (setting : Setting) (request : Request) : Run Compiled := do
  let layout ← Run.ofExcept Cause.badName (Layout.ofPath setting.directory request.catalog)
  tell setting layout (.validated layout.tag)
  if (← Run.files).isOccupied Place.root layout.iconPackage.text then
    Run.inScratch setting scratchBeginning (inside setting request layout)
  else Run.stop (.iconMissing layout)

def all (setting : Setting) (target : String) (verbose : Bool) :
    List String → Run (List Compiled)
  | [] => pure []
  | catalog :: rest => do
    let compiled ← one setting { catalog, target, verbose }
    let others ← all setting target verbose rest
    return compiled :: others

end Compile

end AssetCatalog
