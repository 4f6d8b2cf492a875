import AssetCatalog.PropertyList.Reading
import AssetCatalog.Reply.Shape
/-! # Replies to a compile

`Reply.read` takes what a finished process left behind to a reply: the octets of its output are
a property list, the list has the shape of a reply, and what the reply holds is taken out of it.
Whether the compile went well is judged elsewhere; the exit code and the error output are only
carried along.

`CompilerVersion.read` takes the version out of the reply to a question for it. -/

set_option autoImplicit false

namespace AssetCatalog

structure ProcessOutcome where
  exitCode : Int
  output : List UInt8
  errorOutput : String
  deriving DecidableEq

structure CompilationResults where
  outputFiles : Option (List String)
  deriving DecidableEq

structure Reply where
  returnCode : Int
  errorOutput : String
  diagnostics : Collection → List Diagnostic
  results : Option CompilationResults

inductive ReplyFault where
  | unreadable (fault : PropertyList.Fault)
  | misshapen (issues : List Issue)

def readShaped (issues : Value → List Issue) (octets : List UInt8) : Except ReplyFault Value :=
  match PropertyList.read octets with
  | .error fault => .error (.unreadable fault)
  | .ok value =>
    match issues value with
    | [] => .ok value
    | found => .error (.misshapen found)

/-- The entries of a value that counts as a dictionary; any other value has none. -/
def entriesOf (value : Value) : List (String × Value) := (Shape.entries? value).getD []

namespace Reply

def diagnosticsUnder (key : String) (entries : List (String × Value)) : List Diagnostic :=
  match (Dictionary.get? entries key).bind Shape.list? with
  | some items => items.map fun item => Diagnostic.ofFields (entriesOf item)
  | none => []

def resultsIn (entries : List (String × Value)) : Option CompilationResults :=
  (Dictionary.get? entries Shape.resultsKey).map fun results =>
    let files := (Dictionary.get? (entriesOf results) Shape.outputFilesKey).bind Shape.list?
    ⟨files.map fun items => items.filterMap Shape.text?⟩

def ofValue (exitCode : Int) (errorOutput : String) (value : Value) : Reply where
  returnCode := exitCode
  errorOutput := errorOutput
  diagnostics collection := diagnosticsUnder collection.key (entriesOf value)
  results := resultsIn (entriesOf value)

def read (outcome : ProcessOutcome) : Except ReplyFault Reply :=
  (readShaped Shape.compilation outcome.output).map (ofValue outcome.exitCode outcome.errorOutput)

end Reply

def CompilerVersion.ofValue (value : Value) : String :=
  let version := (Dictionary.get? (entriesOf value) Shape.versionKey).map entriesOf
  (((version.bind (Dictionary.get? · Shape.shortVersionKey)).bind Shape.text?)).getD ""

def CompilerVersion.read (output : List UInt8) : Except ReplyFault String :=
  (readShaped Shape.version output).map CompilerVersion.ofValue

end AssetCatalog
