import AssetCatalog.Reply
import AssetCatalog.Text.Blank
/-! # Judging a reply

A reply is clean when the compiler's exit code is nought and it has nothing to say, document
warnings of the one allowed type aside.  `Reply.complaints` lists the reasons for which a reply
is not clean, and `Report.ofReply?` makes the report of them: all of them at once, in a fixed
order, each with what was found.

`Report.text` shows a report in lines, a heading for each reason and a line for each
diagnostic; it counts when every diagnostic has a line, and `text?` gives it then. -/

set_option autoImplicit false

namespace AssetCatalog

inductive Reason where
  | returnCode
  | collection (collection : Collection)
  deriving DecidableEq

inductive Detail where
  | text (content : String)
  | diagnostics (items : List Diagnostic)

def Detail.hasLines : Detail → Bool
  | .text _ => true
  | .diagnostics items => items.all (·.hasLine)

structure Report where
  reasons : List (Reason × Detail)
  errorOutput : Option String

def Reason.label : Reason → String
  | .returnCode => "return code"
  | .collection which => which.label

def Reason.all : List Reason := .returnCode :: Collection.all.map .collection

/-! ## The judgement -/

/-- Document warnings of this type are about bitmaps that a catalog holds on purpose. -/
def allowedDocumentWarning : String := "Ambiguous Content"

namespace Reply

def remaining (reply : Reply) (collection : Collection) : List Diagnostic :=
  match collection with
  | .documentWarnings => (reply.diagnostics .documentWarnings).filter fun diagnostic =>
      !diagnostic.hasType allowedDocumentWarning
  | other => reply.diagnostics other

def complaint (reply : Reply) : Reason → Option Detail
  | .returnCode =>
    if reply.returnCode = 0 then none else some (.text (toString reply.returnCode))
  | .collection which =>
    match reply.remaining which with
    | [] => none
    | found => some (.diagnostics found)

def complaints (reply : Reply) : List (Reason × Detail) :=
  Reason.all.filterMap fun reason => (reply.complaint reason).map fun detail => (reason, detail)

end Reply

namespace Report

def ofReply? (reply : Reply) : Option Report :=
  match reply.complaints with
  | [] => none
  | reasons => some ⟨reasons, some reply.errorOutput⟩

/-! ## In lines -/

def heading : String := "actool failed:"

/-- The lines of a reason: a text stands behind it, diagnostics below it. -/
def reasonLines : Reason × Detail → List String
  | (reason, .text content) => ["  " ++ reason.label ++ ": " ++ content]
  | (reason, .diagnostics items) =>
    ("  " ++ reason.label ++ ":") :: items.map fun item => "    - " ++ item.line

def errorOutputLines (report : Report) : List String :=
  match Text.trimmed (report.errorOutput.getD "") with
  | "" => []
  | content => ["  stderr: " ++ content]

def textLines (report : Report) : List String :=
  heading :: (report.reasons.flatMap reasonLines ++ report.errorOutputLines)

def text (report : Report) : String := "\n".intercalate report.textLines

def text? (report : Report) : Option String :=
  if report.reasons.all (·.2.hasLines) then some report.text else none

end Report

end AssetCatalog
