import AssetCatalog.Markup.Tag
import AssetCatalog.Markup.Declaration
import AssetCatalog.Markup.DocumentType
import AssetCatalog.Text.Split
/-! # The tokens of a document

A document is made of tags, comments, instructions, character sections, a document type and
runs of text.  `Found.here` says what stands at a place.  Line ends of every kind become line
feeds first.  An angle bracket with which no tag can begin is text by itself, and so is each
one that is followed by a name once the document has ended.  A document in which something that
has begun is cut off or badly formed is malformed. -/

set_option autoImplicit false

namespace AssetCatalog.Markup

inductive Token where
  /-- Text has its references replaced and is given in units. -/
  | text (units : List Nat)
  | startTag (name : String) (attributes : List (String × String)) (closed : Bool)
  | endTag (name : String)
  | instruction (target data : String)
  | comment (content : List Char)
  | literal (content : List Char)
  | documentType

/-- Every line end becomes a line feed; a carriage return takes a line feed or a next-line
character after it along. -/
def unifyLineEnds : List Char → List Char
  | [] => []
  | '\r' :: '\n' :: rest => '\n' :: unifyLineEnds rest
  | '\r' :: '\u0085' :: rest => '\n' :: unifyLineEnds rest
  | c :: rest =>
    (if c = '\r' || c = '\u0085' || c = '\u2028' || c = '\u2029' then '\n' else c)
      :: unifyLineEnds rest

inductive Stage where
  | beginning
  | inside
  | past
  deriving DecidableEq

inductive Found where
  | malformed
  | token (value : Token) (used : Nat)

namespace Found

def ofExtent? {α : Type} (token : α → Token) : Option (Passage.Extent α) → Found
  | none => .malformed
  | some found => .token (token found.content) found.used

def isNameLine (line : List Char) : Bool :=
  isQualifiedName (line.reverse.dropWhile isSpace).reverse

/-- Some line of what stands before the bracket of an end tag is a name with white space behind
it; the tag's own name is the one at the beginning. -/
def endTag (rest : List Char) : Found :=
  let inside := rest.takeWhile (· ≠ '>')
  if inside.length < rest.length ∧ (Text.split '\n' inside).any isNameLine then
    .token (.endTag (String.ofList (leadingQualifiedName inside))) (inside.length + 3)
  else .malformed

/-- The declaration of a document is in order only at the very beginning and well formed. -/
def instruction (stage : Stage) (cs : List Char) : Found :=
  match Reader.somewhere Passage.instruction cs with
  | none => .malformed
  | some found =>
    if found.content.isReserved ∧ ¬(stage = .beginning ∧ Declaration.isPresent cs) then .malformed
    else .token (.instruction (String.ofList found.content.target)
      (String.ofList found.content.data)) found.used

def documentType (cs : List Char) : Found :=
  match Reader.extent DocumentType.reader cs with
  | none => .malformed
  | some used => .token .documentType used

def startTag (rest : List Char) : Found :=
  match TagScan.run {} 0 rest with
  | (.finished scan, used) =>
    .token (.startTag (String.ofList scan.name) scan.attributes scan.closed) (used + 1)
  | (.malformed, _) => .malformed
  | (_, _) => .token (.text (Text.unitsOf '<')) 1

def marked (stage : Stage) (cs : List Char) : Found :=
  match cs with
  | _ :: '/' :: rest => endTag rest
  | _ :: '?' :: _ => instruction stage cs
  | _ :: '!' :: '-' :: _ => ofExtent? .comment (Reader.somewhere Passage.comment cs)
  | _ :: '!' :: '[' :: _ => ofExtent? .literal (Reader.somewhere Passage.literal cs)
  | _ :: '!' :: _ => documentType cs
  | _ :: rest =>
    if stage = .past then .token (.text (Text.unitsOf '<')) 1 else startTag rest
  | [] => .malformed

def here (stage : Stage) (c : Char) (rest : List Char) : Found :=
  if c = '<' then marked stage (c :: rest)
  else
    let run := c :: rest.takeWhile (· ≠ '<')
    .token (.text (expand run)) run.length

end Found

end AssetCatalog.Markup
