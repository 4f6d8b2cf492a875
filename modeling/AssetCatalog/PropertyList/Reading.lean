import AssetCatalog.Markup.Tree
import AssetCatalog.PropertyList.Value
import AssetCatalog.PropertyList.Base64
/-! # Reading property lists

`PropertyList.read` takes octets to the value they write down.  The octets are a document whose
root is `plist`; its elements are values, and a dictionary alternates keys and values.  Text,
comments and character sections between elements are passed over; an instruction counts as an
element without children that bears the instruction's name.

The first fault in document order, depth first, is the one reported; a malformed document comes
before any of them. -/

set_option autoImplicit false

namespace AssetCatalog.PropertyList

open AssetCatalog.Markup (Node)

inductive Fault where
  | blank
  | malformed
  | foreignRoot
  | keyMissing
  | keyUnexpected (key : String)
  | keyForbidden
  | textless
  | integerMissing
  | realMissing
  | dateMissing
  | unknownTag (name : String)

namespace Fault

/-- Stands for the text of a fault of the document itself, which is not fixed here. -/
def malformedMessage : String := "<xml error>"

def message : Fault → String
  | blank => "empty output"
  | malformed => malformedMessage
  | foreignRoot => "malformed document. First element should be <plist>"
  | keyMissing => "Missing key while parsing <dict/>."
  | keyUnexpected key => "Unexpected key \"" ++ key ++ "\" while parsing <dict/>."
  | keyForbidden =>
    "__proto__ keys can lead to prototype pollution. More details on CVE-2022-22912"
  | textless => "Cannot convert object to primitive value"
  | integerMissing => "Cannot parse \"\" as integer."
  | realMissing => "Cannot parse \"\" as real."
  | dateMissing => "Cannot parse \"\" as Date."
  | unknownTag name => "Invalid PLIST tag " ++ name

end Fault

/-! ## Leaves -/

def valueNode : Node → Option (String × List Node)
  | .element name children => some (name, children)
  | .instruction target _ => some (target, [])
  | _ => none

def ownText : Node → Option (List Char)
  | .text units => some (Text.ofUnits units)
  | .literal content | .comment content | .instruction _ content => some content.toList
  | .element .. => none

def joinedText (children : List Node) : List Nat :=
  children.flatMap fun
    | .text units => units
    | .literal content => Text.units content
    | _ => []

def plainText (children : List Node) : List Nat :=
  children.flatMap fun
    | .text units => units
    | _ => []

def forbiddenKey : String := "__proto__"

/-- A key is what its first child says; a first child that is an element gives none. -/
def readKey : List Node → Except Fault Value
  | [] => .ok (.text "")
  | first :: _ =>
    match (ownText first).map String.ofList with
    | none => .ok .null
    | some key => if key = forbiddenKey then .error .keyForbidden else .ok (.text key)

def keyText : Value → String
  | .text key => key
  | _ => "null"

def readInteger : List Node → Except Fault Value
  | [] => .error .integerMissing
  | first :: _ => .ok (.number (.leadingWhole ((ownText first).getD [])))

def readReal (children : List Node) : Except Fault Value :=
  if children.isEmpty then .error .realMissing
  else .ok (.number (.leadingDecimal (Text.ofUnits (plainText children))))

/-- A first child that says nothing names the beginning of 1970. -/
def readDate : List Node → Except Fault Value
  | [] => .error .dateMissing
  | first :: _ => .ok (.date (match ownText first with
    | some text => Calendar.read text
    | none => some 0))

def readLeaf (name : String) (children : List Node) : Except Fault Value :=
  if name = "key" then readKey children
  else if name = "string" then .ok (.text (String.ofList (Text.ofUnits (joinedText children))))
  else if name = "integer" then readInteger children
  else if name = "real" then readReal children
  else if name = "data" then .ok (.data (Base64.decode (plainText children)))
  else if name = "date" then readDate children
  else if name = "null" then .ok .null
  else if name = "true" then .ok (.truth true)
  else if name = "false" then .ok (.truth false)
  else .error (.unknownTag name)

/-! ## Containers -/

def isPresent : Value → Bool
  | .null => false
  | _ => true

mutual

/-- The value of a node, or none if the node is passed over. -/
def readNode : Node → Except Fault (Option Value)
  | .element name children =>
    if name = "plist" then do
      return some (.list (← readAll children))
    else if name = "array" then do
      return some (.list ((← readAll children).filter isPresent))
    else if name = "dict" then do
      return some (.dict (← readEntries none [] children))
    else do
      return some (← readLeaf name children)
  | .instruction target _ =>
    if target = "plist" ∨ target = "array" then .ok (some (.list []))
    else if target = "dict" then .ok (some (.dict []))
    else do
      return some (← readLeaf target [])
  | _ => .ok none

def readAll : List Node → Except Fault (List Value)
  | [] => .ok []
  | node :: rest => do
    let value ← readNode node
    let values ← readAll rest
    return value.toList ++ values

/-- Adds the entries that the nodes write down, after a key that still lacks its value if there
is one.  A key at the end gets an empty text. -/
def readEntries (key : Option String) (entries : List (String × Value)) :
    List Node → Except Fault (List (String × Value))
  | [] => .ok (match key with
    | none => entries
    | some key => Dictionary.put entries key (.text ""))
  | node :: rest => do
    match valueNode node, key with
    | none, _ => readEntries key entries rest
    | some (name, children), none =>
      if name = "key" then
        readEntries (some (keyText (← readKey children))) entries rest
      else throw .keyMissing
    | some (name, children), some key =>
      if name = "key" then throw (.keyUnexpected (keyText (← readKey children)))
      else
        let value := (← readNode node).getD .null
        if value.shown.isSome then readEntries none (Dictionary.put entries key value) rest
        else throw .textless

end

/-! ## Whole documents -/

/-- The value of the root: what its only child is, or the list of its children. -/
def readRoot (root : String × List Node) : Except Fault Value := do
  if root.1 = "plist" then
    match ← readAll root.2 with
    | [value] => return value
    | values => return .list values
  else throw .foreignRoot

def read (octets : List UInt8) : Except Fault Value :=
  let document := Text.Utf8.characters octets
  if (Text.trim document).isEmpty then .error .blank
  else match Markup.rootOf document with
    | none => .error .malformed
    | some root => readRoot root

end AssetCatalog.PropertyList
