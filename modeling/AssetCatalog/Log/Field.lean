import AssetCatalog.PropertyList.Value
/-! # Fields of log entries

Most fields of an entry are written as they are, in the compact form of their values.  Three
kinds have rules of their own.  Fields that tell of an exchange, with a method, headers and a
socket, give way to one field about the request.  What is filed under `err` and has a message is
written as a failure, with the messages and traces of its causes joined to its own.  And a few
keys are reserved: under one of them a value is written as its bare text, under another as
`false`, under two of them nothing is written, and the others cannot be written at all. -/

set_option autoImplicit false

namespace AssetCatalog.Log

abbrev Fields := List (String × Value)

def substantial? (fields : Fields) (key : String) : Option Value :=
  (Dictionary.get? fields key).filter (·.isSubstantial)

def part? (value : Value) (key : String) : Option Value :=
  match value with
  | .dict entries => Dictionary.get? entries key
  | _ => none

/-! ## Exchanges -/

/-- The fields tell of an exchange. -/
def isExchange (fields : Fields) : Bool :=
  ["method", "headers", "socket"].all fun key => (substantial? fields key).isSome

def addressOf (fields : Fields) : Option Value :=
  (substantial? fields "originalUrl").or <|
    match Dictionary.get? fields "path" with
    | some (.text path) => some (.text path)
    | _ => (substantial? fields "url").map fun url =>
      ((part? url "path").filter (·.isSubstantial)).getD url

def requestOf (fields : Fields) : Value :=
  let info := substantial? fields "info"
  let peer := info.or (Dictionary.get? fields "socket")
  .dict <| Dictionary.ofList <|
    [("id", (substantial? fields "id").or (info.bind (part? · "id"))),
      ("method", Dictionary.get? fields "method"), ("url", addressOf fields),
      ("query", substantial? fields "query"), ("params", substantial? fields "params"),
      ("headers", Dictionary.get? fields "headers"),
      ("remoteAddress", peer.bind (part? · "remoteAddress")),
      ("remotePort", peer.bind (part? · "remotePort"))].filterMap
        fun (key, value) => value.map fun value => (key, value)

/-! ## Failures -/

def failureKey : String := "err"

def messageKey : String := "message"
def traceKey : String := "stack"
def causeKey : String := "cause"
def kindKey : String := "type"

/-- The key of a list of failures that make up one, and the key under which they are written. -/
def membersKey : String := "errors"
def writtenMembersKey : String := "aggregateErrors"

/-- The key by which a dictionary is no longer of the ordinary kind. -/
def ruleKey : String := "constructor"

def silentKeys : List String :=
  ["raw", ruleKey, "hasOwnProperty", "isPrototypeOf", "propertyIsEnumerable", "toLocaleString",
    "toString", "valueOf", "__defineGetter__", "__defineSetter__", "__lookupGetter__",
    "__lookupSetter__", "__proto__"]

def messageOf (value : Value) : Option String :=
  match part? value messageKey with
  | some (.text message) => some message
  | _ => none

def isFailure (value : Value) : Bool := (messageOf value).isSome

/-- The trace of a failure as it is given; an empty text if there is nothing in it. -/
def traceOf (entries : Fields) : Value := (substantial? entries traceKey).getD (.text "")

def kindOf (entries : Fields) : Option Value :=
  if Dictionary.has entries ruleKey then Dictionary.get? entries "name" else some (.text "Object")

mutual

def messages : Value → String
  | .dict entries => (messageOf (.dict entries)).getD "" ++ causeMessages entries
  | _ => ""

def causeMessages : Fields → String
  | [] => ""
  | (key, value) :: rest =>
    if key = causeKey then if isFailure value then ": " ++ messages value else ""
    else causeMessages rest

end

mutual

/-- The trace of a failure and those of its causes; without a cause it stays what it is. -/
def traces : Value → Value
  | .dict entries =>
    match causeTrace entries with
    | none => traceOf entries
    | some trace => .text (((traceOf entries).shown.getD "") ++ "\ncaused by: " ++ trace)
  | _ => .text ""

def causeTrace : Fields → Option String
  | [] => none
  | (key, value) :: rest =>
    if key = causeKey then
      if isFailure value then some ((traces value).shown.getD "") else none
    else causeTrace rest

end

mutual

/-- What is written of a value that may be a failure. -/
def failureForm : Value → Value
  | .dict entries =>
    if isFailure (.dict entries) then
      let named : Fields :=
        ((kindOf entries).map fun kind => (kindKey, kind)).toList
          ++ [(messageKey, .text (messages (.dict entries))), (traceKey, traces (.dict entries))]
          ++ membersForm entries
      .dict (Dictionary.ofList (named ++ otherForms (named.map (·.1) ++ silentKeys) entries))
    else .dict entries
  | value => value

def membersForm : Fields → Fields
  | [] => []
  | (key, .list items) :: rest =>
    if key = membersKey then [(writtenMembersKey, .list (failureForms items))]
    else membersForm rest
  | (_, _) :: rest => membersForm rest

def failureForms : List Value → List Value
  | [] => []
  | item :: rest => failureForm item :: failureForms rest

/-- The entries with other keys than the given ones.  A cause that is a failure is left out,
because the message and the trace tell of it. -/
def otherForms (known : List String) : Fields → Fields
  | [] => []
  | (key, value) :: rest =>
    let others := otherForms known rest
    if known.contains key || (key = causeKey && isFailure value) then others
    else (key, failureForm value) :: others

end

/-! ## Reserved keys -/

inductive Fault where
  | withoutObject
  | withoutLocale
  | withoutGetter
  | withoutSetter
  deriving DecidableEq

namespace Fault

def message : Fault → String
  | withoutObject => "Cannot convert undefined or null to object"
  | withoutLocale => "Object.prototype.toLocaleString called on null or undefined"
  | withoutGetter => "Object.prototype.__defineGetter__: Expecting function"
  | withoutSetter => "Object.prototype.__defineSetter__: Expecting function"

def ofKey? (key : String) : Option Fault :=
  [("hasOwnProperty", withoutObject), ("propertyIsEnumerable", withoutObject),
    ("valueOf", withoutObject), ("toLocaleString", withoutLocale),
    ("__defineGetter__", withoutGetter), ("__defineSetter__", withoutSetter)].lookup key

end Fault

def droppedKeys : List String := ["__lookupGetter__", "__lookupSetter__"]

/-- The key under which every value is written as `false`. -/
def refutedKey : String := "isPrototypeOf"

/-- What is written for a field: nothing, the text of its value, or a fault. -/
def written (key : String) (value : Value) : Except Fault (Option String) :=
  match Fault.ofKey? key with
  | some fault => .error fault
  | none => .ok <|
    if droppedKeys.contains key then none
    else if key = refutedKey then some (Value.truthText false)
    else if key = ruleKey then some (value.shown.getD "")
    else if key = failureKey then some (failureForm value).compact
    else some value.compact

def ownFields (fields : Fields) : Fields :=
  if isExchange fields then [("req", requestOf fields)] else fields

example : (failureForm (.dict [("message", .text "a"),
    ("cause", .dict [("message", .text "b"), ("stack", .text "s")]), ("n", .truth true)])).compact
    = "\x7b\"type\":\"Object\",\"message\":\"a: b\",\"stack\":\"\\ncaused by: s\",\"n\":true\x7d" := by
  decide +kernel

end AssetCatalog.Log
