import AssetCatalog.PropertyList.Value
/-! # Diagnostics

A diagnostic is a dictionary.  Four of its fields are known, and in normal form they come before
all others.  `Diagnostic.line` shows a diagnostic on one line, as

    [type] description (failure reason)

without the parts that are missing or empty; when all three are, the whole dictionary is shown
in its compact form, so that no diagnostic is shown as nothing.  A part whose value has no text
leaves the diagnostic without a line: `line?` gives one exactly when there is one. -/

set_option autoImplicit false

namespace AssetCatalog

structure Diagnostic where
  fields : List (String × Value)

namespace Diagnostic

def typeField : String := "type"
def descriptionField : String := "description"
def failureReasonField : String := "failure-reason"
def recoverySuggestionField : String := "recovery-suggestion"

/-- The fields that are texts wherever they are present, in their order. -/
def knownFields : List String :=
  [typeField, descriptionField, failureReasonField, recoverySuggestionField]

def field? (diagnostic : Diagnostic) (name : String) : Option Value :=
  Dictionary.get? diagnostic.fields name

def ofFields (fields : List (String × Value)) : Diagnostic :=
  let known := knownFields.filterMap fun name =>
    (Dictionary.get? fields name).map fun value => (name, value)
  let others := fields.filter fun field => !knownFields.contains field.1
  ⟨Dictionary.ofList (known ++ others)⟩

def value (diagnostic : Diagnostic) : Value := .dict diagnostic.fields

def hasType (diagnostic : Diagnostic) (type : String) : Bool :=
  match diagnostic.field? typeField with
  | some (.text content) => decide (content = type)
  | _ => false

/-! ## On one line -/

def part (before : String) (field : Option Value) (behind : String) : Option String :=
  match field with
  | some value =>
    if value.isSubstantial then some (before ++ (value.shown).getD "" ++ behind) else none
  | none => none

def parts (diagnostic : Diagnostic) : List String :=
  [part "[" (diagnostic.field? typeField) "]",
    part "" (diagnostic.field? descriptionField) "",
    part "(" (diagnostic.field? failureReasonField) ")"].filterMap id

/-- The diagnostic on one line, a value without text counting as an empty one. -/
def line (diagnostic : Diagnostic) : String :=
  match diagnostic.parts with
  | [] => diagnostic.value.compact
  | parts => " ".intercalate parts

def lineFields : List String := [typeField, descriptionField, failureReasonField]

/-- Every value that is part of the line has a text. -/
def hasLine (diagnostic : Diagnostic) : Bool :=
  lineFields.all fun name =>
    (diagnostic.field? name).all fun value => !value.isSubstantial || value.shown.isSome

def line? (diagnostic : Diagnostic) : Option String :=
  if diagnostic.hasLine then some diagnostic.line else none

end Diagnostic

end AssetCatalog
