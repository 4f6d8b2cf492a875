import AssetCatalog.Diagnostic
import AssetCatalog.Reply.Collection
/-! # The shape of replies

A value may have the shape of a reply in all places but some.  Each such place gives one issue:
the path to it, the kind that belongs there and the kind found, if anything was.  Issues come in
the order of the shape, and within a list in the order of its items; nothing below a place that
has an issue is looked at.

`Shape.compilation` lists the issues of a value as a reply to a compile, and `Shape.version`
those of a reply to a question for the version. -/

set_option autoImplicit false

namespace AssetCatalog

structure Issue where
  path : List String
  expected : Kind
  found : Option Kind
  deriving DecidableEq

namespace Issue

def wholePath : String := "(root)"

def place (issue : Issue) : String :=
  match ".".intercalate issue.path with
  | "" => wholePath
  | path => path

def message (issue : Issue) : String :=
  issue.place ++ ": " ++ match issue.found with
    | none => "Required"
    | some found => "Expected " ++ issue.expected.name ++ ", received " ++ found.name

end Issue

namespace Shape

/-- The entries of a value that counts as a dictionary; data has none. -/
def entries? : Value → Option (List (String × Value))
  | .dict entries => some entries
  | .data _ => some []
  | _ => none

def list? : Value → Option (List Value)
  | .list items => some items
  | _ => none

def text? : Value → Option String
  | .text content => some content
  | _ => none

/-- A check takes the path to a value and the value, and lists what is wrong with it. -/
abbrev Check := List String → Value → List Issue

def mismatch (path : List String) (expected : Kind) (value : Value) : List Issue :=
  [⟨path, expected, some value.kind⟩]

def text : Check := fun path value =>
  match text? value with
  | some _ => []
  | none => mismatch path .text value

def optional (key : String) (check : Check) (path : List String)
    (entries : List (String × Value)) : List Issue :=
  match Dictionary.get? entries key with
  | some value => check (path ++ [key]) value
  | none => []

def required (key : String) (expected : Kind) (check : Check) (path : List String)
    (entries : List (String × Value)) : List Issue :=
  match Dictionary.get? entries key with
  | some value => check (path ++ [key]) value
  | none => [⟨path ++ [key], expected, none⟩]

def dict (checks : List (List String → List (String × Value) → List Issue)) : Check :=
  fun path value =>
    match entries? value with
    | some entries => checks.flatMap fun check => check path entries
    | none => mismatch path .dict value

def itemIssues (check : Check) (path : List String) : Nat → List Value → List Issue
  | _, [] => []
  | index, item :: rest =>
    check (path ++ [toString index]) item ++ itemIssues check path (index + 1) rest

def list (check : Check) : Check := fun path value =>
  match list? value with
  | some items => itemIssues check path 0 items
  | none => mismatch path .list value

/-! ## Replies -/

def diagnostic : Check :=
  dict (Diagnostic.knownFields.map fun name => optional name text)

def resultsKey : String := actoolKey "compilation-results"

def outputFilesKey : String := "output-files"

def results : Check := dict [optional outputFilesKey (list text)]

def compilation (value : Value) : List Issue :=
  dict ((Collection.all.map fun collection => optional collection.key (list diagnostic))
    ++ [optional resultsKey results]) [] value

def versionKey : String := actoolKey "version"

def shortVersionKey : String := "short-bundle-version"

def bundleVersionKey : String := "bundle-version"

def version (value : Value) : List Issue :=
  dict [required versionKey .dict (dict
    [required shortVersionKey .text text, optional bundleVersionKey text])] [] value

end Shape

end AssetCatalog
