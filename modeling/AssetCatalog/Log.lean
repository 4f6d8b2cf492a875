import AssetCatalog.Log.Field
/-! # Log lines

An entry of a log has a level, fields and a message.  Only entries at or above the least level
wanted are written, each as a dictionary on one line: the level, the name of the log, the
fields and the message, where of two entries under one key the later one counts.  An entry with
a field that cannot be written has no line. -/

set_option autoImplicit false

namespace AssetCatalog

inductive LogLevel where
  | debug
  | info
  | warn
  | error
  deriving DecidableEq

namespace LogLevel

def all : List LogLevel := [debug, info, warn, error]

def label : LogLevel → String
  | debug => "debug"
  | info => "info"
  | warn => "warn"
  | error => "error"

def rank : LogLevel → Nat
  | debug => 0
  | info => 1
  | warn => 2
  | error => 3

end LogLevel

structure LogEntry where
  level : LogLevel
  message : String
  fields : List (String × Value)

/-- A log that is written out; without a least level nothing is. -/
structure Log where
  name : String
  least : Option LogLevel

namespace Log

def defaultName : String := "compile-car"

def ofVerbose (verbose : Bool) : Log := ⟨defaultName, if verbose then some .debug else none⟩

def admits (log : Log) (entry : LogEntry) : Bool :=
  match log.least with
  | some least => decide (least.rank ≤ entry.level.rank)
  | none => false

def writtenFields : Fields → Except Fault (List (String × String))
  | [] => .ok []
  | (key, value) :: rest => do
    let text ← written key value
    let others ← writtenFields rest
    return (text.map fun text => (key, text)).toList ++ others

def record (log : Log) (entry : LogEntry) : Except Fault (List (String × String)) := do
  let fields ← writtenFields (ownFields entry.fields)
  return Dictionary.ofList
    ([("level", Text.quoted entry.level.label), ("name", Text.quoted log.name)] ++ fields
      ++ [("msg", Text.quoted entry.message)])

def line (log : Log) (entry : LogEntry) : Except Fault String := do
  let record ← log.record entry
  return Value.braced (record.map fun (key, text) => Text.quoted key ++ ":" ++ text)

def lines? (log : Log) (entries : List LogEntry) : Except Fault (List String) :=
  (entries.filter log.admits).mapM log.line

def lines (log : Log) (entries : List LogEntry) : List String :=
  (entries.filter log.admits).filterMap fun entry => (log.line entry).toOption

end Log

end AssetCatalog
