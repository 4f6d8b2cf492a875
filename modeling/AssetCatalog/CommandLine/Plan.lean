import AssetCatalog.CommandLine.Arguments
import AssetCatalog.CommandLine.Similar
/-! # What a command line asks for

`Plan.ofArguments` takes the arguments of a command line to what is to be done, without doing
anything.  The version and help can be asked for; catalogs can be compiled, which is what
arguments without a command ask for; and the setting can be checked.  What cannot be understood
is refused with a complaint. -/

set_option autoImplicit false

namespace AssetCatalog.CommandLine

inductive Command where
  | compile
  | check
  deriving DecidableEq

namespace Command

def all : List Command := [compile, check]

def name : Command → String
  | compile => "compile"
  | check => "check"

def ofName? (name : String) : Option Command := all.find? fun command => command.name = name

end Command

/-! ## Switches -/

def versionSwitch : Switch := ⟨.version, some 'V', "version", false⟩
def verboseSwitch : Switch := ⟨.verbose, some 'v', "verbose", false⟩
def sourceRootSwitch : Switch := ⟨.sourceRoot, none, "source-root", true⟩

def Command.switches : Command → List Switch
  | .compile => [verboseSwitch, sourceRootSwitch]
  | .check => [sourceRootSwitch]

def helpName : String := "help"

/-- Help is asked for by one of these, wherever no other switch takes it as its value. -/
def helpArguments : List String := ["-h", "--" ++ helpName]

def asksForHelp (arguments : List String) : Bool := arguments.any helpArguments.contains

def Command.longSwitches (command : Command) : List String :=
  command.switches.map Switch.long ++ [helpName, versionSwitch.long]

def valueName : String := "<dir>"

/-! ## Plans -/

inductive Complaint where
  | valueMissing (switch : Switch)
  | unknownSwitch (argument : String) (meant : List String)
  | pathsMissing
  deriving DecidableEq

namespace Complaint

def suggestion : List String → String
  | [] => ""
  | [meant] => "\n(Did you mean " ++ meant ++ "?)"
  | meant => "\n(Did you mean one of " ++ ", ".intercalate meant ++ "?)"

def message : Complaint → String
  | valueMissing switch =>
    "error: option '--" ++ switch.long ++ " " ++ valueName ++ "' argument missing"
  | unknownSwitch argument meant =>
    "error: unknown option '" ++ argument ++ "'" ++ suggestion meant
  | pathsMissing => "error: missing required argument 'paths'"

end Complaint

/-- What a command line asks for. -/
inductive Plan where
  | showVersion
  | showHelp (command : Option Command)
  | refuseHelp
  | refuse (complaint : Complaint)
  | compile (paths : List String) (verbose : Bool) (sourceRoot : Option String)
  | check (sourceRoot : Option String)
  deriving DecidableEq

namespace Plan

def meantBy (command : Command) (argument : String) : List String :=
  match ['-', '-'].isPrefixOf? argument.toList with
  | some word =>
    (similar (String.ofList word) command.longSwitches).map fun long => "--" ++ long
  | none => []

def ofSorted (command : Command) (operands : List String) (sorted : Sorted) : Plan :=
  match command with
  | .compile =>
    if operands.isEmpty then .refuse .pathsMissing
    else .compile operands (sorted.has .verbose) (sorted.value? .sourceRoot)
  | .check => .check (sorted.value? .sourceRoot)

def ofCommand (command : Command) (operands arguments : List String) : Plan :=
  match sort command.switches arguments with
  | .error switch => .refuse (.valueMissing switch)
  | .ok sorted =>
    if asksForHelp sorted.rest then .showHelp command
    else match sorted.rest with
      | [] => ofSorted command (operands ++ sorted.operands) sorted
      | argument :: _ => .refuse (.unknownSwitch argument (meantBy command argument))

def ofTopic : Option String → Plan
  | none | some "" => .showHelp none
  | some topic =>
    match Command.ofName? topic with
    | some command => .showHelp command
    | none => .refuseHelp

def ofArguments (arguments : List String) : Plan :=
  match sort [versionSwitch] arguments with
  | .error switch => .refuse (.valueMissing switch)
  | .ok sorted =>
    if sorted.has .version then .showVersion
    else
      let first := sorted.operands.head?.getD ""
      match Command.ofName? first with
      | some command => ofCommand command sorted.operands.tail sorted.rest
      | none =>
        if first = helpName then ofTopic sorted.operands.tail.head?
        else if asksForHelp sorted.rest then .showHelp none
        else ofCommand .compile sorted.operands sorted.rest

end Plan

end AssetCatalog.CommandLine
