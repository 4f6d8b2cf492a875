/-! # Messages on a terminal

A program writes texts to its output and to its error output, each text followed by a line end.
Messages bear a sign for what they say: that something went well, that it failed, or what is
known.  Messages of a stage are set in, and a header stands between blank lines. -/

set_option autoImplicit false

namespace AssetCatalog.Terminal

inductive Stream where
  | output
  | errorOutput
  deriving DecidableEq

structure Written where
  stream : Stream
  text : String
  deriving DecidableEq

def successSign : String := "✔"
def failureSign : String := "✖"
def informationSign : String := "ℹ"

inductive MessageKind where
  | success
  | failure
  | information
  | stageSuccess
  | stageInformation
  | header
  deriving DecidableEq

def toOutput (text : String) : Written := ⟨.output, text⟩

def MessageKind.written (kind : MessageKind) (text : String) : List Written :=
  match kind with
  | success => [toOutput (successSign ++ " " ++ text)]
  | failure => [⟨.errorOutput, failureSign ++ " " ++ text⟩]
  | information => [toOutput (informationSign ++ " " ++ text)]
  | stageSuccess => [toOutput ("  " ++ successSign ++ " " ++ text)]
  | stageInformation => [toOutput ("  " ++ informationSign ++ " " ++ text)]
  | header => [toOutput "", toOutput ("  " ++ text), toOutput ""]

end AssetCatalog.Terminal
