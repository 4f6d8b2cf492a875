import AssetCatalog.CommandLine.Program
/-! # The executable

Takes the arguments and the environment of the process to `Program.run`, writes what is to be
written and ends with the exit code.  No other process is started from here, so the compiler
counts as one that cannot be started. -/

set_option autoImplicit false

open AssetCatalog AssetCatalog.CommandLine

namespace AssetCatalog.Main

def command : String := "xcrun"

def absentRunner : Runner where
  command := command
  respond _ := ⟨.ok (.ofFailure command ("spawn " ++ command ++ " ENOENT")), none⟩

def host (directory : Place) (kind named : Option String) : Host where
  setting :=
    { directory, temporary := Place.root.resolve "/tmp", suffix := fun n => toString n,
      runner := absentRunner, handlers := [] }
  console := ⟨kind, false⟩
  sourceRootVariable := named
  ownCheckout := directory
  elapsed := .ofNat 0

def write (written : Terminal.Written) : IO Unit :=
  match written.stream with
  | .output => IO.println written.text
  | .errorOutput => IO.eprintln written.text

end AssetCatalog.Main

def main (arguments : List String) : IO UInt32 := do
  let directory := Place.root.resolve (← IO.currentDir).toString
  let kind ← IO.getEnv "TERM"
  let named ← IO.getEnv sourceRootVariableName
  let host := AssetCatalog.Main.host directory kind named
  let ended := Program.run host arguments (RunState.start .empty)
  ended.log.forM IO.eprintln
  ended.written.forM AssetCatalog.Main.write
  return ended.exitCode.toUInt32
