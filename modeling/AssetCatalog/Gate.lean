import AssetCatalog.Run
/-! # The version gate

Older compilers do not understand icon packages, so the version of the compiler is asked for
before anything is compiled.  `Gate.detect` takes the version out of what the process has left
behind, and `Gate.accept` refuses one that is older than required. -/

set_option autoImplicit false

namespace AssetCatalog.Gate

def requiredVersion : Version := Version.ofNats [26, 0]

def queryArguments : List String := ["actool", "--output-format=xml1", "--version"]

def detect (outcome : ProcessOutcome) : Except Cause Version :=
  if outcome.exitCode ≠ 0 then .error (.queryFailed outcome.exitCode outcome.errorOutput)
  else match CompilerVersion.read outcome.output with
    | .error (.unreadable fault) => .error (.queryUnreadable fault outcome.errorOutput)
    | .error (.misshapen issues) => .error (.versionMissing issues)
    | .ok reported =>
      match Version.parse reported with
      | some version => .ok version
      | none => .error (.versionUnrecognized reported)

def accept (required detected : Version) : Except Cause Version :=
  if detected.atLeast required then .ok detected else .error (.tooOld detected required)

def verify (setting : Setting) (required : Version) : Run Version := do
  let outcome ← Run.call setting queryArguments none
  let detected ← Run.ofExcept id (detect outcome)
  Run.note .debug "actool version detected"
    [("detected", .text detected.text), ("required", .text required.text)]
  Run.ofExcept id (accept required detected)

end AssetCatalog.Gate
