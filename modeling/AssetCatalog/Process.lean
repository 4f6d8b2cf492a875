import AssetCatalog.Reply
/-! # Running a process

While a process runs it writes pieces of output and of error output, in any order, until it is
closed or turns out not to have started.  A `ProcessWatch` takes these events one by one: it
gathers the pieces, and the first of the two ends settles what the process leaves behind.  Events
that come later are still taken, but what is settled stays as it is. -/

set_option autoImplicit false

namespace AssetCatalog

/-- Something that happens to a process.  A process that a signal ends has no exit code. -/
inductive ProcessEvent where
  | output (octets : List UInt8)
  | errorOutput (octets : List UInt8)
  | closed (exitCode : Option Int)
  | failed (message : String)

namespace ProcessOutcome

def endedBySignal : Int := 1

def notStarted : Int := -1

def ofFailure (command message : String) : ProcessOutcome where
  exitCode := notStarted
  output := []
  errorOutput := "Failed to launch " ++ command ++ ": " ++ message

end ProcessOutcome

/-- What has been seen of a process: the pieces that it has written, and what it leaves behind once
that is settled. -/
structure ProcessWatch where
  pieces : List (List UInt8)
  errorPieces : List (List UInt8)
  outcome : Option ProcessOutcome

namespace ProcessWatch

def start : ProcessWatch where
  pieces := []
  errorPieces := []
  outcome := none

def settle (watch : ProcessWatch) (outcome : ProcessOutcome) : ProcessWatch :=
  { watch with outcome := watch.outcome.or (some outcome) }

def take (command : String) (watch : ProcessWatch) : ProcessEvent → ProcessWatch
  | .output octets => { watch with pieces := watch.pieces ++ [octets] }
  | .errorOutput octets => { watch with errorPieces := watch.errorPieces ++ [octets] }
  | .closed exitCode =>
    watch.settle
      { exitCode := exitCode.getD ProcessOutcome.endedBySignal
        output := watch.pieces.flatten
        errorOutput := Text.Utf8.decode watch.errorPieces.flatten }
  | .failed message => watch.settle (.ofFailure command message)

def takeAll (command : String) (events : List ProcessEvent) : ProcessWatch :=
  events.foldl (take command) start

end ProcessWatch

/-- What a process leaves behind; nothing as long as it has not ended. -/
def ProcessOutcome.ofEvents? (command : String) (events : List ProcessEvent) :
    Option ProcessOutcome :=
  (ProcessWatch.takeAll command events).outcome

end AssetCatalog
