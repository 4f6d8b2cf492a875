import AssetCatalog.Terminal.Message
/-! # Spinners

A spinner shows that something is being done.  On a terminal it turns until it is ended; where
there is none, a line tells that it has been started.  It may be ended without a word, or with
a line that tells how things went: the text given, or its own text when none is given.  A text
given at the start becomes its own. -/

set_option autoImplicit false

namespace AssetCatalog.Terminal

structure Spinner where
  text : String
  interactive : Bool
  spinning : Bool
  deriving DecidableEq

inductive SpinnerCall where
  | start (text : String)
  | stop
  | succeed (text : String)
  | fail (text : String)
  deriving DecidableEq

namespace Spinner

def create (interactive : Bool) (text : String) : Spinner := ⟨text, interactive, false⟩

/-- The text given, or the spinner's own when that is empty. -/
def textOr (spinner : Spinner) (text : String) : String :=
  if text = "" then spinner.text else text

def stopped (spinner : Spinner) : Spinner := { spinner with spinning := false }

def apply (spinner : Spinner) : SpinnerCall → Spinner × List Written
  | .start text =>
    let text := spinner.textOr text
    if spinner.interactive then ({ spinner with text, spinning := true }, [])
    else ({ spinner with text }, if text = "" then [] else [⟨.errorOutput, "- " ++ text⟩])
  | .stop => (spinner.stopped, [])
  | .succeed text =>
    (spinner.stopped, [⟨.errorOutput, successSign ++ " " ++ spinner.textOr text⟩])
  | .fail text =>
    (spinner.stopped, [⟨.errorOutput, failureSign ++ " " ++ spinner.textOr text⟩])

def run (spinner : Spinner) : List SpinnerCall → List Written
  | [] => []
  | call :: rest =>
    let (spinner, written) := spinner.apply call
    written ++ spinner.run rest

end Spinner

end AssetCatalog.Terminal
