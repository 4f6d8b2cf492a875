import AssetCatalog.Number.Text
/-! # Durations

A duration below a second is shown in milliseconds, one below a minute in seconds with one
decimal, and any other in whole minutes and the nearest whole second of the rest. -/

set_option autoImplicit false

namespace AssetCatalog.Terminal

open AssetCatalog (Number)

def isBelow (value : Number) (bound : Nat) : Bool := (Number.ofNat bound).exceeds value

def secondsText (milliseconds : Number) : String :=
  match milliseconds.dividedBy 1000 with
  | .finite value => Number.oneDecimal value
  | other => other.text

def durationText (milliseconds : Number) : String :=
  if isBelow milliseconds 1000 then milliseconds.text ++ "ms"
  else if isBelow milliseconds 60000 then secondsText milliseconds ++ "s"
  else
    let minutes := (milliseconds.dividedBy 60000).floor
    let seconds := ((milliseconds.remainder 60000).dividedBy 1000).round
    minutes.text ++ "m " ++ seconds.text ++ "s"

example : durationText (.ofNat 999) = "999ms" := by decide +kernel
example : durationText (.ofNat 3140) = "3.1s" := by decide +kernel
example : durationText (.ofNat 61500) = "1m 2s" := by decide +kernel

end AssetCatalog.Terminal
