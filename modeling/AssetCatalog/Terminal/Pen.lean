import AssetCatalog.Terminal.Sequence
import AssetCatalog.Number.Reading
/-! # Styles over several lines

Style codes go on until others undo them, but a line of a cell has to leave nothing behind.  So
the pen, which is what the style codes of a line have left in force, is taken off at the end of
the line and put on again at the beginning of the next. -/

set_option autoImplicit false

namespace AssetCatalog.Terminal

inductive Effect where
  | bold
  | italics
  | underline
  | inverse
  | struck
  deriving DecidableEq

def styleCode (numbers : String) : String :=
  String.ofList [Sequence.escape, '['] ++ numbers ++ "m"

namespace Effect

def all : List Effect := [bold, italics, underline, inverse, struck]

def onNumber : Effect → String
  | bold => "1"
  | italics => "3"
  | underline => "4"
  | inverse => "7"
  | struck => "9"

def offNumber : Effect → String
  | bold => "22"
  | italics => "23"
  | underline => "24"
  | inverse => "27"
  | struck => "29"

/-- The effect that exactly these numbers put on or take off. -/
def ofNumbers? (numbers : String) : Option (Effect × Bool) :=
  all.findSome? fun effect =>
    if numbers = effect.onNumber then some (effect, true)
    else if numbers = effect.offNumber then some (effect, false)
    else none

end Effect

/-- What style codes have left in force.  Colours are kept as the numbers of the code that gave
them, effects in the order in which they were first named. -/
structure Pen where
  foreground : Option String := none
  background : Option String := none
  effects : List (Effect × Bool) := []

namespace Pen

def plainForeground : String := "39"

def plainBackground : String := "49"

def putEffect (effect : Effect) (on : Bool) : List (Effect × Bool) → List (Effect × Bool)
  | [] => [(effect, on)]
  | (other, value) :: rest =>
    if other = effect then (effect, on) :: rest else (other, value) :: putEffect effect on rest

def leadNumber (numbers : List Char) : Option Nat :=
  match numbers, numbers.takeWhile Number.isDigit with
  | [], _ => some 0
  | _ :: _, [] => none
  | _ :: _, digits => some (Number.digitsValue digits)

def isForeground (number : Nat) : Bool :=
  (decide (30 ≤ number) && decide (number ≤ 39)) || (decide (90 ≤ number) && decide (number ≤ 97))

def isBackground (number : Nat) : Bool :=
  (decide (40 ≤ number) && decide (number ≤ 49))
    || (decide (100 ≤ number) && decide (number ≤ 107))

def applied (pen : Pen) (numbers : List Char) : Pen :=
  let text := String.ofList numbers
  let other := match Effect.ofNumbers? text with
    | some (effect, on) => { pen with effects := putEffect effect on pen.effects }
    | none => pen
  match leadNumber numbers with
  | none => other
  | some number =>
    if isForeground number then { pen with foreground := some text }
    else if isBackground number then { pen with background := some text }
    else if number = 0 then {}
    else other

def after (line : String) : Pen := (Sequence.styles line.toList).foldl applied {}

def effectsOn (pen : Pen) : List Effect := (pen.effects.filter (·.2)).map (·.1)

/-- The colours in force, the one behind the characters first, with the numbers that take each
back. -/
def colours (pen : Pen) : List (String × String) :=
  ((pen.background.filter (· ≠ plainBackground)).map (·, plainBackground)).toList
    ++ ((pen.foreground.filter (· ≠ plainForeground)).map (·, plainForeground)).toList

def takenOff (pen : Pen) : String :=
  String.join <| (pen.effectsOn.map (·.offNumber) ++ pen.colours.map (·.2)).map styleCode

/-- The codes that put the pen on: what is taken off last comes first. -/
def putOn (pen : Pen) : String :=
  String.join <| ((pen.effectsOn.map (·.onNumber) ++ pen.colours.map (·.1)).reverse).map styleCode

/-- The lines, each with the pen of the line before it put on and its own taken off. -/
def carriedFrom (pen : Pen) : List String → List String
  | [] => []
  | line :: rest =>
    let line := pen.putOn ++ line
    let left := Pen.after line
    (line ++ left.takenOff) :: carriedFrom left rest

def carried (lines : List String) : List String := carriedFrom {} lines

theorem takenOff_empty : takenOff {} = "" := rfl

example : carried ["\x1b[31mr\x1b[42mg", "q"]
    = ["\x1b[31mr\x1b[42mg\x1b[49m\x1b[39m", "\x1b[31m\x1b[42mq\x1b[49m\x1b[39m"] := by
  decide +kernel

end Pen

end AssetCatalog.Terminal
