import AssetCatalog.Process
import Mathlib.Data.List.Induction
/-! # What a process leaves behind

The first end of a process settles what it leaves behind, and no later event changes that
(`outcome_take`).  What is gathered until then depends on nothing but the octets of either stream:
neither on where they are cut into pieces nor on how the pieces of the two streams come in between
one another (`settled_by_first_end`). -/

set_option autoImplicit false

namespace AssetCatalog

namespace ProcessEvent

def isEnd : ProcessEvent → Bool
  | closed _ | failed _ => true
  | output _ | errorOutput _ => false

def octets : ProcessEvent → List UInt8
  | output octets => octets
  | _ => []

def errorOctets : ProcessEvent → List UInt8
  | errorOutput octets => octets
  | _ => []

def written (events : List ProcessEvent) : List UInt8 := events.flatMap octets

def writtenErrors (events : List ProcessEvent) : List UInt8 := events.flatMap errorOctets

def Open (events : List ProcessEvent) : Prop := ∀ event ∈ events, event.isEnd = false

instance (events : List ProcessEvent) : Decidable (Open events) :=
  inferInstanceAs (Decidable (∀ event ∈ events, event.isEnd = false))

/-- Events leave the process open, or one of them is its first end. -/
inductive Ending : List ProcessEvent → Prop where
  | stays {events : List ProcessEvent} (stays : Open events) : Ending events
  | closed {before : List ProcessEvent} (stays : Open before) (exitCode : Option Int)
      (after : List ProcessEvent) : Ending (before ++ .closed exitCode :: after)
  | failed {before : List ProcessEvent} (stays : Open before) (message : String)
      (after : List ProcessEvent) : Ending (before ++ .failed message :: after)

theorem Ending.cons {event : ProcessEvent} {events : List ProcessEvent}
    (goes : event.isEnd = false) (ending : Ending events) : Ending (event :: events) := by
  have opened {before : List ProcessEvent} (stays : Open before) : Open (event :: before) :=
    List.forall_mem_cons.mpr ⟨goes, stays⟩
  cases ending with
  | stays stays => exact .stays (opened stays)
  | closed stays exitCode after => exact .closed (opened stays) exitCode after
  | failed stays message after => exact .failed (opened stays) message after

theorem ending (events : List ProcessEvent) : Ending events := by
  have none : Open [] := List.forall_mem_nil _
  induction events with
  | nil => exact .stays none
  | cons event rest ih =>
      cases event with
      | output octets => exact .cons rfl ih
      | errorOutput octets => exact .cons rfl ih
      | closed exitCode => exact .closed none exitCode rest
      | failed message => exact .failed none message rest

end ProcessEvent

namespace ProcessWatch

open ProcessEvent (Open written writtenErrors)

variable {command : String} {watch : ProcessWatch} {event : ProcessEvent}
  {events : List ProcessEvent} {outcome : ProcessOutcome}

/-! ## One event -/

theorem flatten_take (command : String) (watch : ProcessWatch) (event : ProcessEvent) :
    (watch.take command event).pieces.flatten = watch.pieces.flatten ++ event.octets ∧
    (watch.take command event).errorPieces.flatten
      = watch.errorPieces.flatten ++ event.errorOctets := by
  cases event with
  | output octets => simp [take, ProcessEvent.octets, ProcessEvent.errorOctets]
  | errorOutput octets => simp [take, ProcessEvent.octets, ProcessEvent.errorOctets]
  | closed exitCode => simp [take, settle, ProcessEvent.octets, ProcessEvent.errorOctets]
  | failed message => simp [take, settle, ProcessEvent.octets, ProcessEvent.errorOctets]

theorem outcome_take (settled : watch.outcome = some outcome) (event : ProcessEvent) :
    (watch.take command event).outcome = some outcome := by
  cases event with
  | output octets => exact settled
  | errorOutput octets => exact settled
  | closed exitCode => simp [take, settle, settled]
  | failed message => simp [take, settle, settled]

theorem outcome_take_of_open (stays : event.isEnd = false) :
    (watch.take command event).outcome = watch.outcome := by
  cases event with
  | output octets => rfl
  | errorOutput octets => rfl
  | closed exitCode => cases stays
  | failed message => cases stays

/-! ## All events -/

theorem takeAll_append (command : String) (events later : List ProcessEvent) :
    takeAll command (events ++ later) = later.foldl (take command) (takeAll command events) :=
  List.foldl_append

theorem takeAll_concat (command : String) (events : List ProcessEvent) (event : ProcessEvent) :
    takeAll command (events ++ [event]) = (takeAll command events).take command event :=
  takeAll_append command events [event]

theorem flatten_takeAll (command : String) (events : List ProcessEvent) :
    (takeAll command events).pieces.flatten = written events ∧
    (takeAll command events).errorPieces.flatten = writtenErrors events := by
  induction events using List.reverseRecOn with
  | nil => exact ⟨rfl, rfl⟩
  | append_singleton events event ih =>
      obtain ⟨pieces, errorPieces⟩ := flatten_take command (takeAll command events) event
      rw [takeAll_concat, pieces, errorPieces, ih.1, ih.2]
      simp [written, writtenErrors]

theorem outcome_foldl (settled : watch.outcome = some outcome) (later : List ProcessEvent) :
    (later.foldl (take command) watch).outcome = some outcome := by
  induction later generalizing watch with
  | nil => exact settled
  | cons event rest ih => exact ih (outcome_take settled event)

theorem outcome_of_open (stays : Open events) : (takeAll command events).outcome = none := by
  induction events using List.reverseRecOn with
  | nil => rfl
  | append_singleton events event ih =>
      obtain ⟨before, last⟩ := List.forall_mem_append.mp stays
      rw [takeAll_concat, outcome_take_of_open (last event (by simp))]
      exact ih before

end ProcessWatch

namespace ProcessOutcome

open ProcessEvent (Open written writtenErrors)

variable {command : String} {before after : List ProcessEvent} {outcome : ProcessOutcome}

theorem ofEvents?_append {events : List ProcessEvent}
    (settled : ofEvents? command events = some outcome) (later : List ProcessEvent) :
    ofEvents? command (events ++ later) = some outcome := by
  rw [ofEvents?, ProcessWatch.takeAll_append]
  exact ProcessWatch.outcome_foldl settled later

/-- The events up to the first end decide. -/
theorem ofEvents?_first_end {last : ProcessEvent}
    (settled : ofEvents? command (before ++ [last]) = some outcome) :
    ofEvents? command (before ++ last :: after) = some outcome := by
  rw [List.append_cons]
  exact ofEvents?_append settled after

theorem ofEvents?_closed (stays : Open before) (exitCode : Option Int) :
    ofEvents? command (before ++ .closed exitCode :: after)
      = some ⟨exitCode.getD 1, written before, Text.Utf8.decode (writtenErrors before)⟩ := by
  obtain ⟨pieces, errorPieces⟩ := ProcessWatch.flatten_takeAll command before
  refine ofEvents?_first_end ?_
  rw [ofEvents?, ProcessWatch.takeAll_concat, ProcessWatch.take, ProcessWatch.settle,
    ProcessWatch.outcome_of_open stays, pieces, errorPieces]
  rfl

theorem ofEvents?_failed (stays : Open before) (message : String) :
    ofEvents? command (before ++ .failed message :: after)
      = some ⟨-1, [], "Failed to launch " ++ command ++ ": " ++ message⟩ := by
  refine ofEvents?_first_end ?_
  rw [ofEvents?, ProcessWatch.takeAll_concat, ProcessWatch.take, ProcessWatch.settle,
    ProcessWatch.outcome_of_open stays]
  rfl

theorem ofEvents?_eq_none_iff {events : List ProcessEvent} :
    ofEvents? command events = none ↔ Open events := by
  constructor
  · intro unsettled
    cases ProcessEvent.ending events with
    | stays stays => exact stays
    | closed stays exitCode after => cases unsettled.symm.trans (ofEvents?_closed stays exitCode)
    | failed stays message after => cases unsettled.symm.trans (ofEvents?_failed stays message)
  · exact ProcessWatch.outcome_of_open

theorem exitCode_eq_zero_iff {events : List ProcessEvent}
    (settled : ofEvents? command events = some outcome) : outcome.exitCode = 0 ↔
      ∃ before after, Open before ∧ events = before ++ .closed (some 0) :: after := by
  constructor
  · intro zero
    cases ProcessEvent.ending events with
    | stays stays => cases settled.symm.trans (ofEvents?_eq_none_iff.mpr stays)
    | @closed before stays exitCode after =>
        cases settled.symm.trans (ofEvents?_closed stays exitCode)
        cases exitCode with
        | none => cases zero
        | some code =>
            cases zero
            exact ⟨before, after, stays, rfl⟩
    | failed stays message after =>
        cases settled.symm.trans (ofEvents?_failed stays message)
        cases zero
  · rintro ⟨before, after, stays, rfl⟩
    cases settled.symm.trans (ofEvents?_closed stays (some 0))
    rfl

/-- A process is settled by its first end, for good, and by nothing of what it has written before
but the octets of either stream. -/
theorem settled_by_first_end (command : String) :
    (∀ events, ofEvents? command events = none ↔ Open events) ∧
    (∀ events later outcome, ofEvents? command events = some outcome →
      ofEvents? command (events ++ later) = some outcome) ∧
    (∀ before after, Open before →
      (∀ exitCode, ofEvents? command (before ++ .closed exitCode :: after)
        = some ⟨exitCode.getD 1, written before, Text.Utf8.decode (writtenErrors before)⟩) ∧
      ∀ message, ofEvents? command (before ++ .failed message :: after)
        = some ⟨-1, [], "Failed to launch " ++ command ++ ": " ++ message⟩) ∧
    (∀ before others after later exitCode, Open before → Open others →
      written before = written others → writtenErrors before = writtenErrors others →
      ofEvents? command (before ++ .closed exitCode :: after)
        = ofEvents? command (others ++ .closed exitCode :: later)) ∧
    ∀ events outcome, ofEvents? command events = some outcome → (outcome.exitCode = 0 ↔
      ∃ before after, Open before ∧ events = before ++ .closed (some 0) :: after) := by
  refine ⟨fun events => ofEvents?_eq_none_iff, ?_, ?_, ?_, ?_⟩
  · exact fun events later outcome settled => ofEvents?_append settled later
  · exact fun before after stays => ⟨ofEvents?_closed stays, ofEvents?_failed stays⟩
  · intro before others after later exitCode stays staysOther same sameErrors
    rw [ofEvents?_closed stays, ofEvents?_closed staysOther, same, sameErrors]
  · exact fun events outcome settled => exitCode_eq_zero_iff settled

namespace Sample

/-- The character `é` is cut in two, and output comes in between. -/
def cut : List ProcessEvent := [.errorOutput [0xC3], .output [1, 2], .errorOutput [0xA9]]

def whole : List ProcessEvent := [.output [1], .output [2], .errorOutput [0xC3, 0xA9]]

theorem killed_process_settled :
    (Open cut ∧ Open whole ∧ written cut = written whole ∧
      writtenErrors cut = writtenErrors whole) ∧
    ofEvents? "xcrun" (cut ++ .closed none :: [.failed "gone"]) = some ⟨1, [1, 2], "é"⟩ ∧
    ofEvents? "xcrun" (cut ++ .closed none :: [.failed "gone"])
      = ofEvents? "xcrun" (whole ++ .closed none :: []) ∧
    ofEvents? "xcrun" (cut ++ .closed none :: [.failed "gone"] ++ [.closed (some 0)])
      = some ⟨1, [1, 2], "é"⟩ ∧
    ofEvents? "xcrun" (cut ++ .failed "gone" :: [.closed (some 0)])
      = some ⟨-1, [], "Failed to launch xcrun: gone"⟩ ∧
    ¬ ∃ before after, Open before ∧
      cut ++ .closed none :: [.failed "gone"] = before ++ .closed (some 0) :: after := by
  obtain ⟨-, lasting, ends, alike, zero⟩ := settled_by_first_end "xcrun"
  have stays : Open cut := by decide
  have staysWhole : Open whole := by decide
  have killed : ofEvents? "xcrun" (cut ++ .closed none :: [.failed "gone"])
      = some ⟨1, [1, 2], "é"⟩ := by
    rw [(ends cut [.failed "gone"] stays).1 none]
    decide +kernel
  refine ⟨⟨stays, staysWhole, rfl, rfl⟩, killed,
    alike cut whole [.failed "gone"] [] none stays staysWhole rfl rfl,
    lasting _ [.closed (some 0)] _ killed, ?_, ?_⟩
  · rw [(ends cut [.closed (some 0)] stays).2 "gone"]
    decide +kernel
  · rw [← zero _ _ killed]
    decide

end Sample

end ProcessOutcome

end AssetCatalog
