import AssetCatalog.Proofs.CommandLine.Check
import AssetCatalog.Proofs.Compile.Brackets
import Mathlib.Data.List.Infix
/-! # Whom the display blames

While catalogs are compiled the display keeps one spinner and one name.  If no details are wanted,
the events of a batch take it through one story for each catalog that has been completed: a new
spinner is started for the catalog and ended with its success line (`story`).  A catalog that is
open when the batch ends has begun a story (`Shows`), so it is the one that is blamed, and without
an open catalog nobody is blamed, even though the name of the last one is still kept.

Spinners write to the error output, to which nothing else is written before the batch has come to
its end, so the lines there are those of the stories (`Tells`).

If details are wanted, no spinner is ever started, and what is told of the events goes to the
ordinary output. -/

set_option autoImplicit false

namespace AssetCatalog

def Event.validated? (event : Event) : Option Place :=
  match event.progress with
  | .validated _ => some event.catalog
  | _ => none

def Event.completed? (event : Event) : Option Place :=
  match event.progress with
  | .completed => some event.catalog
  | _ => none

namespace Bracketed

variable {events : List Event} {done : List Place} {opened : Option Place}

theorem not_validated_of_between {event : Event} (between : event.progress.IsBetween) :
    event.validated? = none ∧ event.completed? = none := by
  unfold Event.validated? Event.completed?
  constructor
  · split
    · next validated => exact absurd validated (between.1 _)
    · rfl
  · split
    · next completed => exact absurd completed between.2
    · rfl

theorem catalogs_eq (bracketed : Bracketed events done opened) :
    events.filterMap Event.validated? = done ++ opened.toList ∧
      events.filterMap Event.completed? = done := by
  induction bracketed with
  | start => exact ⟨rfl, rfl⟩
  | opening before validated ih =>
      simp [ih, Event.validated?, Event.completed?, validated]
  | passing before between ih =>
      obtain ⟨notValidated, notCompleted⟩ := not_validated_of_between between
      simp [ih, notValidated, notCompleted]
  | closing before completed ih =>
      simp [ih, Event.validated?, Event.completed?, completed]

end Bracketed

namespace CommandLine

open AssetCatalog.Terminal

namespace Display

variable {console : Console} {display : Display}

/-! ## What is shown of a catalog -/

def spinnerFor (console : Console) (catalog : Place) : Spinner :=
  .create console.interactive ("Compiling " ++ catalog.name ++ "...")

def turning (console : Console) (catalog : Place) : Spinner :=
  ((spinnerFor console catalog).apply (.start "")).1

def begun (console : Console) (catalog : Place) : Act :=
  .spin (spinnerFor console catalog) (.start "")

def succeeded (console : Console) (catalog : Place) : Act :=
  .spin (turning console catalog) (.succeed ("Compiled " ++ catalog.name))

def failed (console : Console) (catalog : Place) : Act :=
  .spin (turning console catalog) (.fail ("Failed " ++ catalog.name))

def story (console : Console) (catalog : Place) : List Act :=
  [begun console catalog, succeeded console catalog]

/-- All that is shown of a catalog at which a batch has ended; no more than the beginning if the
spinner has never turned. -/
def unfinished (console : Console) (catalog : Place) : List Act :=
  begun console catalog :: if console.interactive then [failed console catalog] else []

/-- All that is shown of a batch, with the catalogs that are completed and the one that is open. -/
def stories (console : Console) (done : List Place) (opened : Option Place) : List Act :=
  done.flatMap (story console) ++ opened.toList.flatMap (unfinished console)

theorem spinning_turning (console : Console) (catalog : Place) :
    (turning console catalog).spinning = console.interactive := by
  unfold turning spinnerFor Spinner.create Spinner.apply
  cases console.interactive <;> rfl

/-! ## One event -/

section

variable {event : Event} (quiet : display.verbose = false)
include quiet

theorem receive_of_validated {tag : String} (validated : event.progress = .validated tag) :
    display.receive event
      = ({ display with
            current := event.catalog.name, spinner := turning display.console event.catalog },
          [begun display.console event.catalog]) := by
  simp only [receive, quiet, receiveQuiet, validated]
  rfl

theorem receive_of_between (between : event.progress.IsBetween) :
    display.receive event = (display, []) := by
  simp only [receive, quiet, receiveQuiet]
  cases progress : event.progress with
  | validated tag => exact absurd progress (between.1 tag)
  | completed => exact absurd progress between.2
  | staged | invoking | classified | copied => rfl

theorem receive_of_completed (completed : event.progress = .completed)
    (turns : display.spinner = turning display.console event.catalog) :
    display.receive event
      = ({ display with spinner := (turning display.console event.catalog).stopped },
          [succeeded display.console event.catalog]) := by
  simp only [receive, quiet, receiveQuiet, completed, spun, turns, succeeded, Event.message]
  rfl

end

/-! ## All events -/

theorem follow_append (display : Display) (earlier later : List Event) :
    display.follow (earlier ++ later)
      = (((display.follow earlier).1.follow later).1,
        (display.follow earlier).2 ++ ((display.follow earlier).1.follow later).2) := by
  induction earlier generalizing display with
  | nil => rfl
  | cons event rest ih => simp [follow, ih]

theorem follow_concat (display : Display) (events : List Event) (event : Event) :
    display.follow (events ++ [event])
      = (((display.follow events).1.receive event).1,
        (display.follow events).2 ++ ((display.follow events).1.receive event).2) := by
  simp [follow_append, follow]

structure Shows (console : Console) (done : List Place) (opened : Option Place)
    (display : Display) (acts : List Act) : Prop where
  on : display.console = console
  quiet : display.verbose = false
  idle : opened = none → display.spinner.spinning = false
  busy : ∀ catalog, opened = some catalog →
    display.spinner = turning console catalog ∧ display.current = catalog.name
  acts : acts = done.flatMap (story console) ++ opened.toList.map (begun console)

namespace Shows

variable {done : List Place} {opened : Option Place} {acts : List Act} {event : Event}

theorem opening {tag : String} (shows : Shows console done none display acts)
    (validated : event.progress = .validated tag) :
    Shows console done (some event.catalog) (display.receive event).1
      (acts ++ (display.receive event).2) := by
  obtain ⟨rfl, quiet, _, _, rfl⟩ := shows
  rw [receive_of_validated quiet validated]
  refine ⟨rfl, quiet, nofun, ?_, by simp⟩
  intro catalog same
  cases same
  exact ⟨rfl, rfl⟩

theorem passing (shows : Shows console done opened display acts)
    (between : event.progress.IsBetween) :
    Shows console done opened (display.receive event).1 (acts ++ (display.receive event).2) := by
  rw [receive_of_between shows.quiet between, List.append_nil]
  exact shows

theorem closing (shows : Shows console done (some event.catalog) display acts)
    (completed : event.progress = .completed) :
    Shows console (done ++ [event.catalog]) none (display.receive event).1
      (acts ++ (display.receive event).2) := by
  obtain ⟨rfl, quiet, _, busy, rfl⟩ := shows
  rw [receive_of_completed quiet completed (busy _ rfl).1]
  exact ⟨rfl, quiet, fun _ => rfl, nofun, by simp [story]⟩

end Shows

theorem shows_of_bracketed {events : List Event} {done : List Place} {opened : Option Place}
    (bracketed : Bracketed events done opened) :
    Shows console done opened ((start console false).follow events).1
      ((start console false).follow events).2 := by
  induction bracketed with
  | start => exact ⟨rfl, rfl, fun _ => rfl, nofun, rfl⟩
  | opening before validated ih =>
      rw [follow_concat]
      exact ih.opening validated
  | passing before between ih =>
      rw [follow_concat]
      exact ih.passing between
  | closing before completed ih =>
      rw [follow_concat]
      exact ih.closing completed

theorem Shows.fail_eq {done : List Place} {opened : Option Place} {acts : List Act}
    (shows : Shows console done opened display acts) :
    acts ++ display.fail = stories console done opened := by
  rw [shows.acts, List.append_assoc, stories]
  congr 1
  cases opened with
  | none => simp [fail, shows.idle rfl]
  | some catalog =>
      obtain ⟨turns, current⟩ := shows.busy catalog rfl
      unfold fail
      rw [turns, spinning_turning, current]
      cases interactive : console.interactive with
      | false => simp [unfinished, interactive]
      | true => simp [unfinished, interactive, spun, turns, failed]

/-! ## What is started and ended -/

def Act.started? : Act → Option Spinner
  | .spin spinner (.start _) => some spinner
  | _ => none

def Act.starts (act : Act) : Bool := act.started?.isSome

def Act.ends : Act → Bool
  | .spin _ (.succeed _) | .spin _ (.fail _) | .spin _ .stop => true
  | _ => false

theorem filterMap_started_stories (console : Console) (done : List Place)
    (opened : Option Place) : (stories console done opened).filterMap Act.started?
      = (done ++ opened.toList).map (spinnerFor console) := by
  have ofStory (catalog : Place) :
      (story console catalog).filterMap Act.started? = [spinnerFor console catalog] := rfl
  have ofUnfinished (catalog : Place) :
      (unfinished console catalog).filterMap Act.started? = [spinnerFor console catalog] := by
    unfold unfinished
    split
    · rfl
    · rfl
  simp only [stories, List.filterMap_append, List.filterMap_flatMap, ofStory, ofUnfinished,
    ← List.map_eq_flatMap, List.map_append]

/-- At no time is there more than one spinner that has been started and not ended. -/
theorem alone_of_isPrefix {done : List Place} {opened : Option Place} {sofar : List Act}
    (begins : sofar <+: stories console done opened) :
    sofar.countP Act.ends ≤ sofar.countP Act.starts ∧
      sofar.countP Act.starts ≤ sofar.countP Act.ends + 1 := by
  induction done generalizing sofar with
  | nil =>
      cases opened with
      | none =>
          obtain rfl := List.prefix_nil.mp begins
          simp
      | some catalog =>
          have within : sofar <+: [begun console catalog, failed console catalog] := by
            refine begins.trans ?_
            unfold stories unfinished
            split
            · exact List.prefix_rfl
            · exact ⟨[failed console catalog], rfl⟩
          have known := (List.mem_inits _ _).mpr within
          simp only [List.inits, List.map_cons, List.map_nil, List.mem_cons, List.not_mem_nil,
            or_false] at known
          rcases known with rfl | rfl | rfl
          · exact ⟨Nat.le_refl 0, Nat.zero_le 1⟩
          · exact ⟨Nat.zero_le 1, Nat.le_refl 1⟩
          · exact ⟨Nat.le_refl 1, Nat.le_succ 1⟩
  | cons catalog rest ih =>
      have form : stories console (catalog :: rest) opened
          = begun console catalog :: succeeded console catalog :: stories console rest opened := rfl
      rw [form] at begins
      rcases List.prefix_cons_iff.mp begins with rfl | ⟨further, rfl, ended⟩
      · decide
      rcases List.prefix_cons_iff.mp ended with rfl | ⟨others, rfl, behind⟩
      · exact ⟨Nat.zero_le _, Nat.le_refl _⟩
      have balanced := ih behind
      have started : Act.starts (begun console catalog) = true := rfl
      have notEnded : Act.ends (begun console catalog) = false := rfl
      have ended : Act.ends (succeeded console catalog) = true := rfl
      have notStarted : Act.starts (succeeded console catalog) = false := rfl
      simp only [List.countP_cons_of_pos, List.countP_cons_of_neg, started, notEnded, ended,
        notStarted, Bool.false_eq_true, not_false_eq_true]
      omega

/-! ## What is written -/

def startLinesFor (console : Console) (catalog : Place) : List Written :=
  if console.interactive then []
  else [⟨.errorOutput, "- " ++ ("Compiling " ++ catalog.name ++ "...")⟩]

def successLineFor (catalog : Place) : Written :=
  ⟨.errorOutput, successSign ++ " " ++ ("Compiled " ++ catalog.name)⟩

def failureLineFor (catalog : Place) : Written :=
  ⟨.errorOutput, failureSign ++ " " ++ ("Failed " ++ catalog.name)⟩

theorem written_begun (catalog : Place) :
    (begun console catalog).written = startLinesFor console catalog := by
  unfold begun spinnerFor Spinner.create Act.written Spinner.apply startLinesFor
  cases console.interactive with
  | false => simp [Spinner.textOr]
  | true => rfl

theorem written_succeeded (catalog : Place) :
    (succeeded console catalog).written = [successLineFor catalog] := by
  simp [succeeded, Act.written, Spinner.apply, Spinner.textOr, successLineFor]

theorem written_failed (catalog : Place) :
    (failed console catalog).written = [failureLineFor catalog] := by
  simp [failed, Act.written, Spinner.apply, Spinner.textOr, failureLineFor]

def storyLines (console : Console) (catalog : Place) : List Written :=
  startLinesFor console catalog ++ [successLineFor catalog]

def unfinishedLines (console : Console) (catalog : Place) : List Written :=
  startLinesFor console catalog ++ if console.interactive then [failureLineFor catalog] else []

theorem written_stories (console : Console) (done : List Place) (opened : Option Place) :
    (stories console done opened).flatMap Act.written
      = done.flatMap (storyLines console) ++ opened.toList.flatMap (unfinishedLines console) := by
  have ofStory (catalog : Place) :
      (story console catalog).flatMap Act.written = storyLines console catalog := by
    simp [story, storyLines, written_begun, written_succeeded]
  have ofUnfinished (catalog : Place) :
      (unfinished console catalog).flatMap Act.written = unfinishedLines console catalog := by
    unfold unfinished unfinishedLines
    split
    · simp [written_begun, written_failed]
    · simp [written_begun]
  simp only [stories, List.flatMap_append, List.flatMap_assoc, ofStory, ofUnfinished]

theorem errorOutput_of_lines {done : List Place} {opened : Option Place} : ∀ line ∈
    done.flatMap (storyLines console) ++ opened.toList.flatMap (unfinishedLines console),
      line.stream = .errorOutput := by
  have starting (catalog : Place) : ∀ line ∈ startLinesFor console catalog,
      line.stream = .errorOutput := by
    unfold startLinesFor
    split
    · exact nofun
    · simp
  simp only [List.forall_mem_append, List.forall_mem_flatMap, storyLines, unfinishedLines]
  refine ⟨fun catalog _ => ⟨starting catalog, by simp [successLineFor]⟩,
    fun catalog _ => ⟨starting catalog, ?_⟩⟩
  split
  · simp [failureLineFor]
  · exact nofun

def isSigned (sign : String) (line : Written) : Bool :=
  decide (line.stream = .errorOutput) && (sign ++ " ").toList.isPrefixOf line.text.toList

theorem isSigned_line {sign other : String} {c d : Char} (text : String)
    (is : sign.toList = [c]) (has : other.toList = [d]) :
    isSigned sign ⟨.errorOutput, other ++ " " ++ text⟩ = decide (c = d) := by
  simp [isSigned, is, has, List.isPrefixOf, beq_eq_decide]

section

variable {sign : String} {c : Char} (is : sign.toList = [c])
include is

theorem isSigned_successLineFor (catalog : Place) :
    isSigned sign (successLineFor catalog) = decide (c = '✔') := isSigned_line _ is rfl

theorem isSigned_failureLineFor (catalog : Place) :
    isSigned sign (failureLineFor catalog) = decide (c = '✖') := isSigned_line _ is rfl

theorem filter_startLinesFor (catalog : Place) (differ : c ≠ '-') :
    (startLinesFor console catalog).filter (isSigned sign) = [] := by
  have unsigned (text : String) : isSigned sign ⟨.errorOutput, "- " ++ text⟩ = false :=
    (isSigned_line text is (rfl : "-".toList = ['-'])).trans (decide_eq_false differ)
  unfold startLinesFor
  split
  · rfl
  · exact List.filter_cons_of_neg (by simp [unsigned])

theorem filter_lines (done : List Place) (opened : Option Place) (differ : c ≠ '-') :
    (done.flatMap (storyLines console)
        ++ opened.toList.flatMap (unfinishedLines console)).filter (isSigned sign)
      = (if c = '✔' then done.map successLineFor else [])
        ++ if console.interactive ∧ c = '✖' then opened.toList.map failureLineFor else [] := by
  have ofStory (catalog : Place) : (storyLines console catalog).filter (isSigned sign)
      = if c = '✔' then [successLineFor catalog] else [] := by
    simp [storyLines, filter_startLinesFor is _ differ, isSigned_successLineFor is,
      List.filter_cons]
  have ofUnfinished (catalog : Place) : (unfinishedLines console catalog).filter (isSigned sign)
      = if console.interactive ∧ c = '✖' then [failureLineFor catalog] else [] := by
    unfold unfinishedLines
    cases console.interactive with
    | false => simp [filter_startLinesFor is _ differ]
    | true =>
        simp [filter_startLinesFor is _ differ, isSigned_failureLineFor is, List.filter_cons]
  simp only [List.filter_append, List.filter_flatMap, ofStory, ofUnfinished]
  congr 1
  · split
    · exact (List.map_eq_flatMap ..).symm
    · exact List.flatMap_eq_nil_iff.mpr fun _ _ => rfl
  · split
    · exact (List.map_eq_flatMap ..).symm
    · exact List.flatMap_eq_nil_iff.mpr fun _ _ => rfl

end

/-- The error output of a quiet run: the lines for all catalogs that are completed and for the open
one.  Those with the sign of success are one for each catalog that is completed. -/
structure Tells (console : Console) (done : List Place) (opened : Option Place)
    (written : List Written) : Prop where
  errors : written.filter (fun line => decide (line.stream = .errorOutput))
    = done.flatMap (storyLines console) ++ opened.toList.flatMap (unfinishedLines console)
  successes : written.filter (isSigned successSign) = done.map successLineFor
  failures : written.filter (isSigned failureSign)
    = if console.interactive then opened.toList.map failureLineFor else []

theorem filter_isSigned (sign : String) (written : List Written) :
    written.filter (isSigned sign)
      = (written.filter fun line => decide (line.stream = .errorOutput)).filter
        (isSigned sign) := by
  rw [List.filter_filter]
  apply List.filter_congr
  intro line _
  unfold isSigned
  cases decide (line.stream = .errorOutput) with
  | false => simp
  | true => simp

theorem tells_of_errors {done : List Place} {opened : Option Place} {written : List Written}
    (errors : written.filter (fun line => decide (line.stream = .errorOutput))
      = done.flatMap (storyLines console) ++ opened.toList.flatMap (unfinishedLines console)) :
    Tells console done opened written := by
  have success : successSign.toList = ['✔'] := rfl
  have failure : failureSign.toList = ['✖'] := rfl
  refine ⟨errors, ?_, ?_⟩
  · rw [filter_isSigned, errors, filter_lines success _ _ (by decide)]
    simp
  · rw [filter_isSigned, errors, filter_lines failure _ _ (by decide)]
    simp

/-! ## The displays of a batch -/

/-- An event makes a quiet display begin a new spinner for its catalog, and the stories of all
catalogs that have been validated before are told to their end. -/
structure BeginsAnew (console : Console) (earlier : List Event) (event : Event) : Prop where
  settled : earlier.filterMap Event.validated? = earlier.filterMap Event.completed?
  ended : ((start console false).follow earlier).2
    = (earlier.filterMap Event.completed?).flatMap (story console)
  begins : ((start console false).follow (earlier ++ [event])).2
    = ((start console false).follow earlier).2 ++ [begun console event.catalog]

/-- What a quiet display does for the events of a batch, with the catalogs that are completed by
then and the one that is open. -/
structure Follows (console : Console) (told : List Event) (done : List Place)
    (opened : Option Place) (acts : List Act) : Prop where
  validated : told.filterMap Event.validated? = done ++ opened.toList
  completed : told.filterMap Event.completed? = done
  started : acts.filterMap Act.started?
    = (told.filterMap Event.validated?).map (spinnerFor console)
  anew : ∀ earlier event later tag, told = earlier ++ event :: later →
    event.progress = .validated tag → BeginsAnew console earlier event
  alone : ∀ sofar, sofar <+: acts → sofar.countP Act.ends ≤ sofar.countP Act.starts ∧
    sofar.countP Act.starts ≤ sofar.countP Act.ends + 1

theorem beginsAnew_of_bracketed {earlier later : List Event} {event : Event} {tag : String}
    {done : List Place} {opened : Option Place}
    (bracketed : Bracketed (earlier ++ event :: later) done opened)
    (validated : event.progress = .validated tag) : BeginsAnew console earlier event := by
  obtain ⟨closed, before⟩ := bracketed.before_validated validated
  obtain ⟨opens, closes⟩ := before.catalogs_eq
  have shows := @shows_of_bracketed console _ _ _ before
  refine ⟨?_, ?_, ?_⟩
  · rw [opens, closes]
    exact List.append_nil _
  · rw [shows.acts, closes]
    exact List.append_nil _
  · rw [follow_concat, receive_of_validated shows.quiet validated, shows.on]

theorem follows_of_bracketed {told : List Event} {done : List Place} {opened : Option Place}
    (bracketed : Bracketed told done opened) :
    Follows console told done opened (stories console done opened) := by
  obtain ⟨validated, completed⟩ := bracketed.catalogs_eq
  refine ⟨validated, completed, ?_, ?_, fun sofar => alone_of_isPrefix⟩
  · rw [validated]
    exact filterMap_started_stories console done opened
  · rintro earlier event later tag rfl
    exact beginsAnew_of_bracketed bracketed

theorem receive_detailed (event : Event) (detailed : display.verbose = true) :
    (display.receive event).1.verbose = true ∧
      (display.receive event).1.spinner = display.spinner ∧
      ∀ act ∈ (display.receive event).2,
        ∃ kind text, act = .message kind text ∧ kind ≠ .failure := by
  have plain : display.receive event = display.receiveVerbose event := if_pos detailed
  rw [plain, receiveVerbose]
  cases event.progress with
  | validated | staged | invoking | classified | copied | completed =>
      exact ⟨detailed, rfl, by simp⟩

theorem follow_detailed (told : List Event) (detailed : display.verbose = true) :
    (display.follow told).1.spinner = display.spinner ∧
      ∀ act ∈ (display.follow told).2,
        ∃ kind text, act = .message kind text ∧ kind ≠ .failure := by
  induction told generalizing display with
  | nil => exact ⟨rfl, nofun⟩
  | cons event rest ih =>
      obtain ⟨still, same, first⟩ := receive_detailed event detailed
      obtain ⟨kept, others⟩ := ih still
      exact ⟨kept.trans same, List.forall_mem_append.mpr ⟨first, others⟩⟩

end Display

namespace Program

variable {host : Host} {paths : List String} {verbose : Bool} {switch : Option String}
  {state : RunState}

def batchActs (host : Host) (verbose : Bool) (start : RunState)
    (ran : Except Cause (List Compiled) × RunState) : List Display.Act :=
  let (display, acts) := progress host verbose start ran.2
  match ran.1 with
  | .ok _ => acts
  | .error _ => acts ++ display.fail

/-- A run of the command ends before its catalogs, and then there is no event and nothing on the
error output, or with a batch of them. -/
inductive Goes (host : Host) (paths : List String) (verbose : Bool) (state : RunState)
    (performed : Performed) : Prop where
  | early {cause : Cause} (rejected : performed.result = .error cause)
      (untold : performed.state.events = state.events)
      (plain : ∀ line ∈ performed.written, line.stream = .output)
  | batch {target : String} {start : RunState} {told : List Event} {done : List Place}
      {opened : Option Place} {acts : List Display.Act}
      (untold : start.events = state.events)
      (left : performed.state = (Compile.all host.setting target verbose paths start).2)
      (events : performed.state.events = state.events ++ told)
      (halts : Compile.Halts host.setting target verbose paths start done opened
        (Compile.all host.setting target verbose paths start).1)
      (result : performed.result
        = (Compile.all host.setting target verbose paths start).1.map fun _ => ())
      (shown : acts = batchActs host verbose start
        (Compile.all host.setting target verbose paths start))
      (quiet : verbose = false → Display.Follows host.console told done opened acts ∧
        Display.Tells host.console done opened performed.written)
      (detailed : verbose = true →
        (∀ act ∈ acts, ∃ kind text, act = .message kind text ∧ kind ≠ .failure) ∧
        ∀ line ∈ performed.written, line.stream = .output)

theorem batchActs_quiet {start : RunState} {ran : Except Cause (List Compiled) × RunState}
    {told : List Event} {done : List Place} {opened : Option Place}
    (events : ran.2.events = start.events ++ told) (bracketed : Bracketed told done opened)
    (closed : ∀ results, ran.1 = .ok results → opened = none) :
    batchActs host false start ran = Display.stories host.console done opened := by
  have shows := @Display.shows_of_bracketed host.console _ _ _ bracketed
  unfold batchActs progress
  rw [events, List.drop_left]
  obtain ⟨result, after⟩ := ran
  cases result with
  | error cause => exact shows.fail_eq
  | ok results =>
      obtain rfl := closed results rfl
      exact shows.acts

theorem batchActs_detailed (host : Host) (start : RunState)
    (ran : Except Cause (List Compiled) × RunState) :
    ∀ act ∈ batchActs host true start ran,
      ∃ kind text, act = .message kind text ∧ kind ≠ .failure := by
  obtain ⟨idle, messages⟩ := @Display.follow_detailed (.start host.console true)
    (ran.2.events.drop start.events.length) rfl
  unfold batchActs progress
  obtain ⟨result, after⟩ := ran
  cases result with
  | ok results => exact messages
  | error cause =>
      have nobody : ((Display.start host.console true).follow
          (after.events.drop start.events.length)).1.fail = [] := by
        unfold Display.fail
        rw [idle]
        rfl
      dsimp only
      rw [nobody, List.append_nil]
      exact messages

theorem mute_verify (setting : Setting) (required : Version) :
    Run.Mute setting (Gate.verify setting required) :=
  (Run.mute_perform _).andThenMute fun _ => (Run.mute_ofExcept _ _).andThenMute fun _ =>
    (Run.mute_note _ _ _).andThenMute fun _ => Run.mute_ofExcept _ _

theorem events_verify (setting : Setting) (required : Version) (state : RunState) :
    (Gate.verify setting required state).2.events = state.events := by
  unfold RunState.events
  rw [(mute_verify setting required state).1, List.append_nil]

theorem plain_message {kind : MessageKind} (text : String) (kindly : kind ≠ .failure) :
    ∀ line ∈ kind.written text, line.stream = .output := by
  cases kind with
  | failure => exact absurd rfl kindly
  | success | information | stageSuccess | stageInformation | header =>
      simp [MessageKind.written, toOutput]

theorem plain_announcement (version : Version) (target : String) (verbose : Bool) (count : Nat) :
    ∀ line ∈ announcement version target verbose count, line.stream = .output := by
  cases verbose with
  | false => simp [announcement, versionNote, MessageKind.written, toOutput]
  | true => simp [announcement, versionNote, MessageKind.written, toOutput]

theorem plain_summary (host : Host) (results : List Compiled) :
    ∀ line ∈ summary host results, line.stream = .output := by
  simp [summary, MessageKind.written, toOutput]

theorem written_of_catalogs (host : Host) (paths : List String) (verbose : Bool) (start : RunState)
    (version : Version) (target : String) : ∃ before behind,
      ((compileCatalogs host paths verbose target start).after (versionNote version)).written
        = before ++ (batchActs host verbose start (Compile.all host.setting target verbose paths
            start)).flatMap Display.Act.written ++ behind ∧
      ∀ line ∈ before ++ behind, line.stream = .output := by
  have announced := plain_announcement version target verbose paths.length
  cases ran : Compile.all host.setting target verbose paths start with
  | mk result after =>
      cases result with
      | error cause =>
          rw [performed_of_error ran]
          exact ⟨_, [], (List.append_nil _).symm, by rwa [List.append_nil]⟩
      | ok results =>
          rw [performed_of_ok ran]
          exact ⟨_, _, (List.append_assoc _ _ _).symm,
            List.forall_mem_append.mpr ⟨announced, plain_summary host results⟩⟩

section

variable {target : String} {start : RunState} {told : List Event} {done : List Place}
  {opened : Option Place} {ran : Except Cause (List Compiled) × RunState}
  {before behind : List Written}

theorem quiet_of_batch (events : ran.2.events = start.events ++ told)
    (bracketed : Bracketed told done opened)
    (halts : Compile.Halts host.setting target false paths start done opened ran.1)
    (plain : ∀ line ∈ before ++ behind, line.stream = .output) :
    Display.Follows host.console told done opened (batchActs host false start ran) ∧
      Display.Tells host.console done opened
        (before ++ (batchActs host false start ran).flatMap Display.Act.written ++ behind) := by
  have closed : ∀ results, ran.1 = .ok results → opened = none := by
    intro results finished
    rw [finished] at halts
    cases halts
    rfl
  rw [batchActs_quiet events bracketed closed, Display.written_stories]
  obtain ⟨plainBefore, plainBehind⟩ := List.forall_mem_append.mp plain
  have silent (lines : List Written) (each : ∀ line ∈ lines, line.stream = .output) :
      lines.filter (fun line => decide (line.stream = .errorOutput)) = [] := by
    rw [List.filter_eq_nil_iff]
    intro line member
    simp [each line member]
  refine ⟨Display.follows_of_bracketed bracketed, Display.tells_of_errors ?_⟩
  rw [List.filter_append, List.filter_append, silent before plainBefore, silent behind plainBehind,
    List.nil_append, List.append_nil, List.filter_eq_self]
  exact fun line member => decide_eq_true (Display.errorOutput_of_lines line member)

theorem detailed_of_batch (plain : ∀ line ∈ before ++ behind, line.stream = .output) :
    (∀ act ∈ batchActs host true start ran,
      ∃ kind text, act = .message kind text ∧ kind ≠ .failure) ∧
    ∀ line ∈ before ++ (batchActs host true start ran).flatMap Display.Act.written ++ behind,
      line.stream = .output := by
  have messages := batchActs_detailed host start ran
  obtain ⟨plainBefore, plainBehind⟩ := List.forall_mem_append.mp plain
  refine ⟨messages, ?_⟩
  rw [List.forall_mem_append, List.forall_mem_append, List.forall_mem_flatMap]
  refine ⟨⟨plainBefore, ?_⟩, plainBehind⟩
  intro act member
  obtain ⟨kind, text, rfl, kindly⟩ := messages act member
  exact plain_message text kindly

end

theorem goes_of_catalogs {start : RunState} (untold : start.events = state.events)
    (version : Version) (target : String) :
    Goes host paths verbose state
      ((compileCatalogs host paths verbose target start).after (versionNote version)) := by
  obtain ⟨told, done, opened, events, bracketed, halts⟩ :=
    Compile.bracketed_of_all host.setting target verbose paths start
  obtain ⟨result, left⟩ := compileCatalogs_eq host paths verbose target start
  obtain ⟨before, behind, written, plain⟩ :=
    written_of_catalogs host paths verbose start version target
  have toldSince : (Compile.all host.setting target verbose paths start).2.events
      = state.events ++ told := by
    rw [events, untold]
  refine .batch untold left ((congrArg RunState.events left).trans toldSince) halts result rfl ?_ ?_
  · rintro rfl
    rw [written]
    exact quiet_of_batch events bracketed halts plain
  · rintro rfl
    rw [written]
    exact detailed_of_batch plain

/-- A quiet run of the command keeps at most one spinner, which is that of the catalog at work;
each catalog that is completed is told by one success line, in order, and if the run fails in a
catalog, at most that one is told to have failed, provided that it had been validated.  A run with
details has no spinners. -/
theorem progress_blames (host : Host) (paths : List String) (verbose : Bool)
    (switch : Option String) (state : RunState) :
    Goes host paths verbose state (compile host paths verbose switch state) := by
  have untold := events_verify host.setting Gate.requiredVersion state
  cases verified : (Gate.verify host.setting Gate.requiredVersion state).1 with
  | error cause =>
      rw [compile, prepare_of_refused verified]
      exact .early rfl untold nofun
  | ok version =>
      rw [compile, prepare_of_accepted verified]
      cases Configuration.targetOf state.tree host.setting.directory
          (host.checkout switch).text with
      | error cause => exact .early rfl untold (by simp [MessageKind.written, toOutput])
      | ok target => exact goes_of_catalogs untold version target

end Program

end CommandLine

end AssetCatalog
