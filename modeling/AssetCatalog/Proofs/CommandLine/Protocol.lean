import AssetCatalog.CommandLine.Program
import AssetCatalog.Proofs.Compile.Batch
import AssetCatalog.Proofs.Terminal.Tables
/-! # The protocol of a compile on the command line

The command asks for the version of the compiler, finds the deployment target and compiles the
catalogs, in this order, and ends at the first thing that goes wrong.  `Protocol` lists the four
ways in which it can go, with what has been called and written, and `compile_protocol` says that
there are no others.  The exit code is 0 exactly when nothing goes wrong, and only then there are
the lines of a table, which show a row for each catalog. -/

set_option autoImplicit false

namespace AssetCatalog

namespace Gate

def query (tree : FileTree) : Call := ⟨queryArguments, tree⟩

/-- The compiler has told its version, and it is recent enough. -/
def Accepts (setting : Setting) (state : RunState) (version : Version) : Prop :=
  ∃ outcome, (setting.runner.respond (state.calls ++ [query state.tree])).outcome = .ok outcome ∧
    detect outcome = .ok version ∧ version.atLeast requiredVersion = true

theorem verify_eq (setting : Setting) (required : Version) (state : RunState) :
    (verify setting required state).2.toWork
        = { state.toWork with calls := state.calls ++ [query state.tree] } ∧
      (verify setting required state).1
        = match (setting.runner.respond (state.calls ++ [query state.tree])).outcome with
          | .error message => .error (.brokenDown message)
          | .ok outcome =>
            match detect outcome with
            | .error cause => .error cause
            | .ok version => accept required version := by
  have called : Run.call setting queryArguments none state
      = ((setting.runner.respond (state.calls ++ [query state.tree])).outcome.mapError
          Cause.brokenDown,
        { state with calls := state.calls ++ [query state.tree] }) := rfl
  rw [verify, Run.bind_apply, called]
  cases (setting.runner.respond (state.calls ++ [query state.tree])).outcome with
  | error message => exact ⟨rfl, rfl⟩
  | ok outcome =>
      simp only [Except.mapError, Run.bind_apply]
      cases detect outcome with
      | error cause => exact ⟨rfl, rfl⟩
      | ok version =>
          simp only [Run.ofExcept, Run.answer, Run.note]
          cases accept required version with
          | error cause => exact ⟨rfl, rfl⟩
          | ok accepted => exact ⟨rfl, rfl⟩

theorem verify_eq_ok_iff {setting : Setting} {state : RunState} {version : Version} :
    (verify setting requiredVersion state).1 = .ok version ↔ Accepts setting state version := by
  rw [(verify_eq setting requiredVersion state).2, Accepts]
  cases (setting.runner.respond (state.calls ++ [query state.tree])).outcome with
  | error message => simp
  | ok outcome =>
      cases detected : detect outcome with
      | error cause => simp [detected]
      | ok other =>
          simp only [accept, detected, Except.ok.injEq, exists_eq_left']
          constructor
          · intro accepted
            split at accepted
            · next recent =>
              cases accepted
              exact ⟨rfl, recent⟩
            · cases accepted
          · rintro ⟨rfl, recent⟩
            rw [if_pos recent]

end Gate

namespace Configuration

/-- The configuration of the checkout assigns this target, once. -/
def Assigns (setting : Setting) (checkout : String) (tree : FileTree) (target : String) : Prop :=
  ∃ configuration,
    tree.readFile setting.directory (Path.join checkout path) = .ok configuration ∧
      DeploymentTarget.assignments configuration = [target]

theorem target_eq (setting : Setting) (checkout : String) (state : RunState) :
    target setting checkout state
      = (targetOf state.tree setting.directory checkout, state) := by
  have files : Run.files state = (.ok state.tree, state) := rfl
  rw [target, Run.bind_apply, files]
  dsimp only
  cases targetOf state.tree setting.directory checkout with
  | error cause => rfl
  | ok target => rfl

theorem targetOf_eq_ok_iff {setting : Setting} {checkout : String} {tree : FileTree}
    {target : String} : targetOf tree setting.directory checkout = .ok target
      ↔ Assigns setting checkout tree target := by
  unfold targetOf Assigns targetIn
  dsimp only
  cases tree.readFile setting.directory (Path.join checkout path) with
  | error failure => simp
  | ok configuration =>
      simp only [DeploymentTarget.extract, Except.ok.injEq, exists_eq_left']
      cases assigned : DeploymentTarget.assignments configuration with
      | nil => simp [Except.mapError]
      | cons value others =>
          cases others with
          | nil => simp [Except.mapError]
          | cons next others => simp [Except.mapError]

end Configuration

namespace CommandLine.Program

open AssetCatalog.Terminal

variable {host : Host} {paths : List String} {verbose : Bool} {switch : Option String}
  {state start : RunState} {compiles : List Call} {ended : Ended}

def versionNote (version : Version) : List Written :=
  MessageKind.stageSuccess.written ("actool " ++ version.text ++ "")

def announcement (version : Version) (target : String) (verbose : Bool) (count : Nat) :
    List Written :=
  versionNote version ++ ((if verbose then MessageKind.information.written
    ("Determined the minimum deployment target to be " ++ target ++ ".") else [])
      ++ MessageKind.header.written ("Compiling " ++ catalogsText count))

def progress (host : Host) (verbose : Bool) (start after : RunState) : Display × List Display.Act :=
  (Display.start host.console verbose).follow (after.events.drop start.events.length)

/-- The calls are for the first catalogs in order, one each and all for the target, and each is
made when the ones before it have been compiled. -/
def CallsInOrder (host : Host) (target : String) (verbose : Bool) (paths : List String)
    (start : RunState) (compiles : List Call) : Prop :=
  ∀ i call, compiles[i]? = some call → ∃ catalog layout scratch, paths[i]? = some catalog ∧
    Layout.ofPath host.setting.directory catalog = .ok layout ∧
    call.arguments = Compile.argumentsFor ⟨catalog, target, verbose⟩ layout scratch ∧
    ∀ j, j < i → ∃ answer,
      Compile.Answers host.setting target verbose paths start j answer

/-- The line in which a cause is told at the end of a run. -/
def causeLine (cause : Cause) : Written :=
  ⟨.errorOutput, failureSign ++ " " ++ match cause.category? with
    | some category => category.label ++ "\n" ++ cause.message
    | none => cause.message⟩

structure Rejects (ended : Ended) (written : List Written) (cause : Cause) : Prop where
  exitCode : ended.exitCode = 1
  written : ended.written = written ++ [causeLine cause]

def closingLine (host : Host) (count : Nat) : Written :=
  toOutput (successSign ++ " "
    ++ ("Compiled " ++ catalogsText count ++ " in " ++ durationText host.elapsed))

/-- A row of the summary: the catalog beside its own icon bundle and asset archive. -/
def rowFor (directory : Place) (layout : Layout) : List String :=
  [displayPath directory layout.catalog, displayPath directory layout.iconBundle,
    displayPath directory layout.assetArchive]

/-- How a run of the command can go, with the calls of the compiler after the query. -/
inductive Protocol (host : Host) (paths : List String) (verbose : Bool) (switch : Option String)
    (state start : RunState) : List Call → Ended → Prop
  | refused {cause : Cause} {ended : Ended}
      (refusal : (Gate.verify host.setting Gate.requiredVersion state).1 = .error cause)
      (unchanged : ended.state.toWork = start.toWork) (rejects : Rejects ended [] cause) :
      Protocol host paths verbose switch state start [] ended
  | untargeted {version : Version} {cause : Cause} {ended : Ended}
      (accepted : Gate.Accepts host.setting state version)
      (refusal : Configuration.targetOf state.tree host.setting.directory
        (host.checkout switch).text = .error cause)
      (unchanged : ended.state.toWork = start.toWork)
      (rejects : Rejects ended (versionNote version) cause) :
      Protocol host paths verbose switch state start [] ended
  | stopped {version : Version} {target catalog : String} {k : Nat} {cause : Cause}
      {compiles : List Call} {ended : Ended}
      (accepted : Gate.Accepts host.setting state version)
      (assigned : Configuration.Assigns host.setting (host.checkout switch).text state.tree target)
      (there : paths[k]? = some catalog)
      (earlier : ∀ i, i < k → ∃ answer,
        Compile.Answers host.setting target verbose paths start i answer)
      (failed : (Compile.one host.setting ⟨catalog, target, verbose⟩
        (Compile.after host.setting target verbose (paths.take k) start)).1 = .error cause)
      (calls : CallsInOrder host target verbose paths start compiles)
      (count : compiles.length = k ∨ compiles.length = k + 1)
      (left : ended.state = Compile.after host.setting target verbose (paths.take (k + 1)) start)
      (rejects : Rejects ended (announcement version target verbose paths.length
        ++ ((progress host verbose start ended.state).2
          ++ (progress host verbose start ended.state).1.fail).flatMap Display.Act.written)
        cause) :
      Protocol host paths verbose switch state start compiles ended
  | finished {version : Version} {target : String} {layouts : List Layout} {compiles : List Call}
      {lines : List String} {ended : Ended}
      (accepted : Gate.Accepts host.setting state version)
      (assigned : Configuration.Assigns host.setting (host.checkout switch).text state.tree target)
      (answered : ∀ i, i < paths.length → ∃ answer,
        Compile.Answers host.setting target verbose paths start i answer)
      (calls : CallsInOrder host target verbose paths start compiles)
      (count : compiles.length = paths.length)
      (left : ended.state = Compile.after host.setting target verbose paths start)
      (exitCode : ended.exitCode = 0)
      (named : paths.map (Layout.ofPath host.setting.directory) = layouts.map .ok)
      (shows : ShowsRows (Border.forTerminal host.console.kind).vertical
        (["Catalog", "Icon bundle", "Asset archive"]
          :: layouts.map (rowFor host.setting.directory)) lines)
      (written : ended.written = announcement version target verbose paths.length
        ++ ((progress host verbose start ended.state).2.flatMap Display.Act.written
          ++ [toOutput "", toOutput ("\n".intercalate lines), toOutput "",
            closingLine host paths.length])) :
      Protocol host paths verbose switch state start compiles ended

theorem failure_written (cause : Cause) :
    MessageKind.failure.written cause.display = [causeLine cause] := by
  unfold causeLine Cause.display Cause.failure?
  cases cause.category? with
  | none => rfl
  | some category => rfl

theorem rejects_ended {performed : Performed} {cause : Cause}
    (failed : performed.result = .error cause) :
    Rejects (Program.ended verbose performed) performed.written cause := by
  obtain ⟨result, after, written⟩ := performed
  obtain rfl : result = .error cause := failed
  exact ⟨rfl, congrArg (written ++ ·) (failure_written cause)⟩

/-! ## Before anything is compiled -/

section

variable {note : String} {next : String → RunState → Performed}

theorem prepare_of_refused {cause : Cause}
    (refusal : (Gate.verify host.setting Gate.requiredVersion state).1 = .error cause) :
    prepare host switch note next state
      = ⟨.error cause, (Gate.verify host.setting Gate.requiredVersion state).2, []⟩ := by
  unfold prepare
  generalize Gate.verify host.setting Gate.requiredVersion state = verified at refusal ⊢
  obtain ⟨result, after⟩ := verified
  dsimp only at refusal
  rw [refusal]

theorem prepare_of_accepted {version : Version}
    (accepted : (Gate.verify host.setting Gate.requiredVersion state).1 = .ok version) :
    prepare host switch note next state
      = match Configuration.targetOf state.tree host.setting.directory
          (host.checkout switch).text with
        | .error cause => ⟨.error cause, (Gate.verify host.setting Gate.requiredVersion state).2,
            MessageKind.stageSuccess.written ("actool " ++ version.text ++ note)⟩
        | .ok target => (next target (Gate.verify host.setting Gate.requiredVersion state).2).after
            (MessageKind.stageSuccess.written ("actool " ++ version.text ++ note)) := by
  have tree := congrArg Work.tree (Gate.verify_eq host.setting Gate.requiredVersion state).1
  unfold prepare
  generalize Gate.verify host.setting Gate.requiredVersion state = verified at accepted tree ⊢
  obtain ⟨result, after⟩ := verified
  dsimp only at accepted tree
  rw [accepted]
  dsimp only
  rw [Configuration.target_eq, tree]
  cases Configuration.targetOf state.tree host.setting.directory (host.checkout switch).text with
  | error cause => rfl
  | ok target => rfl

end

/-! ## The catalogs -/

section

variable {target : String}

theorem rowFor_of_compiled (directory : Place) (layout : Layout) (written : List String) :
    summaryRow directory (Compile.compiled layout written) = rowFor directory layout := by
  simp [summaryRow, rowFor, displayText, Compile.compiled, Place.resolve_text]

theorem rows_of_all {results : List Compiled} {final : RunState}
    (ran : Compile.all host.setting target verbose paths start = (.ok results, final)) :
    ∃ layouts : List Layout, paths.map (Layout.ofPath host.setting.directory) = layouts.map .ok ∧
      results.map (summaryRow host.setting.directory)
        = layouts.map (rowFor host.setting.directory) := by
  induction paths generalizing start results with
  | nil =>
      cases ran
      exact ⟨[], rfl, rfl⟩
  | cons catalog rest ih =>
      have course := Compile.course_one host.setting ⟨catalog, target, verbose⟩ start
      cases first : (Compile.one host.setting ⟨catalog, target, verbose⟩ start).1 with
      | error cause =>
          rw [Compile.all_cons_of_error first] at ran
          cases ran
      | ok answer =>
          rw [Compile.all_cons_of_ok first] at ran
          split at ran
          · cases ran
          · next others last further =>
            cases ran
            rw [first] at course
            obtain ⟨ready, files, _, rfl, _⟩ := course.answered
            obtain ⟨layouts, named, rows⟩ := ih further
            refine ⟨ready.layout :: layouts, ?_, ?_⟩
            · rw [List.map_cons, List.map_cons, named, ready.named]
            · rw [List.map_cons, List.map_cons, rows, rowFor_of_compiled]

theorem callsInOrder_of_all : ∃ compiles,
    (Compile.all host.setting target verbose paths start).2.calls = start.calls ++ compiles ∧
      CallsInOrder host target verbose paths start compiles := by
  obtain ⟨compiles, _, called, _, each⟩ :=
    @Compile.calls_of_all host.setting target verbose paths start
  refine ⟨compiles, called, ?_⟩
  intro i call there
  obtain ⟨earlier, catalog, ready, atPath, rfl, _⟩ := each i call there
  exact ⟨catalog, ready.layout, ready.scratch, atPath, ready.named, rfl, earlier⟩

theorem calls_length_of_answers {m : Nat} (answered : ∀ i, i < m → ∃ answer,
      Compile.Answers host.setting target verbose paths start i answer) :
    (Compile.after host.setting target verbose (paths.take m) start).calls.length
      = start.calls.length + m := by
  obtain ⟨calls, called, count, _⟩ := Compile.calls_of_answers answered
  rw [called, List.length_append, count]

theorem performed_of_error {cause : Cause} {after : RunState}
    (ran : Compile.all host.setting target verbose paths start = (.error cause, after))
    (version : Version) :
    (compileCatalogs host paths verbose target start).after (versionNote version)
      = ⟨.error cause, after, announcement version target verbose paths.length
          ++ ((progress host verbose start after).2
            ++ (progress host verbose start after).1.fail).flatMap Display.Act.written⟩ := by
  unfold compileCatalogs announcement
  rw [ran, List.append_assoc]
  rfl

theorem performed_of_ok {results : List Compiled} {after : RunState}
    (ran : Compile.all host.setting target verbose paths start = (.ok results, after))
    (version : Version) :
    (compileCatalogs host paths verbose target start).after (versionNote version)
      = ⟨.ok (), after, announcement version target verbose paths.length
          ++ ((progress host verbose start after).2.flatMap Display.Act.written
            ++ summary host results)⟩ := by
  unfold compileCatalogs announcement
  rw [ran, List.append_assoc]
  dsimp only [Performed.after]
  rw [List.append_assoc]
  rfl

theorem summary_shows {results : List Compiled} {layouts : List Layout}
    (rows : results.map (summaryRow host.setting.directory)
      = layouts.map (rowFor host.setting.directory)) :
    ∃ lines, summary host results
        = [toOutput "", toOutput ("\n".intercalate lines), toOutput "",
          closingLine host results.length] ∧
      ShowsRows (Border.forTerminal host.console.kind).vertical
        (["Catalog", "Icon bundle", "Asset archive"]
          :: layouts.map (rowFor host.setting.directory)) lines := by
  let table := summaryTable host.setting.directory results
  have even : ∀ row ∈ table.allRows, row.length = 3 := by
    intro row member
    rcases List.mem_cons.mp member with rfl | member
    · rfl
    · obtain ⟨compiled, _, rfl⟩ := List.mem_map.mp member
      rfl
  refine ⟨table.render (.forTerminal host.console.kind), rfl, ?_⟩
  rw [← rows]
  exact Table.showsRows_render rfl even (by decide)

theorem protocol_of_catalogs {version : Version}
    (accepted : Gate.Accepts host.setting state version)
    (assigned : Configuration.Assigns host.setting (host.checkout switch).text state.tree target) :
    ∃ compiles,
      (Program.ended verbose ((compileCatalogs host paths verbose target start).after
          (versionNote version))).state.calls = start.calls ++ compiles ∧
        Protocol host paths verbose switch state start compiles
          (Program.ended verbose ((compileCatalogs host paths verbose target start).after
            (versionNote version))) := by
  obtain ⟨compiles, called, calls⟩ := @callsInOrder_of_all host paths verbose start target
  have total := congrArg List.length called
  rw [List.length_append] at total
  cases result : (Compile.all host.setting target verbose paths start).1 with
  | error cause =>
      obtain ⟨k, catalog, there, earlier, failed⟩ := Compile.first_error_of_all result
      have ran := Compile.all_of_first_error there earlier failed
      rw [ran] at called total
      rw [performed_of_error ran]
      have before := calls_length_of_answers earlier
      have course := Compile.course_one host.setting ⟨catalog, target, verbose⟩
        (Compile.after host.setting target verbose (paths.take k) start)
      have count : compiles.length = k ∨ compiles.length = k + 1 := by
        dsimp only at total
        rw [Compile.after_take_succ there] at total
        by_cases gets : Nonempty (Compile.Ready host.setting ⟨catalog, target, verbose⟩
            (Compile.after host.setting target verbose (paths.take k) start).toWork)
        · obtain ⟨ready⟩ := gets
          rw [(course.calls.1 ready).1, List.length_append, List.length_singleton] at total
          omega
        · rw [course.calls.2 fun ready => gets ⟨ready⟩] at total
          omega
      exact ⟨compiles, called, .stopped accepted assigned there earlier failed calls count rfl
        (rejects_ended rfl)⟩
  | ok results =>
      have ran : Compile.all host.setting target verbose paths start
          = (.ok results, (Compile.all host.setting target verbose paths start).2) := by
        rw [← result]
      obtain ⟨final, lengths, each⟩ := Compile.answers_of_all ran
      rw [final] at ran called total
      obtain ⟨layouts, named, rows⟩ := rows_of_all ran
      obtain ⟨lines, summarised, shows⟩ := @summary_shows host results layouts rows
      rw [lengths] at summarised
      have answered : ∀ i, i < paths.length → ∃ answer,
          Compile.Answers host.setting target verbose paths start i answer := by
        intro i below
        have inside : i < results.length := by omega
        exact ⟨results[i], each i _ (List.getElem?_eq_getElem inside)⟩
      have count := calls_length_of_answers answered
      rw [List.take_length] at count
      rw [performed_of_ok ran, summarised]
      exact ⟨compiles, called, .finished accepted assigned answered calls (by omega) rfl rfl named
        shows rfl⟩

end

/-! ## The whole run -/

/-- Nothing goes wrong: not with the version, nor the target, nor any catalog. -/
def Succeeds (host : Host) (paths : List String) (verbose : Bool) (switch : Option String)
    (state start : RunState) : Prop :=
  ∃ version target, Gate.Accepts host.setting state version ∧
    Configuration.Assigns host.setting (host.checkout switch).text state.tree target ∧
    ∀ i, i < paths.length → ∃ answer,
      Compile.Answers host.setting target verbose paths start i answer

theorem Protocol.exitCode_eq_zero_iff
    (protocol : Protocol host paths verbose switch state start compiles ended) :
    ended.exitCode = 0 ↔ Succeeds host paths verbose switch state start := by
  cases protocol with
  | refused refusal _ rejects =>
      refine iff_of_false (by simp [rejects.exitCode]) ?_
      rintro ⟨version, target, accepted, _⟩
      cases refusal.symm.trans (Gate.verify_eq_ok_iff.mpr accepted)
  | untargeted _ refusal _ rejects =>
      refine iff_of_false (by simp [rejects.exitCode]) ?_
      rintro ⟨version, target, _, assigned, _⟩
      cases refusal.symm.trans (Configuration.targetOf_eq_ok_iff.mpr assigned)
  | @stopped version target catalog k cause _ _ _ assigned there _ failed _ _ _ rejects =>
      refine iff_of_false (by simp [rejects.exitCode]) ?_
      rintro ⟨_, target', _, assigned', answered⟩
      have found := Configuration.targetOf_eq_ok_iff.mpr assigned
      cases found.symm.trans (Configuration.targetOf_eq_ok_iff.mpr assigned')
      obtain ⟨inside, _⟩ := List.getElem?_eq_some_iff.mp there
      obtain ⟨answer, other, there', ok⟩ := answered k inside
      cases there.symm.trans there'
      cases failed.symm.trans ok
  | finished accepted assigned answered _ _ _ exitCode =>
      exact iff_of_true exitCode ⟨_, _, accepted, assigned, answered⟩

/-- The command asks for the version once and then compiles, as long as nothing goes wrong. -/
theorem compile_protocol (host : Host) (paths : List String) (verbose : Bool)
    (switch : Option String) (state : RunState) :
    ∃ (start : RunState) (compiles : List Call),
      start.toWork = { state.toWork with calls := state.calls ++ [Gate.query state.tree] } ∧
      (execute host state (.compile paths verbose switch)).state.calls
        = start.calls ++ compiles ∧
      Protocol host paths verbose switch state start compiles
        (execute host state (.compile paths verbose switch)) ∧
      ((execute host state (.compile paths verbose switch)).exitCode = 0
        ↔ Succeeds host paths verbose switch state start) := by
  have work := (Gate.verify_eq host.setting Gate.requiredVersion state).1
  have goes : ∃ compiles,
      (execute host state (.compile paths verbose switch)).state.calls
          = (Gate.verify host.setting Gate.requiredVersion state).2.calls ++ compiles ∧
        Protocol host paths verbose switch state
          (Gate.verify host.setting Gate.requiredVersion state).2 compiles
          (execute host state (.compile paths verbose switch)) := by
    unfold execute compile
    dsimp only
    cases verified : (Gate.verify host.setting Gate.requiredVersion state).1 with
    | error cause =>
        rw [prepare_of_refused verified]
        exact ⟨[], (List.append_nil _).symm, .refused verified rfl (rejects_ended rfl)⟩
    | ok version =>
        have accepted := Gate.verify_eq_ok_iff.mp verified
        rw [prepare_of_accepted verified]
        cases found : Configuration.targetOf state.tree host.setting.directory
            (host.checkout switch).text with
        | error cause =>
            exact ⟨[], (List.append_nil _).symm, .untargeted accepted found rfl
              (rejects_ended rfl)⟩
        | ok target =>
            have assigned := Configuration.targetOf_eq_ok_iff.mp found
            exact protocol_of_catalogs accepted assigned
  obtain ⟨compiles, called, protocol⟩ := goes
  exact ⟨_, compiles, work, called, protocol, protocol.exitCode_eq_zero_iff⟩

end CommandLine.Program

end AssetCatalog
