import AssetCatalog.Proofs.Compile.Batch
import AssetCatalog.Proofs.Compile.Trace
/-! # The catalogs of a batch among its events

The events of a batch tell of one catalog after the other.  A catalog is opened by its
validation, when no other one is open, and closed by its completion; every event between the two
is about the open catalog (`Bracketed`).  A batch that ends early leaves the catalog open at which
it has ended, unless that one was rejected for its name: then it has never been opened. -/

set_option autoImplicit false

namespace AssetCatalog

def Progress.IsBetween (progress : Progress) : Prop :=
  (∀ tag, progress ≠ .validated tag) ∧ progress ≠ .completed

/-- Events with the catalogs that have been closed, in order, and the one that is open. -/
inductive Bracketed : List Event → List Place → Option Place → Prop where
  | start : Bracketed [] [] none
  | opening {events : List Event} {done : List Place} {event : Event} {tag : String}
      (before : Bracketed events done none) (validated : event.progress = .validated tag) :
      Bracketed (events ++ [event]) done (some event.catalog)
  | passing {events : List Event} {done : List Place} {event : Event}
      (before : Bracketed events done (some event.catalog))
      (between : event.progress.IsBetween) :
      Bracketed (events ++ [event]) done (some event.catalog)
  | closing {events : List Event} {done : List Place} {event : Event}
      (before : Bracketed events done (some event.catalog))
      (completed : event.progress = .completed) :
      Bracketed (events ++ [event]) (done ++ [event.catalog]) none

theorem Progress.eq_validated_of_stage {progress : Progress}
    (stage : progress.stage = "validated") : ∃ tag, progress = .validated tag := by
  cases progress with
  | validated tag => exact ⟨tag, rfl⟩
  | staged | invoking | classified | copied | completed => simp [Progress.stage] at stage

theorem Progress.eq_completed_of_stage {progress : Progress}
    (stage : progress.stage = "completed") : progress = .completed := by
  cases progress with
  | completed => rfl
  | validated | staged | invoking | classified | copied => simp [Progress.stage] at stage

theorem Progress.isBetween_of_stage {progress : Progress}
    (stage : progress.stage ≠ "validated" ∧ progress.stage ≠ "completed") :
    progress.IsBetween := by
  constructor
  · rintro tag rfl
    exact stage.1 rfl
  · rintro rfl
    exact stage.2 rfl

theorem Request.stages_between (request : Request) : ∃ between : List String,
    request.stages = "validated" :: (between ++ ["completed"]) ∧
      ∀ stage ∈ between, stage ≠ "validated" ∧ stage ≠ "completed" := by
  unfold Request.stages
  cases request.verbose with
  | false => exact ⟨["staged", "classified"], rfl, by decide⟩
  | true => exact ⟨["staged", "invoking", "classified", "copied", "copied"], rfl, by decide⟩

namespace Bracketed

variable {events told : List Event} {done : List Place} {opened : Option Place}
  {catalog : Place}

/-! ## Taking events away -/

theorem of_concat {event : Event} (bracketed : Bracketed (events ++ [event]) done opened) :
    ∃ closed still, Bracketed events closed still ∧
      (∀ tag, event.progress = .validated tag → still = none) := by
  generalize whole : events ++ [event] = all at bracketed
  cases bracketed with
  | start => simp at whole
  | opening before validated =>
      obtain ⟨rfl, same⟩ := List.append_inj' whole rfl
      exact ⟨_, _, before, fun _ _ => rfl⟩
  | passing before between =>
      obtain ⟨rfl, same⟩ := List.append_inj' whole rfl
      cases same
      exact ⟨_, _, before, fun tag validated => absurd validated (between.1 tag)⟩
  | closing before completed =>
      obtain ⟨rfl, same⟩ := List.append_inj' whole rfl
      cases same
      refine ⟨_, _, before, fun tag validated => ?_⟩
      cases completed.symm.trans validated

theorem of_append {earlier later : List Event}
    (bracketed : Bracketed (earlier ++ later) done opened) :
    ∃ closed still, Bracketed earlier closed still := by
  induction later using List.reverseRecOn generalizing done opened with
  | nil =>
      rw [List.append_nil] at bracketed
      exact ⟨_, _, bracketed⟩
  | append_singleton later event ih =>
      rw [← List.append_assoc] at bracketed
      obtain ⟨_, _, before, _⟩ := bracketed.of_concat
      exact ih before

/-- When a catalog is validated no other one is open. -/
theorem before_validated {earlier later : List Event} {event : Event} {tag : String}
    (bracketed : Bracketed (earlier ++ event :: later) done opened)
    (validated : event.progress = .validated tag) : ∃ closed, Bracketed earlier closed none := by
  rw [← List.singleton_append, ← List.append_assoc] at bracketed
  obtain ⟨_, _, upTo⟩ := bracketed.of_append
  obtain ⟨closed, still, before, noneOpen⟩ := upTo.of_concat
  rw [noneOpen tag validated] at before
  exact ⟨closed, before⟩

/-! ## Adding the events of a catalog -/

theorem between (before : Bracketed events done (some catalog))
    (each : ∀ event ∈ told, event.catalog = catalog ∧ event.progress.IsBetween) :
    Bracketed (events ++ told) done (some catalog) := by
  induction told generalizing events with
  | nil => rwa [List.append_nil]
  | cons event rest ih =>
      obtain ⟨⟨rfl, between⟩, others⟩ := List.forall_mem_cons.mp each
      rw [← List.singleton_append, ← List.append_assoc]
      exact ih (before.passing between) others

theorem opened_of_stages {between : List String} (before : Bracketed events done none)
    (about : ∀ event ∈ told, event.catalog = catalog)
    (proper : ∀ stage ∈ between, stage ≠ "validated" ∧ stage ≠ "completed")
    (stages : (told.map fun event => event.progress.stage) <+: "validated" :: between)
    (begun : told ≠ []) : Bracketed (events ++ told) done (some catalog) := by
  cases told with
  | nil => exact absurd rfl begun
  | cons first rest =>
      obtain ⟨rfl, others⟩ := List.forall_mem_cons.mp about
      rw [List.map_cons, List.cons_prefix_cons] at stages
      obtain ⟨opens, further⟩ := stages
      obtain ⟨tag, validated⟩ := Progress.eq_validated_of_stage opens
      rw [← List.singleton_append, ← List.append_assoc]
      refine (before.opening validated).between fun event member => ⟨others event member, ?_⟩
      have stage : event.progress.stage ∈ rest.map fun event => event.progress.stage :=
        List.mem_map.mpr ⟨event, member, rfl⟩
      exact Progress.isBetween_of_stage (proper _ (further.mem stage))

theorem closed_of_stages (request : Request) (before : Bracketed events done none)
    (about : ∀ event ∈ told, event.catalog = catalog)
    (stages : (told.map fun event => event.progress.stage) = request.stages) :
    Bracketed (events ++ told) (done ++ [catalog]) none := by
  obtain ⟨between, form, proper⟩ := request.stages_between
  rw [form, ← List.cons_append, List.map_eq_append_iff] at stages
  obtain ⟨front, lasts, rfl, opens, closes⟩ := stages
  obtain ⟨last, rfl, completed⟩ := List.map_eq_singleton_iff.mp closes
  obtain ⟨inFront, inLast⟩ := List.forall_mem_append.mp about
  obtain rfl := inLast last (List.mem_singleton_self last)
  have begun : front ≠ [] := by
    rintro rfl
    cases opens
  rw [← List.append_assoc]
  exact (before.opened_of_stages inFront proper (opens ▸ List.prefix_rfl) begun).closing
    (Progress.eq_completed_of_stage completed)

end Bracketed

namespace Compile

variable {setting : Setting} {request : Request} {state : RunState} {events : List Event}
  {done : List Place}

/-! ## One catalog -/

theorem traceLaw_told (setting : Setting) (request : Request) (state : RunState) :
    TraceLaw setting request state (one setting request state).1 (one setting request state).2
      (told setting request state.toWork) := by
  rcases Classical.em (Nonempty (Ready setting request state.toWork)) with ⟨⟨ready⟩⟩ | unready
  · exact traceLaw_of_ready ready
  · exact traceLaw_of_unready fun ready => unready ⟨ready⟩

def toldEvents (setting : Setting) (request : Request) (state : RunState) : List Event :=
  (told setting request state.toWork).map Moment.event

theorem events_one (setting : Setting) (request : Request) (state : RunState) :
    (one setting request state).2.events = state.events ++ toldEvents setting request state := by
  unfold RunState.events toldEvents
  rw [(traceLaw_told setting request state).moments, List.map_append]

theorem about_of_mem_toldEvents : ∀ event ∈ toldEvents setting request state,
    event.catalog = setting.directory.resolve request.catalog := by
  intro event member
  obtain ⟨moment, inTold, rfl⟩ := List.mem_map.mp member
  exact (traceLaw_told setting request state).catalog moment inTold

theorem stages_toldEvents : (toldEvents setting request state).map (fun event =>
    event.progress.stage) = stagesOf (told setting request state.toWork) :=
  List.map_map

theorem bracketed_of_answer {answer : Compiled} (before : Bracketed events done none)
    (answered : (one setting request state).1 = .ok answer) :
    Bracketed (events ++ toldEvents setting request state)
      (done ++ [setting.directory.resolve request.catalog]) none := by
  refine Bracketed.closed_of_stages request before about_of_mem_toldEvents ?_
  rw [stages_toldEvents]
  exact (traceLaw_told setting request state).whole_iff.mpr ⟨answer, answered⟩

theorem bracketed_of_rejection (request : Request) {cause : Cause} {layout : Layout}
    (before : Bracketed events done none)
    (named : Layout.ofPath setting.directory request.catalog = .ok layout)
    (rejected : (one setting request state).1 = .error cause) :
    Bracketed (events ++ toldEvents setting request state) done
      (some (setting.directory.resolve request.catalog)) := by
  have law := traceLaw_told setting request state
  obtain ⟨between, form, proper⟩ := request.stages_between
  have notWhole : stagesOf (told setting request state.toWork) ≠ request.stages := by
    intro whole
    obtain ⟨answer, answered⟩ := law.whole_iff.mp whole
    cases rejected.symm.trans answered
  refine before.opened_of_stages about_of_mem_toldEvents proper ?_ ?_
  · rw [stages_toldEvents]
    have begun := law.begun
    rw [form] at notWhole begun
    rw [← List.cons_append, List.prefix_concat_iff] at begun
    exact begun.resolve_left notWhole
  · unfold toldEvents told
    rw [named]
    exact List.cons_ne_nil _ _

theorem toldEvents_of_badName (request : Request) {fault : NameFault}
    (misnamed : Layout.ofPath setting.directory request.catalog = .error fault) :
    toldEvents setting request state = [] := by
  unfold toldEvents told
  rw [misnamed]
  rfl

/-! ## Batches -/

section

variable {target : String} {verbose : Bool} {catalogs : List String}

theorem bracketed_of_answers {m : Nat} (answered : ∀ i, i < m →
      ∃ answer, Answers setting target verbose catalogs state i answer) :
    ∃ told, (after setting target verbose (catalogs.take m) state).events = state.events ++ told ∧
      Bracketed told ((catalogs.take m).map setting.directory.resolve) none := by
  induction m with
  | zero => exact ⟨[], by simp [after], .start⟩
  | succ m ih =>
      obtain ⟨told, toldSoFar, bracketed⟩ := ih fun i below => answered i (Nat.lt_succ_of_lt below)
      obtain ⟨answer, catalog, there, ok⟩ := answered m (Nat.lt_succ_self m)
      refine ⟨told ++ toldEvents setting ⟨catalog, target, verbose⟩
        (after setting target verbose (catalogs.take m) state), ?_, ?_⟩
      · rw [after_take_succ there, events_one, toldSoFar, List.append_assoc]
      · rw [List.take_add_one, there, Option.toList_some, List.map_append, List.map_singleton]
        exact bracketed_of_answer bracketed ok

/-- A batch that ends at a catalog leaves that one open, unless it has a bad name. -/
theorem bracketed_of_first_error {k : Nat} {catalog : String} {cause : Cause}
    (there : catalogs[k]? = some catalog)
    (earlier : ∀ i, i < k → ∃ answer, Answers setting target verbose catalogs state i answer)
    (failed : (one setting ⟨catalog, target, verbose⟩
      (after setting target verbose (catalogs.take k) state)).1 = .error cause) :
    ∃ told, (after setting target verbose (catalogs.take (k + 1)) state).events
        = state.events ++ told ∧
      Bracketed told ((catalogs.take k).map setting.directory.resolve)
        ((Layout.ofPath setting.directory catalog).toOption.map fun _ =>
          setting.directory.resolve catalog) := by
  obtain ⟨told, toldSoFar, bracketed⟩ := bracketed_of_answers earlier
  let request : Request := ⟨catalog, target, verbose⟩
  have last : (after setting target verbose (catalogs.take (k + 1)) state).events
      = state.events ++ (told ++ toldEvents setting request
        (after setting target verbose (catalogs.take k) state)) := by
    rw [after_take_succ there, events_one, toldSoFar, List.append_assoc]
  cases named : Layout.ofPath setting.directory catalog with
  | error fault =>
      rw [toldEvents_of_badName request named, List.append_nil] at last
      exact ⟨told, last, bracketed⟩
  | ok layout =>
      exact ⟨_, last, bracketed_of_rejection request bracketed named failed⟩

/-- How a batch comes to its end, with the catalogs that are completed by then and the one that is
open. -/
inductive Halts (setting : Setting) (target : String) (verbose : Bool) (catalogs : List String)
    (state : RunState) :
    List Place → Option Place → Except Cause (List Compiled) → Prop where
  | finished {results : List Compiled} (answered : ∀ i, i < catalogs.length →
        ∃ answer, Answers setting target verbose catalogs state i answer) :
      Halts setting target verbose catalogs state (catalogs.map setting.directory.resolve) none
        (.ok results)
  | stopped {k : Nat} {catalog : String} {cause : Cause} (there : catalogs[k]? = some catalog)
      (earlier : ∀ i, i < k → ∃ answer, Answers setting target verbose catalogs state i answer)
      (failed : (one setting ⟨catalog, target, verbose⟩
        (after setting target verbose (catalogs.take k) state)).1 = .error cause) :
      Halts setting target verbose catalogs state
        ((catalogs.take k).map setting.directory.resolve)
        ((Layout.ofPath setting.directory catalog).toOption.map fun _ =>
          setting.directory.resolve catalog)
        (.error cause)

theorem bracketed_of_all (setting : Setting) (target : String) (verbose : Bool)
    (catalogs : List String) (state : RunState) : ∃ told done opened,
      (all setting target verbose catalogs state).2.events = state.events ++ told ∧
        Bracketed told done opened ∧
        Halts setting target verbose catalogs state done opened
          (all setting target verbose catalogs state).1 := by
  cases result : (all setting target verbose catalogs state).1 with
  | error cause =>
      obtain ⟨k, catalog, there, earlier, failed⟩ := first_error_of_all result
      obtain ⟨told, last, bracketed⟩ := bracketed_of_first_error there earlier failed
      refine ⟨told, _, _, ?_, bracketed, .stopped there earlier failed⟩
      rw [all_of_first_error there earlier failed]
      exact last
  | ok results =>
      have ran : all setting target verbose catalogs state
          = (.ok results, (all setting target verbose catalogs state).2) := by
        rw [← result]
      obtain ⟨final, lengths, each⟩ := answers_of_all ran
      have answered : ∀ i, i < catalogs.length →
          ∃ answer, Answers setting target verbose catalogs state i answer := by
        intro i below
        have inside : i < results.length := by omega
        exact ⟨results[i], each i _ (List.getElem?_eq_getElem inside)⟩
      obtain ⟨told, last, bracketed⟩ := bracketed_of_answers answered
      rw [List.take_length] at last bracketed
      refine ⟨told, _, _, ?_, bracketed, .finished answered⟩
      rw [final]
      exact last

end

end Compile

end AssetCatalog
