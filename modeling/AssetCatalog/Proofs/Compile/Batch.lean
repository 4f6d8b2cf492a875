import AssetCatalog.Proofs.Compile.Pair
/-! # Batches of catalogs

A batch compiles its catalogs one after the other, each from the state that the ones before it
have left (`after`), and ends at the first that fails.

Without links every compile leaves a file system without links behind, so each one can rely on
what the theorems about single compiles ask for.  Two catalogs have a destination in common
exactly when directory and tag are the same (`Compiled.Shares`), and of those that do, the last
one owns it: in the end it holds what was reported for that one. -/

set_option autoImplicit false

namespace AssetCatalog

/-- The two catalogs compile to the same two files. -/
def Compiled.Shares (a b : Compiled) : Prop :=
  a.catalog.parent = b.catalog.parent ∧ a.tag = b.tag

def Publication.Destinations.path? (destinations : Destinations) : OutputRole → Option String
  | .partialInfoList => none
  | .iconBundle => some destinations.iconBundle
  | .assetArchive => some destinations.assetArchive

namespace Compile

section

variable {setting : Setting} {request : Request} {work after : Work}
  {result : Except Cause Compiled}

/-! ## What every compile keeps up -/

section

variable (course : Course setting request work result after) (grounded : work.tree.Grounded)
  (linkFree : work.tree.LinkFree) (noLinks : setting.runner.LeavesNoLinks)
include course grounded linkFree noLinks

theorem Course.keeps_linkFree : after.tree.LinkFree := by
  intro place target found
  have alike := (course.changes grounded linkFree noLinks).1
  exact linkFree place target (alike.symm.get?_link found)

/-- A new file lies beside the catalog, in a directory. -/
theorem Course.keeps_grounded : after.tree.Grounded := by
  intro place entry found
  obtain ⟨alike, kept⟩ := course.changes grounded linkFree noLinks
  apply alike.get?_directory
  by_cases published : ∃ (ready : Ready setting request work) (role : OutputRole),
      role.destination? ready.layout = some place
  · obtain ⟨ready, role, goes⟩ := published
    rw [Publication.parent_of_destination? (Layout.tag_noSlash ready.named) goes]
    exact ready.get?_sourceDirectory linkFree grounded
  · have same : after.tree.get? place = work.tree.get? place := by
      apply kept
      intro ready role goes
      exact published ⟨ready, role, goes⟩
    rw [same] at found
    exact grounded place entry found

end

theorem Course.answered {answer : Compiled}
    (course : Course setting request work (.ok answer) after) :
    ∃ (ready : Ready setting request work) (files : List String), ready.Lists files ∧
      answer = compiled ready.layout
        ((Publication.stepsFor ready.layout files).map CopyStep.destination) ∧
      after.calls = work.calls ++ [ready.call] := by
  cases course with
  | published ready verdict copied =>
      obtain ⟨files, lists, rfl⟩ := Ready.verdict_eq_ok_iff.mp verdict
      obtain ⟨rfl, _, _, calls, _⟩ := Work.copyAll_notes copied
      exact ⟨ready, files, lists, rfl, calls⟩

end

/-! ## The states of a batch -/

/-- The state after the compiles of catalogs, one after the other. -/
def after (setting : Setting) (target : String) (verbose : Bool) (catalogs : List String)
    (state : RunState) : RunState :=
  catalogs.foldl (fun state catalog => (one setting ⟨catalog, target, verbose⟩ state).2) state

section

variable {setting : Setting} {target : String} {verbose : Bool} {catalogs : List String}
  {state : RunState}

theorem after_cons {catalog : String} {rest : List String} :
    after setting target verbose (catalog :: rest) state
      = after setting target verbose rest (one setting ⟨catalog, target, verbose⟩ state).2 := by
  unfold after
  rw [List.foldl_cons]

theorem after_take_succ {i : Nat} {catalog : String} (there : catalogs[i]? = some catalog) :
    after setting target verbose (catalogs.take (i + 1)) state
      = (one setting ⟨catalog, target, verbose⟩
          (after setting target verbose (catalogs.take i) state)).2 := by
  unfold after
  rw [List.take_add_one, there, Option.toList_some, List.foldl_append, List.foldl_cons,
    List.foldl_nil]

/-- The catalog at this position has been compiled with this answer. -/
def Answers (setting : Setting) (target : String) (verbose : Bool) (catalogs : List String)
    (state : RunState) (i : Nat) (answer : Compiled) : Prop :=
  ∃ catalog, catalogs[i]? = some catalog ∧
    (one setting ⟨catalog, target, verbose⟩
      (after setting target verbose (catalogs.take i) state)).1 = .ok answer

theorem all_cons {catalog : String} {rest : List String} :
    all setting target verbose (catalog :: rest) state
      = match one setting ⟨catalog, target, verbose⟩ state with
        | (.error cause, middle) => (.error cause, middle)
        | (.ok answer, middle) =>
          match all setting target verbose rest middle with
          | (.error cause, last) => (.error cause, last)
          | (.ok others, last) => (.ok (answer :: others), last) := by
  rw [all, Run.bind_apply]
  cases one setting ⟨catalog, target, verbose⟩ state with
  | mk result middle =>
      cases result with
      | error cause => rfl
      | ok answer =>
          dsimp only
          rw [Run.bind_apply]
          cases all setting target verbose rest middle with
          | mk result last =>
              cases result with
              | error cause => rfl
              | ok others => rfl

theorem all_cons_of_error {catalog : String} {rest : List String} {cause : Cause}
    (failed : (one setting ⟨catalog, target, verbose⟩ state).1 = .error cause) :
    all setting target verbose (catalog :: rest) state
      = (.error cause, (one setting ⟨catalog, target, verbose⟩ state).2) := by
  rw [all_cons]
  generalize one setting ⟨catalog, target, verbose⟩ state = ran at failed ⊢
  obtain ⟨result, middle⟩ := ran
  dsimp only at failed ⊢
  rw [failed]

theorem all_cons_of_ok {catalog : String} {rest : List String} {answer : Compiled}
    (answered : (one setting ⟨catalog, target, verbose⟩ state).1 = .ok answer) :
    all setting target verbose (catalog :: rest) state
      = match all setting target verbose rest (one setting ⟨catalog, target, verbose⟩ state).2 with
        | (.error cause, last) => (.error cause, last)
        | (.ok others, last) => (.ok (answer :: others), last) := by
  rw [all_cons]
  generalize one setting ⟨catalog, target, verbose⟩ state = ran at answered ⊢
  obtain ⟨result, middle⟩ := ran
  dsimp only at answered ⊢
  rw [answered]

theorem answers_zero_iff {catalog : String} {rest : List String} {answer : Compiled} :
    Answers setting target verbose (catalog :: rest) state 0 answer
      ↔ (one setting ⟨catalog, target, verbose⟩ state).1 = .ok answer := by
  constructor
  · rintro ⟨other, there, ok⟩
    cases there
    exact ok
  · intro ok
    exact ⟨catalog, rfl, ok⟩

theorem answers_succ_iff {catalog : String} {rest : List String} {i : Nat} {answer : Compiled} :
    Answers setting target verbose (catalog :: rest) state (i + 1) answer
      ↔ Answers setting target verbose rest (one setting ⟨catalog, target, verbose⟩ state).2
        i answer := by
  unfold Answers
  rw [List.take_succ_cons, after_cons, List.getElem?_cons_succ]

theorem answers_of_all {results : List Compiled} {final : RunState}
    (ran : all setting target verbose catalogs state = (.ok results, final)) :
    final = after setting target verbose catalogs state ∧ results.length = catalogs.length ∧
      ∀ i answer, results[i]? = some answer →
        Answers setting target verbose catalogs state i answer := by
  induction catalogs generalizing state results with
  | nil =>
      cases ran
      simp [after]
  | cons catalog rest ih =>
      cases first : (one setting ⟨catalog, target, verbose⟩ state).1 with
      | error cause =>
          rw [all_cons_of_error first] at ran
          cases ran
      | ok answer =>
          rw [all_cons_of_ok first] at ran
          split at ran
          · cases ran
          · next others last further =>
            cases ran
            obtain ⟨finalIs, lengths, answered⟩ := ih further
            refine ⟨?_, by rw [List.length_cons, List.length_cons, lengths], ?_⟩
            · rw [after_cons]
              exact finalIs
            · intro i given there
              cases i with
              | zero =>
                  cases there
                  exact answers_zero_iff.mpr first
              | succ i => exact answers_succ_iff.mpr (answered i given there)

/-- A batch ends at the first compile that fails, in the state that this one has left. -/
theorem all_of_first_error {k : Nat} {catalog : String} {cause : Cause}
    (there : catalogs[k]? = some catalog)
    (earlier : ∀ i, i < k → ∃ answer, Answers setting target verbose catalogs state i answer)
    (failed : (one setting ⟨catalog, target, verbose⟩
      (after setting target verbose (catalogs.take k) state)).1 = .error cause) :
    all setting target verbose catalogs state
      = (.error cause, after setting target verbose (catalogs.take (k + 1)) state) := by
  induction catalogs generalizing state k with
  | nil => cases there
  | cons first rest ih =>
      cases k with
      | zero =>
          cases there
          rw [after_take_succ rfl]
          exact all_cons_of_error failed
      | succ k =>
          obtain ⟨answer, answers⟩ := earlier 0 (Nat.succ_pos k)
          rw [List.take_succ_cons, after_cons] at failed
          have further := ih there (fun i before => ?_) failed
          · rw [all_cons_of_ok (answers_zero_iff.mp answers), further, List.take_succ_cons,
              after_cons]
          · obtain ⟨given, answers⟩ := earlier (i + 1) (Nat.succ_lt_succ before)
            exact ⟨given, answers_succ_iff.mp answers⟩

theorem first_error_of_all {cause : Cause}
    (failed : (all setting target verbose catalogs state).1 = .error cause) :
    ∃ k catalog, catalogs[k]? = some catalog ∧
      (∀ i, i < k → ∃ answer, Answers setting target verbose catalogs state i answer) ∧
      (one setting ⟨catalog, target, verbose⟩
        (after setting target verbose (catalogs.take k) state)).1 = .error cause := by
  induction catalogs generalizing state with
  | nil => cases failed
  | cons catalog rest ih =>
      cases first : (one setting ⟨catalog, target, verbose⟩ state).1 with
      | error fault =>
          rw [all_cons_of_error first] at failed
          cases failed
          exact ⟨0, catalog, rfl, by simp, first⟩
      | ok answer =>
          rw [all_cons_of_ok first] at failed
          split at failed
          · next last further =>
            cases failed
            obtain ⟨k, other, there, earlier, fails⟩ :=
              @ih (one setting ⟨catalog, target, verbose⟩ state).2 (by rw [further])
            refine ⟨k + 1, other, there, ?_, ?_⟩
            · intro i below
              cases i with
              | zero => exact ⟨answer, answers_zero_iff.mpr first⟩
              | succ i =>
                  obtain ⟨given, answers⟩ := earlier i (Nat.lt_of_succ_lt_succ below)
                  exact ⟨given, answers_succ_iff.mpr answers⟩
            · rw [List.take_succ_cons, after_cons]
              exact fails
          · cases failed

/-! ## Calls -/

theorem Answers.unique {i : Nat} {a b : Compiled}
    (first : Answers setting target verbose catalogs state i a)
    (second : Answers setting target verbose catalogs state i b) : a = b := by
  obtain ⟨catalog, there, ok⟩ := first
  obtain ⟨catalog', there', ok'⟩ := second
  cases there.symm.trans there'
  exact Except.ok.inj (ok.symm.trans ok')

theorem Answers.append {i : Nat} {answer : Compiled}
    (answers : Answers setting target verbose catalogs state i answer) (more : List String) :
    Answers setting target verbose (catalogs ++ more) state i answer := by
  obtain ⟨catalog, there, ok⟩ := answers
  obtain ⟨inside, _⟩ := List.getElem?_eq_some_iff.mp there
  refine ⟨catalog, ?_, ?_⟩
  · rw [List.getElem?_append_left inside]
    exact there
  · rw [List.take_append_of_le_length (Nat.le_of_lt inside)]
    exact ok

/-- The compiler has been called once for each catalog that has been compiled, in order. -/
theorem calls_of_answers {m : Nat} (answered : ∀ i, i < m →
      ∃ answer, Answers setting target verbose catalogs state i answer) :
    ∃ calls : List Call,
      (after setting target verbose (catalogs.take m) state).calls = state.calls ++ calls ∧
      calls.length = m ∧ ∀ i call, calls[i]? = some call → ∃ catalog,
        ∃ ready : Ready setting ⟨catalog, target, verbose⟩
          (after setting target verbose (catalogs.take i) state).toWork,
        catalogs[i]? = some catalog ∧ call = ready.call := by
  induction m with
  | zero => exact ⟨[], by simp [after], rfl, by simp⟩
  | succ m ih =>
      obtain ⟨calls, called, count, each⟩ :=
        ih fun i below => answered i (Nat.lt_succ_of_lt below)
      obtain ⟨answer, catalog, there, ok⟩ := answered m (Nat.lt_succ_self m)
      have course := course_one setting ⟨catalog, target, verbose⟩
        (after setting target verbose (catalogs.take m) state)
      rw [ok] at course
      obtain ⟨ready, _, _, _, last⟩ := course.answered
      refine ⟨calls ++ [ready.call], ?_, ?_, ?_⟩
      · rw [after_take_succ there, last, called, List.append_assoc]
      · rw [List.length_append, count, List.length_singleton]
      · intro i call atCall
        by_cases below : i < m
        · rw [List.getElem?_append_left (by omega)] at atCall
          exact each i call atCall
        · rw [List.getElem?_append_right (by omega)] at atCall
          have same : i = m := by
            obtain ⟨inside, _⟩ := List.getElem?_eq_some_iff.mp atCall
            rw [List.length_singleton] at inside
            omega
          subst same
          rw [count, Nat.sub_self] at atCall
          cases atCall
          exact ⟨catalog, ready, there, rfl⟩

/-- A batch calls the compiler at most once for each catalog, in order, and only when all the
catalogs before it have been compiled. -/
theorem calls_of_all : ∃ (calls : List Call) (scratches : List Place),
    (all setting target verbose catalogs state).2.calls = state.calls ++ calls ∧
      scratches.length = calls.length ∧
      ∀ i call, calls[i]? = some call →
        (∀ j, j < i → ∃ answer, Answers setting target verbose catalogs state j answer) ∧
        ∃ catalog, ∃ ready : Ready setting ⟨catalog, target, verbose⟩
            (after setting target verbose (catalogs.take i) state).toWork,
          catalogs[i]? = some catalog ∧ call = ready.call ∧
            scratches[i]? = some ready.scratch := by
  induction catalogs generalizing state with
  | nil => exact ⟨[], [], by simp [all], rfl, by simp⟩
  | cons catalog rest ih =>
      have course := course_one setting ⟨catalog, target, verbose⟩ state
      obtain ⟨called, notCalled⟩ := course.calls
      cases first : (one setting ⟨catalog, target, verbose⟩ state).1 with
      | error cause =>
          rw [all_cons_of_error first]
          by_cases gets : Nonempty (Ready setting ⟨catalog, target, verbose⟩ state.toWork)
          · obtain ⟨ready⟩ := gets
            have calls := (called ready).1
            refine ⟨[ready.call], [ready.scratch], ?_, rfl, ?_⟩
            · dsimp only
              exact calls
            intro i call there
            obtain ⟨rfl, rfl⟩ : i = 0 ∧ call = ready.call := by
              cases i with
              | zero => exact ⟨rfl, (Option.some.inj there).symm⟩
              | succ i => simp at there
            exact ⟨by simp, catalog, ready, rfl, rfl, rfl⟩
          · refine ⟨[], [], ?_, rfl, by simp⟩
            rw [notCalled fun ready => gets ⟨ready⟩, List.append_nil]
      | ok answer =>
          rw [first] at course
          obtain ⟨ready, _⟩ := course.answered
          obtain ⟨calls, scratches, further, lengths, each⟩ :=
            @ih (one setting ⟨catalog, target, verbose⟩ state).2
          refine ⟨ready.call :: calls, ready.scratch :: scratches, ?_, by simp [lengths], ?_⟩
          · rw [all_cons_of_ok first]
            generalize all setting target verbose rest _ = ran at further ⊢
            rw [(called ready).1, List.append_assoc] at further
            obtain ⟨result, last⟩ := ran
            cases result with
            | error cause => exact further
            | ok others => exact further
          · intro i call there
            cases i with
            | zero =>
                cases there
                exact ⟨by simp, catalog, ready, rfl, rfl, rfl⟩
            | succ i =>
                obtain ⟨earlier, others⟩ := each i call there
                rw [List.take_succ_cons, after_cons]
                refine ⟨?_, others⟩
                intro j below
                cases j with
                | zero => exact ⟨answer, answers_zero_iff.mpr first⟩
                | succ j =>
                    obtain ⟨given, answers⟩ := earlier j (by omega)
                    exact ⟨given, answers_succ_iff.mpr answers⟩

/-! ## Owners of destinations -/

theorem layout_of_answers {i : Nat} {answer : Compiled}
    (answers : Answers setting target verbose catalogs state i answer) :
    ∃ catalog layout, catalogs[i]? = some catalog ∧
      Layout.ofPath setting.directory catalog = .ok layout ∧
      (answer.catalog.parent = layout.sourceDirectory ∧ answer.tag = layout.tag) ∧
      ∀ role path, answer.destinations.path? role = some path →
        ∃ destination, role.destination? layout = some destination ∧
          setting.directory.resolve path = destination := by
  obtain ⟨catalog, there, ok⟩ := answers
  have course := course_one setting ⟨catalog, target, verbose⟩
    (after setting target verbose (catalogs.take i) state)
  rw [ok] at course
  obtain ⟨ready, files, _, rfl, _⟩ := course.answered
  obtain ⟨_, _, _, _, parts⟩ := Layout.ofPath_eq_ok_iff.mp ready.named
  refine ⟨catalog, ready.layout, there, ready.named, ⟨?_, rfl⟩, ?_⟩
  · rw [parts]
    rfl
  · intro role path published
    cases role with
    | partialInfoList => cases published
    | iconBundle =>
        cases published
        exact ⟨ready.layout.iconBundle, rfl, Place.resolve_text _ _⟩
    | assetArchive =>
        cases published
        exact ⟨ready.layout.assetArchive, rfl, Place.resolve_text _ _⟩

/-- The paths of the answer lead to what has been reported for the catalog at this position. -/
def Delivered (setting : Setting) (target : String) (verbose : Bool) (catalogs : List String)
    (state : RunState) (j : Nat) (answer : Compiled) (tree : FileTree) : Prop :=
  ∃ catalog, ∃ ready : Ready setting ⟨catalog, target, verbose⟩
      (after setting target verbose (catalogs.take j) state).toWork, ∃ files,
    catalogs[j]? = some catalog ∧ ready.Lists files ∧
      ∀ role path, answer.destinations.path? role = some path →
        ∃ content, ready.Reports files role content ∧
          tree.get? (setting.directory.resolve path) = some (.file content)

section

variable (grounded : state.tree.Grounded) (linkFree : state.tree.LinkFree)
  (noLinks : setting.runner.LeavesNoLinks)
include grounded linkFree noLinks

theorem after_keeps (catalogs : List String) :
    (after setting target verbose catalogs state).tree.Grounded ∧
      (after setting target verbose catalogs state).tree.LinkFree := by
  induction catalogs generalizing state with
  | nil => exact ⟨grounded, linkFree⟩
  | cons catalog rest ih =>
      have course := course_one setting ⟨catalog, target, verbose⟩ state
      rw [after_cons]
      exact ih (course.keeps_grounded grounded linkFree noLinks)
        (course.keeps_linkFree grounded linkFree noLinks)

/-- A compile delivers to all answers that share its destinations. -/
theorem delivered_of_shares {j : Nat} {last answer : Compiled} {i : Nat}
    (answersLast : Answers setting target verbose catalogs state j last)
    (answers : Answers setting target verbose catalogs state i answer)
    (shares : last.Shares answer) :
    Delivered setting target verbose catalogs state j answer
      (after setting target verbose (catalogs.take (j + 1)) state).tree := by
  obtain ⟨_, layout, _, _, ⟨parent, tag⟩, paths⟩ := layout_of_answers answers
  obtain ⟨catalog, there, ok⟩ := answersLast
  obtain ⟨earlierGrounded, earlierFree⟩ :=
    @after_keeps setting target verbose state grounded linkFree noLinks (catalogs.take j)
  have course := course_one setting ⟨catalog, target, verbose⟩
    (after setting target verbose (catalogs.take j) state)
  rw [ok] at course
  obtain ⟨ready, files, lists, rfl, _⟩ := course.answered
  refine ⟨catalog, ready, files, there, lists, ?_⟩
  intro role path published
  obtain ⟨destination, goes, leads⟩ := paths role path published
  obtain ⟨_, _, _, _, parts⟩ := Layout.ofPath_eq_ok_iff.mp ready.named
  have directories : ready.layout.sourceDirectory = layout.sourceDirectory := by
    have same := shares.1.trans parent
    rw [← same, compiled, parts]
    rfl
  have goesToo : role.destination? ready.layout = some destination := by
    rw [Publication.destination?_congr directories (shares.2.trans tag) role]
    exact goes
  obtain ⟨content, reports, lies⟩ :=
    course.pair_of_answer earlierGrounded earlierFree noLinks ready lists goesToo
  refine ⟨content, reports, ?_⟩
  rw [leads, after_take_succ there]
  exact lies

/-- A compile leaves what has been delivered to answers that do not share its destinations. -/
theorem Delivered.keep {j m : Nat} {other answer : Compiled} {i : Nat}
    (delivered : Delivered setting target verbose catalogs state j answer
      (after setting target verbose (catalogs.take m) state).tree)
    (answersOther : Answers setting target verbose catalogs state m other)
    (answers : Answers setting target verbose catalogs state i answer)
    (apart : ¬ other.Shares answer) :
    Delivered setting target verbose catalogs state j answer
      (after setting target verbose (catalogs.take (m + 1)) state).tree := by
  obtain ⟨_, layout, _, named, ⟨parent, tag⟩, paths⟩ := layout_of_answers answers
  obtain ⟨catalog, otherLayout, there, otherNamed, ⟨otherParent, otherTag⟩, _⟩ :=
    layout_of_answers answersOther
  obtain ⟨earlierGrounded, earlierFree⟩ :=
    @after_keeps setting target verbose state grounded linkFree noLinks (catalogs.take m)
  have course := course_one setting ⟨catalog, target, verbose⟩
    (after setting target verbose (catalogs.take m) state)
  have kept := (course.changes earlierGrounded earlierFree noLinks).2
  obtain ⟨given, ready, files, atGiven, lists, holds⟩ := delivered
  refine ⟨given, ready, files, atGiven, lists, ?_⟩
  intro role path published
  obtain ⟨content, reports, lies⟩ := holds role path published
  refine ⟨content, reports, ?_⟩
  obtain ⟨destination, goes, leads⟩ := paths role path published
  have elsewhere : ∀ (ready : Ready setting ⟨catalog, target, verbose⟩
      (after setting target verbose (catalogs.take m) state).toWork) (role : OutputRole),
        role.destination? ready.layout ≠ some destination := by
    intro otherReady otherRole otherGoes
    have same : otherReady.layout = otherLayout :=
      Except.ok.inj (otherReady.named.symm.trans otherNamed)
    rw [same] at otherGoes
    obtain ⟨directories, tags⟩ := Publication.shares_of_destination?
      (Layout.tag_noSlash otherNamed) (Layout.tag_noSlash named) otherGoes goes
    apply apart
    exact ⟨(otherParent.trans directories).trans parent.symm,
      (otherTag.trans tags).trans tag.symm⟩
  rw [leads] at lies ⊢
  rw [after_take_succ there, kept destination elsewhere]
  exact lies

/-- The last of the catalogs that share its destinations owns them. -/
theorem owner_of_answers {m : Nat} (answered : ∀ i, i < m →
      ∃ answer, Answers setting target verbose catalogs state i answer)
    {i : Nat} {answer : Compiled} (below : i < m)
    (answers : Answers setting target verbose catalogs state i answer) :
    ∃ j last, i ≤ j ∧ j < m ∧ Answers setting target verbose catalogs state j last ∧
      last.Shares answer ∧
      (∀ l later, j < l → l < m → Answers setting target verbose catalogs state l later →
        ¬ later.Shares answer) ∧
      Delivered setting target verbose catalogs state j answer
        (after setting target verbose (catalogs.take m) state).tree := by
  -- Each further compile takes over what it shares and keeps what it does not.
  induction m with
  | zero => exact absurd below (Nat.not_lt_zero i)
  | succ m ih =>
      obtain ⟨next, answersNext⟩ := answered m (Nat.lt_succ_self m)
      by_cases shares : next.Shares answer
      · refine ⟨m, next, Nat.le_of_lt_succ below, Nat.lt_succ_self m, answersNext, shares, ?_,
          delivered_of_shares grounded linkFree noLinks answersNext answers shares⟩
        intro l later above inside
        omega
      · have before : i < m := by
          rcases Nat.lt_succ_iff_lt_or_eq.mp below with before | rfl
          · exact before
          · rw [answers.unique answersNext] at shares
            exact absurd ⟨rfl, rfl⟩ shares
        obtain ⟨j, last, order, inside, answersLast, sharesLast, latest, delivered⟩ :=
          ih (fun i below => answered i (Nat.lt_succ_of_lt below)) before
        refine ⟨j, last, order, Nat.lt_succ_of_lt inside, answersLast, sharesLast, ?_,
          delivered.keep grounded linkFree noLinks answersNext answers shares⟩
        intro l later above insideToo answersLater
        rcases Nat.lt_succ_iff_lt_or_eq.mp insideToo with earlier | rfl
        · exact latest l later above earlier answersLater
        · rw [answersLater.unique answersNext]
          exact shares

end

end

/-- A batch that answers has compiled each catalog once, in order, and its paths lead to what
has been reported for the last catalog with the same directory and tag.  A batch that fails has
compiled the catalogs up to the first that fails, and nothing else has happened. -/
theorem batch_semantics (setting : Setting) (target : String) (verbose : Bool)
    (catalogs : List String) (state : RunState) (grounded : state.tree.Grounded)
    (linkFree : state.tree.LinkFree) (noLinks : setting.runner.LeavesNoLinks) :
    (∀ results, (all setting target verbose catalogs state).1 = .ok results →
      (all setting target verbose catalogs state).2
        = after setting target verbose catalogs state ∧
      results.length = catalogs.length ∧
      (∀ i answer, results[i]? = some answer →
        Answers setting target verbose catalogs state i answer) ∧
      (∃ calls : List Call,
        (all setting target verbose catalogs state).2.calls = state.calls ++ calls ∧
        calls.length = catalogs.length ∧
        ∀ i call, calls[i]? = some call → ∃ catalog,
          ∃ ready : Ready setting ⟨catalog, target, verbose⟩
            (after setting target verbose (catalogs.take i) state).toWork,
          catalogs[i]? = some catalog ∧ call = ready.call) ∧
      ∀ i answer, results[i]? = some answer →
        ∃ j last, i ≤ j ∧ results[j]? = some last ∧ last.Shares answer ∧
          (∀ l later, j < l → results[l]? = some later → ¬ later.Shares answer) ∧
          Delivered setting target verbose catalogs state j answer
            (all setting target verbose catalogs state).2.tree) ∧
    (∀ k catalog cause, catalogs[k]? = some catalog →
      (∀ i, i < k → ∃ answer, Answers setting target verbose catalogs state i answer) →
      (one setting ⟨catalog, target, verbose⟩
        (after setting target verbose (catalogs.take k) state)).1 = .error cause →
      all setting target verbose catalogs state
        = (.error cause, after setting target verbose (catalogs.take (k + 1)) state)) := by
  constructor
  · intro results answered
    have ran : all setting target verbose catalogs state
        = (.ok results, (all setting target verbose catalogs state).2) := by
      rw [← answered]
    obtain ⟨final, lengths, each⟩ := answers_of_all ran
    have everyone : ∀ i, i < catalogs.length →
        ∃ answer, Answers setting target verbose catalogs state i answer := by
      intro i below
      have inside : i < results.length := by omega
      exact ⟨results[i], each i results[i] (List.getElem?_eq_getElem inside)⟩
    have whole : catalogs.take catalogs.length = catalogs := List.take_length
    refine ⟨final, lengths, each, ?_, ?_⟩
    · have called := calls_of_answers everyone
      rw [whole] at called
      rw [final]
      exact called
    · intro i answer there
      obtain ⟨inside, _⟩ := List.getElem?_eq_some_iff.mp there
      obtain ⟨j, last, order, below, answersLast, shares, latest, delivered⟩ :=
        owner_of_answers grounded linkFree noLinks everyone (by omega) (each i answer there)
      have insideToo : j < results.length := by omega
      have atJ : results[j]? = some last := by
        rw [List.getElem?_eq_getElem insideToo]
        exact congrArg some
          ((each j _ (List.getElem?_eq_getElem insideToo)).unique answersLast)
      refine ⟨j, last, order, atJ, shares, ?_, ?_⟩
      · intro l later above atL
        obtain ⟨within, _⟩ := List.getElem?_eq_some_iff.mp atL
        exact latest l later above (by omega) (each l later atL)
      · rw [whole] at delivered
        rw [final]
        exact delivered
  · intro k catalog cause there earlier failed
    exact all_of_first_error there earlier failed

namespace Sample

/-- Each call leaves outputs of its own behind.  All scratch directories get the same name. -/
def numbered : Setting where
  directory := place "/w"
  temporary := place "/t"
  suffix _ := "0"
  runner := ⟨"xcrun", fun calls =>
    ⟨.ok outcome, some (outputs ("I" ++ toString calls.length)
      ("C" ++ toString calls.length))⟩⟩
  handlers := []

def packages : FileTree := tree (plain ++ [(place "/w/AppIcon_dev.icon", .directory)])

def devLayout : Layout := ⟨place "/w/Assets_dev.xcassets", place "/w", "Assets_dev", "_dev"⟩

/-- The last catalog is the first one again. -/
def mixed : List String := ["Assets.xcassets", "Assets_dev.xcassets", "./Assets.xcassets"]

def plainAnswer : Compiled := compiled layout ["/w/app.icns", "/w/Assets.car"]

def devAnswer : Compiled := compiled devLayout ["/w/app_dev.icns", "/w/Assets_dev.car"]

theorem packages_grounded : packages.Grounded := by
  apply FileTree.grounded_of_entries
  decide +kernel

theorem packages_linkFree : packages.LinkFree := by
  apply FileTree.linkFree_of_entries
  intro entry member target
  simp only [packages, tree, plain, List.cons_append, List.nil_append, List.mem_cons,
    List.not_mem_nil, or_false] at member
  rcases member with rfl | rfl | rfl | rfl | rfl | rfl <;> simp

theorem numbered_noLinks : numbered.runner.LeavesNoLinks := by
  intro calls contents left
  cases left
  exact linkFree_outputs _ _

theorem mixed_ran : (all numbered "12.0" false mixed (RunState.start packages)).1.toOption
      = some [plainAnswer, devAnswer, plainAnswer] ∧
    (all numbered "12.0" false mixed (RunState.start packages)).2.tree.get? layout.iconBundle
      = some (.file "I3") ∧
    (all numbered "12.0" false mixed (RunState.start packages)).2.tree.get? devLayout.iconBundle
      = some (.file "I2") ∧
    (one numbered ⟨"Assets_gone.xcassets", "12.0", false⟩
      (all numbered "12.0" false mixed (RunState.start packages)).2).1.isOk = false := by
  decide +kernel

theorem dev_apart : ¬ devAnswer.Shares plainAnswer ∧ ¬ plainAnswer.Shares devAnswer := by
  have differ : devAnswer.tag ≠ plainAnswer.tag := by decide +kernel
  exact ⟨fun shares => differ shares.2, fun shares => differ shares.2.symm⟩

/-- The destinations of the first catalog are owned by the third, which is the same one. -/
theorem mixed_batch_semantics :
    packages.Grounded ∧ packages.LinkFree ∧ numbered.runner.LeavesNoLinks ∧
    (all numbered "12.0" false mixed (RunState.start packages)).1
      = .ok [plainAnswer, devAnswer, plainAnswer] ∧
    (Delivered numbered "12.0" false mixed (RunState.start packages) 2 plainAnswer
        (all numbered "12.0" false mixed (RunState.start packages)).2.tree ∧
      (all numbered "12.0" false mixed (RunState.start packages)).2.tree.get? layout.iconBundle
        = some (.file "I3")) ∧
    (Delivered numbered "12.0" false mixed (RunState.start packages) 1 devAnswer
        (all numbered "12.0" false mixed (RunState.start packages)).2.tree ∧
      (all numbered "12.0" false mixed (RunState.start packages)).2.tree.get?
        devLayout.iconBundle = some (.file "I2")) ∧
    ∃ cause, all numbered "12.0" false (mixed ++ ["Assets_gone.xcassets", "Assets_dev.xcassets"])
        (RunState.start packages)
      = (.error cause, after numbered "12.0" false (mixed ++ ["Assets_gone.xcassets"])
          (RunState.start packages)) := by
  obtain ⟨answered, bundle, devBundle, goneFails⟩ := mixed_ran
  have ran := eq_ok_of_toOption answered
  have semantics := fun catalogs => batch_semantics numbered "12.0" false catalogs
    (RunState.start packages) packages_grounded packages_linkFree numbered_noLinks
  obtain ⟨final, _, each, _, owned⟩ := (semantics mixed).1 _ ran
  refine ⟨packages_grounded, packages_linkFree, numbered_noLinks, ran, ⟨?_, bundle⟩,
    ⟨?_, devBundle⟩, ?_⟩
  · obtain ⟨j, last, _, there, shares, latest, delivered⟩ := owned 0 plainAnswer rfl
    rcases j with _ | _ | _ | j
    · exact absurd ⟨rfl, rfl⟩ (latest 2 plainAnswer (by omega) rfl)
    · cases there
      exact absurd shares dev_apart.1
    · exact delivered
    · cases there
  · obtain ⟨j, last, order, there, shares, _, delivered⟩ := owned 1 devAnswer rfl
    rcases j with _ | _ | _ | j
    · omega
    · exact delivered
    · cases there
      exact absurd shares dev_apart.2
    · cases there
  · rw [final] at goneFails
    cases gone : (one numbered ⟨"Assets_gone.xcassets", "12.0", false⟩
        (after numbered "12.0" false mixed (RunState.start packages))).1 with
    | ok other =>
        rw [gone] at goneFails
        cases goneFails
    | error cause =>
        refine ⟨cause, (semantics _).2 3 "Assets_gone.xcassets" cause rfl ?_ gone⟩
        intro i below
        have inside : i < [plainAnswer, devAnswer, plainAnswer].length := below
        exact ⟨_, (each i _ (List.getElem?_eq_getElem inside)).append _⟩

end Sample

end Compile

end AssetCatalog
