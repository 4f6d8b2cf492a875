import AssetCatalog.Proofs.Compile.Deeds
import AssetCatalog.Proofs.FileTree.Copies
/-! # Copying the outputs

One copy either puts the content of its source to the place that its destination leads to, or it
fails (`copy_ok`, `copy_error`).  A run of copies ends at the first that fails, with all earlier
ones done (`copyAll_error`), so it is enough to know what copies do that all go well:

* they begin each copy of the list and change only what their destinations lead to;
* each destination ends up with the content that its source had at the beginning, as long as no
  copy comes in the way of a later one (`Unmixed`). -/

set_option autoImplicit false

namespace AssetCatalog

namespace Work

variable {setting : Setting} {step : CopyStep} {steps : List CopyStep} {work after : Work}

/-- The copy has been done: the place holds what the source has held. -/
structure Copied (setting : Setting) (step : CopyStep) (work after : Work) (place : Place)
    (content : String) : Prop where
  read : ∃ source, work.tree.locate .use setting.directory step.source
    = .ok (.file source content)
  received : work.tree.Receives setting.directory step.destination place
  stays : ∀ other, after.tree.get? other
    = if other = place then some (.file content) else work.tree.get? other

theorem copy_ok (copied : copy setting step work = (.ok (), after)) :
    ∃ place content, Copied setting step work after place content := by
  unfold copy at copied
  dsimp only at copied
  have how := FileTree.copying work.tree setting.directory step.source step.destination
  split at copied
  · cases copied
  · next tree copy =>
    cases copied
    rw [copy] at how
    cases how with
    | @done source place content _ read received stays =>
        exact ⟨place, content, ⟨source, read⟩, received, stays⟩
  · cases copied

/-- A copy that fails has changed nothing, unless its source is a directory. -/
theorem copy_error {cause : Cause} (failed : copy setting step work = (.error cause, after)) :
    after.tree = work.tree ∨
      (∃ source, work.tree.locate .use setting.directory step.source = .ok (.directory source)) ∧
      ∃ place, work.tree.Receives setting.directory step.destination place ∧
        after.tree = work.tree.withdraw setting.directory step.destination place := by
  unfold copy at failed
  dsimp only at failed
  have how := FileTree.copying work.tree setting.directory step.source step.destination
  split at failed
  · cases failed
    exact Or.inl rfl
  · cases failed
  · next tree fault copy =>
    cases failed
    rw [copy] at how
    cases how with
    | refused _ => exact Or.inl rfl
    | @withdrawn source place read received => exact Or.inr ⟨⟨source, read⟩, place, received, rfl⟩

theorem copy_notes (setting : Setting) (step : CopyStep) (work : Work) :
    (copy setting step work).2.attempts = work.attempts ++ [⟨step, work.tree⟩] ∧
      (copy setting step work).2.calls = work.calls ∧
      (copy setting step work).2.scratches = work.scratches ∧
      (copy setting step work).2.written = work.written ++
        match (copy setting step work).1 with
          | .ok () => [step.destination]
          | .error _ => [] := by
  unfold copy
  dsimp only
  split
  · simp
  · simp
  · simp

theorem copy_congr {a b : Setting} (directories : a.directory = b.directory) :
    copy a step = copy b step := by
  unfold copy
  rw [directories]

/-! ## Runs of copies -/

theorem copyAll_cons (setting : Setting) (step : CopyStep) (rest : List CopyStep) (work : Work) :
    copyAll setting (step :: rest) work = match copy setting step work with
      | (.error cause, middle) => (.error cause, middle)
      | (.ok _, middle) =>
        match copyAll setting rest middle with
        | (.error cause, last) => (.error cause, last)
        | (.ok others, last) => (.ok (step.destination :: others), last) := by
  rw [copyAll, Deed.andThen]
  cases copy setting step work with
  | mk result middle =>
      cases result with
      | error cause => rfl
      | ok _ =>
          dsimp only
          rw [Deed.andThen]
          cases copyAll setting rest middle with
          | mk result last =>
              cases result with
              | error cause => rfl
              | ok others => rfl

theorem copyAll_congr {a b : Setting} (directories : a.directory = b.directory) :
    copyAll a steps = copyAll b steps := by
  induction steps with
  | nil => rfl
  | cons step rest ih => rw [copyAll, copyAll, ih, copy_congr directories]

theorem copyAll_cons_ok {rest : List CopyStep} {written : List String}
    (copied : copyAll setting (step :: rest) work = (.ok written, after)) :
    ∃ middle others, copy setting step work = (.ok (), middle) ∧
      copyAll setting rest middle = (.ok others, after) ∧
        written = step.destination :: others := by
  rw [copyAll_cons] at copied
  split at copied
  · cases copied
  · next middle first =>
    split at copied
    · cases copied
    · next others last further =>
      cases copied
      exact ⟨middle, others, first, further, rfl⟩

theorem copyAll_notes {written : List String}
    (copied : copyAll setting steps work = (.ok written, after)) :
    written = steps.map CopyStep.destination ∧ after.written = work.written ++ written ∧
      after.attempts.map Attempt.step = work.attempts.map Attempt.step ++ steps ∧
      after.calls = work.calls ∧ after.scratches = work.scratches := by
  induction steps generalizing work written with
  | nil =>
      cases copied
      simp
  | cons step rest ih =>
      obtain ⟨middle, others, first, further, rfl⟩ := copyAll_cons_ok copied
      obtain ⟨attempts, calls, scratches, writes⟩ := copy_notes setting step work
      rw [first] at attempts calls scratches writes
      dsimp only at attempts calls scratches writes
      obtain ⟨rfl, written, attempted, called, made⟩ := ih further
      refine ⟨rfl, ?_, ?_, called.trans calls, made.trans scratches⟩
      · rw [written, writes, List.append_assoc, List.singleton_append]
      · rw [attempted, attempts, List.map_append, List.append_assoc]
        rfl

theorem copyAll_calls (setting : Setting) (steps : List CopyStep) (work : Work) :
    (copyAll setting steps work).2.calls = work.calls ∧
      (copyAll setting steps work).2.scratches = work.scratches := by
  induction steps generalizing work with
  | nil => exact ⟨rfl, rfl⟩
  | cons step rest ih =>
      obtain ⟨_, calls, scratches, _⟩ := copy_notes setting step work
      rw [copyAll_cons]
      split
      · next first =>
        rw [first] at calls scratches
        exact ⟨calls, scratches⟩
      · next middle first =>
        rw [first] at calls scratches
        obtain ⟨called, made⟩ := ih middle
        split
        · next further =>
          rw [further] at called made
          exact ⟨called.trans calls, made.trans scratches⟩
        · next further =>
          rw [further] at called made
          exact ⟨called.trans calls, made.trans scratches⟩

/-- A run of copies fails at one of them, with all earlier ones done. -/
theorem copyAll_error {cause : Cause} (failed : copyAll setting steps work = (.error cause, after)) :
    ∃ done failing rest middle, steps = done ++ failing :: rest ∧
      copyAll setting done work = (.ok (done.map CopyStep.destination), middle) ∧
        copy setting failing middle = (.error cause, after) ∧
          after.written = work.written ++ done.map CopyStep.destination := by
  induction steps generalizing work with
  | nil => cases failed
  | cons step rest ih =>
      rw [copyAll_cons] at failed
      split at failed
      · next first =>
        cases failed
        have writes := (copy_notes setting step work).2.2.2
        rw [first] at writes
        exact ⟨[], step, rest, work, rfl, rfl, first, writes⟩
      · next middle first =>
        split at failed
        · next further =>
          cases failed
          obtain ⟨done, failing, others, last, rfl, before, fails, written⟩ := ih further
          refine ⟨step :: done, failing, others, last, rfl, ?_, fails, ?_⟩
          · rw [copyAll_cons, first]
            dsimp only
            rw [before]
            rfl
          · have writes := (copy_notes setting step work).2.2.2
            rw [first] at writes
            rw [written, writes, List.append_assoc]
            rfl
        · cases failed

theorem cause_of_copyAll {cause : Cause} (failed : (copyAll setting steps work).1 = .error cause) :
    ∃ failure, cause = .system failure := by
  cases copies : copyAll setting steps work with
  | mk result copied =>
      rw [copies] at failed
      dsimp only at failed
      subst failed
      obtain ⟨_, failing, _, middle, _, _, fails, _⟩ := copyAll_error copies
      unfold copy at fails
      dsimp only at fails
      split at fails
      · cases fails
        exact ⟨_, rfl⟩
      · cases fails
      · cases fails
        exact ⟨_, rfl⟩

/-! ## What lies where after copies -/

theorem Copied.get?_place {place : Place} {content : String}
    (copied : Copied setting step work after place content) :
    after.tree.get? place = some (.file content) := by
  rw [copied.stays, if_pos rfl]

theorem Copied.alike {place : Place} {content : String}
    (copied : Copied setting step work after place content) : work.tree.Alike after.tree := by
  intro other
  by_cases same : other = place
  · subst same
    exact Or.inr ⟨copied.received.takesFile, FileTree.takesFile_of_file copied.get?_place⟩
  · left
    rw [copied.stays, if_neg same]

theorem Copied.ne_of_located {place : Place} {content path : String}
    (copied : Copied setting step work after place content)
    (apart : ∀ spot, work.tree.locate .use setting.directory path = .ok spot → spot.place ≠ place)
    {spot : Spot} (located : after.tree.locate .use setting.directory path = .ok spot) :
    spot.place ≠ place := by
  rw [← FileTree.place_seen work.tree spot]
  exact apart _ (copied.alike.symm.locate located)

theorem copyAll_alike {written : List String}
    (copied : copyAll setting steps work = (.ok written, after)) :
    work.tree.Alike after.tree := by
  induction steps generalizing work written with
  | nil =>
      cases copied
      exact FileTree.Alike.refl _
  | cons step rest ih =>
      obtain ⟨middle, others, first, further, _⟩ := copyAll_cons_ok copied
      obtain ⟨place, content, done⟩ := copy_ok first
      exact done.alike.trans (ih further)

/-- Copies change nothing but the places that their destinations lead to. -/
theorem copyAll_frame {written : List String}
    (copied : copyAll setting steps work = (.ok written, after)) {other : Place}
    (untouched : ∀ step ∈ steps, ¬ work.tree.Receives setting.directory step.destination other) :
    after.tree.get? other = work.tree.get? other := by
  induction steps generalizing work written with
  | nil =>
      cases copied
      rfl
  | cons step rest ih =>
      obtain ⟨middle, others, first, further, _⟩ := copyAll_cons_ok copied
      obtain ⟨place, content, done⟩ := copy_ok first
      have differ : other ≠ place := by
        rintro rfl
        exact untouched step List.mem_cons_self done.received
      have restUntouched : ∀ later ∈ rest,
          ¬ middle.tree.Receives setting.directory later.destination other := by
        intro later member received
        exact untouched later (List.mem_cons_of_mem _ member) (done.alike.symm.receives received)
      rw [ih further restUntouched, done.stays, if_neg differ]

/-- No step writes to where a later one writes to or reads from. -/
def Unmixed (tree : FileTree) (directory : Place) (steps : List CopyStep) : Prop :=
  steps.Pairwise fun earlier later => ∀ place, tree.Receives directory earlier.destination place →
    ¬ tree.Receives directory later.destination place ∧
      ∀ spot, tree.locate .use directory later.source = .ok spot → spot.place ≠ place

theorem Unmixed.alike {a b : FileTree} {directory : Place} (alike : a.Alike b)
    (unmixed : Unmixed a directory steps) : Unmixed b directory steps := by
  refine List.Pairwise.imp ?_ unmixed
  intro earlier later apart place received
  obtain ⟨otherPlace, otherSource⟩ := apart place (alike.symm.receives received)
  refine ⟨fun receivedToo => otherPlace (alike.symm.receives receivedToo), ?_⟩
  intro spot located
  rw [← FileTree.place_seen a spot]
  exact otherSource _ (alike.symm.locate located)

/-- The content of the step's source has come to the place that its destination leads to. -/
def Delivers (setting : Setting) (before after : FileTree) (step : CopyStep) : Prop :=
  ∃ source place content,
    before.locate .use setting.directory step.source = .ok (.file source content) ∧
      before.Receives setting.directory step.destination place ∧
        after.get? place = some (.file content)

/-- Copies that do not get in each other's way deliver what was there before the first one. -/
theorem copyAll_delivers {written : List String}
    (copied : copyAll setting steps work = (.ok written, after))
    (unmixed : Unmixed work.tree setting.directory steps) :
    ∀ step ∈ steps, Delivers setting work.tree after.tree step := by
  induction steps generalizing work written with
  | nil => simp
  | cons step rest ih =>
      obtain ⟨middle, others, first, further, _⟩ := copyAll_cons_ok copied
      obtain ⟨place, content, done⟩ := copy_ok first
      obtain ⟨apart, restUnmixed⟩ := List.pairwise_cons.mp unmixed
      have delivered := ih further (Unmixed.alike done.alike restUnmixed)
      intro step' member
      rcases List.mem_cons.mp member with rfl | later
      · obtain ⟨source, read⟩ := done.read
        refine ⟨source, place, content, read, done.received, ?_⟩
        rw [copyAll_frame further, done.get?_place]
        intro later member received
        exact (apart later member place done.received).1 (done.alike.symm.receives received)
      · obtain ⟨source, target, content', read, received, lies⟩ := delivered step' later
        have differ : source ≠ place :=
          done.ne_of_located (apart step' later place done.received).2 read
        have same : middle.tree.get? source = work.tree.get? source := by
          rw [done.stays, if_neg differ]
        exact ⟨source, target, content', done.alike.symm.locate_file same read,
          done.alike.symm.receives received, lies⟩

/-! ## Without links -/

theorem unmixed_pair {tree : FileTree} {directory a b : Place} {first second : CopyStep}
    (linkFree : tree.LinkFree) (firstText : first.destination = a.text)
    (secondText : second.destination = b.text) (differ : a ≠ b)
    (source : ∀ spot, tree.locate .use directory second.source = .ok spot → spot.place ≠ a) :
    Unmixed tree directory [first, second] := by
  rw [Unmixed, List.pairwise_pair]
  intro place received
  rw [firstText] at received
  rw [linkFree.eq_of_receives received]
  refine ⟨?_, source⟩
  intro receivedToo
  rw [secondText] at receivedToo
  exact differ (linkFree.eq_of_receives receivedToo)

theorem copyAll_linkFree {written : List String} (linkFree : work.tree.LinkFree)
    (copied : copyAll setting steps work = (.ok written, after)) : after.tree.LinkFree := by
  induction steps generalizing work written with
  | nil =>
      cases copied
      exact linkFree
  | cons step rest ih =>
      obtain ⟨middle, others, first, further, _⟩ := copyAll_cons_ok copied
      obtain ⟨place, content, done⟩ := copy_ok first
      refine ih ?_ further
      intro other target found
      rw [done.stays] at found
      split at found
      · cases found
      · exact linkFree other target found

/-- Without links a copy that fails changes nothing, or it takes away the file that lies at its
destination, because its source is a directory. -/
theorem copy_error_of_linkFree {cause : Cause} {destination : Place}
    (linkFree : work.tree.LinkFree) (text : step.destination = destination.text)
    (failed : copy setting step work = (.error cause, after)) :
    after.tree = work.tree ∨
      (∃ source, work.tree.locate .use setting.directory step.source = .ok (.directory source)) ∧
      work.tree.TakesFile destination ∧
      ∀ other, after.tree.get? other
        = if other = destination then none else work.tree.get? other := by
  rcases copy_error failed with same | ⟨read, place, received, withdrawn⟩
  · exact Or.inl same
  · right
    rw [text] at received withdrawn
    have atDestination := linkFree.eq_of_receives received
    subst atDestination
    refine ⟨read, received.takesFile, ?_⟩
    intro other
    rw [withdrawn, FileTree.get?_withdraw linkFree received]

/-- However a copy fails without links, it has changed files only, and those only where its
destination leads to. -/
theorem copy_error_changes {cause : Cause} {destination : Place}
    (linkFree : work.tree.LinkFree) (text : step.destination = destination.text)
    (failed : copy setting step work = (.error cause, after)) :
    work.tree.Alike after.tree ∧
      ∀ other, other ≠ destination → after.tree.get? other = work.tree.get? other := by
  rcases copy_error_of_linkFree linkFree text failed with same | ⟨_, takes, gone⟩
  · rw [same]
    exact ⟨FileTree.Alike.refl work.tree, fun _ _ => rfl⟩
  · constructor
    · intro other
      by_cases atDestination : other = destination
      · subst atDestination
        refine Or.inr ⟨takes, FileTree.takesFile_of_free ?_⟩
        rw [gone, if_pos rfl]
      · left
        rw [gone, if_neg atDestination]
    · intro other differ
      rw [gone, if_neg differ]

theorem copyAll_changes {destinations : List Place} (linkFree : work.tree.LinkFree)
    (texts : ∀ step ∈ steps, ∃ destination ∈ destinations, step.destination = destination.text) :
    work.tree.Alike (copyAll setting steps work).2.tree ∧
      ∀ other, other ∉ destinations →
        (copyAll setting steps work).2.tree.get? other = work.tree.get? other := by
  have elsewhere : ∀ other, other ∉ destinations → ∀ step ∈ steps,
      ¬ work.tree.Receives setting.directory step.destination other := by
    intro other notThere step member received
    obtain ⟨destination, among, text⟩ := texts step member
    rw [text] at received
    rw [linkFree.eq_of_receives received] at notThere
    exact notThere among
  cases copied : copyAll setting steps work with
  | mk result last =>
      cases result with
      | ok written =>
          exact ⟨copyAll_alike copied, fun other notThere =>
            copyAll_frame copied (elsewhere other notThere)⟩
      | error cause =>
          obtain ⟨done, failing, rest, middle, rfl, before, fails, _⟩ := copyAll_error copied
          obtain ⟨destination, among, text⟩ := texts failing (by simp)
          obtain ⟨alike, kept⟩ :=
            copy_error_changes (copyAll_linkFree linkFree before) text fails
          refine ⟨(copyAll_alike before).trans alike, ?_⟩
          intro other notThere
          have differ : other ≠ destination := by
            rintro rfl
            exact notThere among
          rw [kept other differ]
          apply copyAll_frame before
          intro step member
          exact elsewhere other notThere step (List.mem_append_left _ member)

end Work

end AssetCatalog
