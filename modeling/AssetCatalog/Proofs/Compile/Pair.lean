import AssetCatalog.Proofs.Compile.Frame
/-! # The pair of destinations

A compile leaves both destinations as they were unless its outcome is clean, and when it answers
both hold what was reported for them.  Nothing is taken back when a copy fails: the copies before
it stay, and the pair is half updated when the second copy fails. -/

set_option autoImplicit false

namespace AssetCatalog.Compile

section

variable {setting : Setting} {request : Request} {work after : Work}
  {result : Except Cause Compiled}

namespace Ready

variable {ready : Ready setting request work} {files : List String}

theorem destination_eq_text (linkFree : work.tree.LinkFree)
    (noLinks : setting.runner.LeavesNoLinks) {step : CopyStep} {place : Place}
    (planned : step ∈ Publication.stepsFor ready.layout files)
    (received : ready.returned.tree.Receives setting.directory step.destination place) :
    step.destination = place.text := by
  obtain ⟨destination, _, text⟩ := Publication.destination_of_mem planned
  rw [text] at received ⊢
  rw [(ready.linkFree_returned linkFree noLinks).eq_of_receives received]

theorem steps_nodup (lists : ready.Lists files) :
    ((Publication.stepsFor ready.layout files).map CopyStep.destination).Nodup := by
  apply Publication.destinations_nodup lists.complete
  rw [Ne, Place.text_inj]
  have tagFree := Layout.tag_noSlash ready.named
  exact Layout.iconBundle_ne_assetArchive tagFree tagFree

end Ready

/-! ## When a copy fails

The plan falls into the steps that have been done, the one that has failed and the rest. -/

section

variable {ready : Ready setting request work} {files : List String} {done rest : List CopyStep}
  {failing : CopyStep} {middle copied : Work} {cause : Cause}
  (lists : ready.Lists files) (grounded : work.tree.Grounded) (linkFree : work.tree.LinkFree)
  (noLinks : setting.runner.LeavesNoLinks)
  (split : Publication.stepsFor ready.layout files = done ++ failing :: rest)
  (before : Work.copyAll setting done ready.returned
    = (.ok (done.map CopyStep.destination), middle))
  (fails : Work.copy setting failing middle = (.error cause, copied))

include split

theorem planned_of_done {step : CopyStep} (member : step ∈ done) :
    step ∈ Publication.stepsFor ready.layout files := by
  rw [split]
  exact List.mem_append_left _ member

theorem planned_of_left {step : CopyStep} (member : step ∈ failing :: rest) :
    step ∈ Publication.stepsFor ready.layout files := by
  rw [split]
  exact List.mem_append_right _ member

include lists linkFree noLinks before

theorem untouched_of_left {step : CopyStep} (member : step ∈ failing :: rest)
    {destination : Place} (goes : step.role.destination? ready.layout = some destination) :
    middle.tree.get? destination = ready.returned.tree.get? destination := by
  apply Work.copyAll_frame before
  intro earlier doneBefore received
  have text := Publication.text_of_mem (planned_of_left split member) goes
  have same := Ready.destination_eq_text linkFree noLinks
    (planned_of_done split doneBefore) received
  have different := Ready.steps_nodup lists
  rw [split, List.map_append, List.nodup_append] at different
  exact different.2.2 earlier.destination (List.mem_map_of_mem doneBefore)
    step.destination (List.mem_map_of_mem member) (same.trans text.symm)

include fails

omit lists in
/-- The copy that fails changes nothing at the destinations of other steps. -/
theorem kept_of_other {destination : Place} (other : destination.text ≠ failing.destination) :
    copied.tree.get? destination = middle.tree.get? destination := by
  have middleFree := Work.copyAll_linkFree (ready.linkFree_returned linkFree noLinks) before
  obtain ⟨last, _, lastText⟩ :=
    Publication.destination_of_mem (planned_of_left split List.mem_cons_self)
  apply (Work.copy_error_changes middleFree lastText fails).2
  rintro rfl
  exact other lastText.symm

include grounded

theorem delivered_of_done {step : CopyStep} (member : step ∈ done) {destination : Place}
    (goes : step.role.destination? ready.layout = some destination) :
    ∃ content, ready.Reports files step.role content ∧
      (copied.closed ready.scratch).tree.get? destination = some (.file content) := by
  have planned := planned_of_done split member
  have text := Publication.text_of_mem planned goes
  have unmixed : Work.Unmixed ready.returned.tree setting.directory done := by
    have all := Ready.unmixed lists linkFree noLinks
    rw [split] at all
    exact (List.pairwise_append.mp all).1
  obtain ⟨source, place, content, read, received, lies⟩ :=
    Work.copyAll_delivers before unmixed step member
  have same := Ready.destination_eq_text linkFree noLinks planned received
  obtain rfl := Place.text_inj.mp (same.symm.trans text)
  obtain ⟨listed, base, _⟩ := Publication.of_mem_stepsFor planned
  refine ⟨content, ⟨step.source, listed, base, source, read⟩, ?_⟩
  have outside := ready.outside_of_takesFile linkFree grounded
    (Publication.parent_of_destination? (Layout.tag_noSlash ready.named) goes)
    received.takesFile
  have other : place.text ≠ failing.destination := by
    have different := Ready.steps_nodup lists
    rw [split, List.map_append, List.nodup_append] at different
    rw [← same]
    exact different.2.2 step.destination (List.mem_map_of_mem member)
      failing.destination (List.mem_map_of_mem List.mem_cons_self)
  rw [Work.get?_closed ready.scratch_ne_root, outside,
    kept_of_other linkFree noLinks split before fails other, lies]
  rfl

theorem kept_of_rest {step : CopyStep} (member : step ∈ rest) {destination : Place}
    (goes : step.role.destination? ready.layout = some destination) :
    (copied.closed ready.scratch).tree.get? destination = work.tree.get? destination := by
  have left := List.mem_cons_of_mem failing member
  have text := Publication.text_of_mem (planned_of_left split left) goes
  have other : destination.text ≠ failing.destination := by
    have different := Ready.steps_nodup lists
    rw [split, List.map_append, List.map_cons, List.nodup_append] at different
    rw [← text]
    intro same
    apply (List.nodup_cons.mp different.2.1).1
    rw [← same]
    exact List.mem_map_of_mem member
  apply ready.get?_closed grounded
  rw [kept_of_other linkFree noLinks split before fails other,
    untouched_of_left lists linkFree noLinks split before left goes]

theorem kept_or_gone {destination : Place}
    (goes : failing.role.destination? ready.layout = some destination) :
    (copied.closed ready.scratch).tree.get? destination = work.tree.get? destination ∨
      (∃ source, ready.returned.tree.locate .use setting.directory failing.source
        = .ok (.directory source)) ∧
      (copied.closed ready.scratch).tree.get? destination = none := by
  have member : failing ∈ failing :: rest := List.mem_cons_self
  have text := Publication.text_of_mem (planned_of_left split member) goes
  have middleFree := Work.copyAll_linkFree (ready.linkFree_returned linkFree noLinks) before
  have untouched := untouched_of_left lists linkFree noLinks split before member goes
  rcases Work.copy_error_of_linkFree middleFree text fails with same | ⟨⟨source, read⟩, _, gone⟩
  · left
    apply ready.get?_closed grounded
    rw [same, untouched]
  · right
    refine ⟨⟨source, (Work.copyAll_alike before).symm.locate read⟩, ?_⟩
    rw [Work.get?_closed ready.scratch_ne_root, gone, if_pos rfl]
    split <;> rfl

end

theorem Course.pair_of_answer {answer : Compiled}
    (course : Course setting request work (.ok answer) after) (grounded : work.tree.Grounded)
    (linkFree : work.tree.LinkFree) (noLinks : setting.runner.LeavesNoLinks)
    (ready : Ready setting request work) {files : List String} (lists : ready.Lists files)
    {role : OutputRole} {destination : Place}
    (goes : role.destination? ready.layout = some destination) :
    ∃ content, ready.Reports files role content ∧
      after.tree.get? destination = some (.file content) := by
  obtain ⟨copied, copies, _, rfl⟩ := course.copied_of_answer ready lists
  obtain ⟨content, place, reports, received, lies⟩ := delivered_of_apart lists copies
    (Ready.apart_of_linkFree lists grounded linkFree noLinks) goes
  have same := (ready.linkFree_returned linkFree noLinks).eq_of_receives received
  rw [same] at lies
  exact ⟨content, reports, lies⟩

/-- A compile whose outcome is clean and that fails has failed at one of the copies.  The ones
before it have been made and stay. -/
theorem Course.pair_of_error {cause : Cause}
    (course : Course setting request work (.error cause) after) (grounded : work.tree.Grounded)
    (linkFree : work.tree.LinkFree) (noLinks : setting.runner.LeavesNoLinks)
    (ready : Ready setting request work) {files : List String} (lists : ready.Lists files) :
    ∃ done failing rest, Publication.stepsFor ready.layout files = done ++ failing :: rest ∧
      after.written = work.written ++ done.map CopyStep.destination ∧
      (∀ step ∈ done, ∀ destination,
        step.role.destination? ready.layout = some destination →
          ∃ content, ready.Reports files step.role content ∧
            after.tree.get? destination = some (.file content)) ∧
      (∀ destination, failing.role.destination? ready.layout = some destination →
        after.tree.get? destination = work.tree.get? destination ∨
          (∃ source, ready.returned.tree.locate .use setting.directory failing.source
            = .ok (.directory source)) ∧ after.tree.get? destination = none) ∧
      ∀ step ∈ rest, ∀ destination, step.role.destination? ready.layout = some destination →
        after.tree.get? destination = work.tree.get? destination := by
  have verdict := Ready.verdict_eq_ok_iff.mpr ⟨files, lists, rfl⟩
  obtain ⟨answer, left⟩ := course.of_verdict ready verdict
  cases copies : Work.copyAll setting (Publication.stepsFor ready.layout files)
      ready.returned with
  | mk copyResult copied =>
      rw [copies] at answer left
      subst left
      cases copyResult with
      | ok written => cases answer
      | error cause' =>
          obtain ⟨done, failing, rest, middle, split, before, fails, written⟩ :=
            Work.copyAll_error copies
          refine ⟨done, failing, rest, split, written, ?_, ?_, ?_⟩
          · intro step member destination goes
            exact delivered_of_done lists grounded linkFree noLinks split before fails member goes
          · intro destination goes
            exact kept_or_gone lists grounded linkFree noLinks split before fails goes
          · intro step member destination goes
            exact kept_of_rest lists grounded linkFree noLinks split before fails member goes

/-- If the copy that fails leaves everything alone, the pair is as the copies before it have
left it: what they have not replaced is as it was. -/
theorem Course.rest_of_error {cause : Cause}
    (course : Course setting request work (.error cause) after) (grounded : work.tree.Grounded)
    (alone : ∀ attempt ∈ work.begunSince after, attempt.LeavesAlone setting.directory)
    (ready : Ready setting request work) {files : List String} (lists : ready.Lists files) :
    ∃ done rest, Publication.stepsFor ready.layout files = done ++ rest ∧ rest ≠ [] ∧
      (∀ place, (∀ step ∈ done,
          ¬ ready.returned.tree.Receives setting.directory step.destination place) →
        after.tree.get? place = work.tree.get? place) ∧
      ∀ step ∈ done, ∃ content place, ready.Reports files step.role content ∧
        ready.returned.tree.Receives setting.directory step.destination place ∧
        after.tree.get? place
          = if ready.scratch.isWithin place then none else some (.file content) := by
  obtain ⟨done, rest, split, left, _, kept, replaced⟩ :=
    course.replaced_of_error grounded alone ready lists
  refine ⟨done, rest, split, left, kept, ?_⟩
  intro step member
  obtain ⟨source, place, content, read, received, lies⟩ := replaced step member
  have planned : step ∈ Publication.stepsFor ready.layout files := by
    rw [split]
    exact List.mem_append_left _ member
  obtain ⟨listed, base, _⟩ := Publication.of_mem_stepsFor planned
  exact ⟨content, place, ⟨step.source, listed, base, source, read⟩, received, lies⟩

end

/-- Nothing is copied unless the outcome is clean.  When the compile answers, both destinations
hold what has been reported for them, if the copies stay apart, as they do without links.
Otherwise one of the two copies has failed: the ones before it stay, and the rest has not been
made.  Without links this is so even where the copy that fails takes its destination away. -/
theorem pair_after_compile (setting : Setting) (request : Request) (state : RunState)
    (grounded : state.tree.Grounded) :
    ((¬ ∃ (ready : Ready setting request state.toWork) (files : List String),
        ready.Lists files) → (one setting request state).2.tree.Same state.tree) ∧
    (∀ (ready : Ready setting request state.toWork) (files : List String), ready.Lists files →
      ∀ answer, (one setting request state).1 = .ok answer →
        Apart ready.returned.tree setting.directory ready.scratch
            (Publication.stepsFor ready.layout files) →
          ∀ role destination, role.destination? ready.layout = some destination →
            ∃ content place, ready.Reports files role content ∧
              ready.returned.tree.Receives setting.directory destination.text place ∧
              (one setting request state).2.tree.get? place = some (.file content)) ∧
    ((∀ attempt ∈ state.toWork.begunSince (one setting request state).2.toWork,
        attempt.LeavesAlone setting.directory) →
      ∀ (ready : Ready setting request state.toWork) (files : List String), ready.Lists files →
        ∀ cause, (one setting request state).1 = .error cause →
          ∃ done rest, Publication.stepsFor ready.layout files = done ++ rest ∧ rest ≠ [] ∧
            (∀ place, (∀ step ∈ done,
                ¬ ready.returned.tree.Receives setting.directory step.destination place) →
              (one setting request state).2.tree.get? place = state.tree.get? place) ∧
            ∀ step ∈ done, ∃ content place, ready.Reports files step.role content ∧
              ready.returned.tree.Receives setting.directory step.destination place ∧
              (one setting request state).2.tree.get? place
                = if ready.scratch.isWithin place then none else some (.file content)) ∧
    (state.tree.LinkFree → setting.runner.LeavesNoLinks →
      ∀ (ready : Ready setting request state.toWork) (files : List String), ready.Lists files →
        (∀ answer, (one setting request state).1 = .ok answer →
          ∀ role destination, role.destination? ready.layout = some destination →
            ∃ content, ready.Reports files role content ∧
              (one setting request state).2.tree.get? destination = some (.file content)) ∧
        (∀ cause, (one setting request state).1 = .error cause →
          ∃ done failing rest,
            Publication.stepsFor ready.layout files = done ++ failing :: rest ∧
            (one setting request state).2.written
              = state.written ++ done.map CopyStep.destination ∧
            (∀ step ∈ done, ∀ destination,
              step.role.destination? ready.layout = some destination →
                ∃ content, ready.Reports files step.role content ∧
                  (one setting request state).2.tree.get? destination
                    = some (.file content)) ∧
            (∀ destination, failing.role.destination? ready.layout = some destination →
              (one setting request state).2.tree.get? destination
                  = state.tree.get? destination ∨
                (∃ source, ready.returned.tree.locate .use setting.directory failing.source
                  = .ok (.directory source)) ∧
                (one setting request state).2.tree.get? destination = none) ∧
            ∀ step ∈ rest, ∀ destination,
              step.role.destination? ready.layout = some destination →
                (one setting request state).2.tree.get? destination
                  = state.tree.get? destination)) := by
  have course := course_one setting request state
  refine ⟨fun unclean => (course.same_of_unclean grounded unclean).1, ?_, ?_, ?_⟩
  · intro ready files lists answer answered apart role destination goes
    rw [answered] at course
    obtain ⟨copied, copies, _, left⟩ := course.copied_of_answer ready lists
    have delivered := delivered_of_apart lists copies apart goes
    rw [← left] at delivered
    exact delivered
  · intro alone ready files lists cause failed
    rw [failed] at course
    exact course.rest_of_error grounded alone ready lists
  · intro linkFree noLinks ready files lists
    constructor
    · intro answer answered role destination goes
      rw [answered] at course
      exact course.pair_of_answer grounded linkFree noLinks ready lists goes
    · intro cause failed
      rw [failed] at course
      exact course.pair_of_error grounded linkFree noLinks ready lists

namespace Sample

def outputs (icon archive : String) : FileTree :=
  ⟨[(place "/AppIcon.icns", .file icon), (place "/Assets.car", .file archive)]⟩

theorem linkFree_outputs (icon archive : String) : (outputs icon archive).LinkFree := by
  apply FileTree.linkFree_of_entries
  intro entry member target
  simp only [outputs, List.mem_cons, List.not_mem_nil, or_false] at member
  rcases member with rfl | rfl <;> simp

theorem bothOutputs_noLinks : (setting bothOutputs).runner.LeavesNoLinks := by
  intro calls contents left
  have same : contents = bothOutputs := (Option.some.inj left).symm
  rw [same]
  exact linkFree_outputs "I" "C"

theorem plain_answered : ∃ answer,
    (one (setting bothOutputs) request (RunState.start (tree plain))).1 = .ok answer := by
  have copied : (Work.copyAll (setting bothOutputs) steps
      (plainReady bothOutputs).returned).1.toOption = some ["/w/app.icns", "/w/Assets.car"] := by
    decide +kernel
  refine ⟨compiled layout ["/w/app.icns", "/w/Assets.car"], ?_⟩
  rw [(plain_course bothOutputs).1, eq_ok_of_toOption copied]
  rfl

theorem plain_pair_after_compile :
    (tree plain).Grounded ∧ (tree plain).LinkFree ∧
    (setting bothOutputs).runner.LeavesNoLinks ∧
    ∃ files content, (plainReady bothOutputs).Reports files .assetArchive content ∧
      (one (setting bothOutputs) request (RunState.start (tree plain))).2.tree.get?
        layout.assetArchive = some (.file content) := by
  obtain ⟨files, lists, _⟩ := Ready.verdict_eq_ok_iff.mp (plain_verdict bothOutputs)
  obtain ⟨answer, answered⟩ := plain_answered
  have pair := pair_after_compile (setting bothOutputs) request (RunState.start (tree plain))
    plain_grounded
  refine ⟨plain_grounded, plain_linkFree, bothOutputs_noLinks, files, ?_⟩
  exact (pair.2.2.2 plain_linkFree bothOutputs_noLinks (plainReady bothOutputs) files lists).1
    answer answered .assetArchive layout.assetArchive rfl

/-- The compiler lists both outputs but leaves only the icon bundle behind. -/
def iconOnly : FileTree := ⟨[(place "/AppIcon.icns", .file "I")]⟩

/-- When the second copy fails, the icon bundle is new and the asset archive is not; and when
both destinations are links to one file, the icon bundle is not there after both copies. -/
theorem half_updated_pair : (∃ files, (plainReady iconOnly).Lists files) ∧
    (one (setting iconOnly) request (RunState.start (tree plain))).1.isOk = false ∧
    (tree plain).get? layout.iconBundle = some (.file "old bundle") ∧
    (one (setting iconOnly) request (RunState.start (tree plain))).2.tree.get?
      layout.iconBundle = some (.file "I") ∧
    (tree plain).get? layout.assetArchive = some (.file "old archive") ∧
    (one (setting iconOnly) request (RunState.start (tree plain))).2.tree.get?
      layout.assetArchive = some (.file "old archive") ∧
    (one (setting bothOutputs) request (RunState.start (tree linked))).2.written.length = 2 ∧
    (one (setting bothOutputs) request (RunState.start (tree linked))).2.tree.locate .use
      (place "/w") layout.iconBundle.text = .ok (.file (place "/w/shared") "C") := by
  obtain ⟨files, lists, _⟩ := Ready.verdict_eq_ok_iff.mp (plain_verdict iconOnly)
  have failed : ((Work.copyAll (setting iconOnly) steps
      (plainReady iconOnly).returned).1.map (compiled layout)).isOk = false := by
    decide +kernel
  refine ⟨⟨files, lists⟩, ?_, by decide +kernel, ?_, by decide +kernel, ?_, ?_, ?_⟩
  · rw [(plain_course iconOnly).1]
    exact failed
  · rw [(plain_course iconOnly).2]
    decide +kernel
  · rw [(plain_course iconOnly).2]
    decide +kernel
  · rw [linked_work]
    decide +kernel
  · rw [linked_work]
    exact eq_ok_of_toOption (by decide +kernel)

end Sample

end AssetCatalog.Compile
