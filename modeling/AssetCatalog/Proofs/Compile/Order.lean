import AssetCatalog.Proofs.Compile.Pair
/-! # The order of the listed files

Copies that do not get in each other's way can be made in any order (`copyAll_of_perm`): whether
one can be made at all (`Copyable`) does not depend on those before it, and what lies where in
the end is settled by the files at the beginning.  In a file system without links this holds of
the copies of every plan, so it makes no difference in which order a reply lists its files. -/

set_option autoImplicit false

namespace AssetCatalog

namespace FileTree

variable {tree : FileTree} {directory place source : Place} {path content : String}

theorem copyFile_of_file {destination : String}
    (read : tree.locate .use directory path = .ok (.file source content))
    (received : tree.Receives directory destination place) :
    ∃ after, tree.copyFile directory path destination = (after, .ok ()) := by
  have written : ∃ after, tree.writeCopy directory (.file source content) destination place
      = (after, .ok ()) := by
    unfold writeCopy
    dsimp only
    split
    · exact ⟨_, rfl⟩
    · exact ⟨_, rfl⟩
  unfold copyFile
  rw [read]
  rcases received with located | ⟨old, located⟩
  · rw [located]
    exact written
  · rw [located]
    exact written

end FileTree

namespace Work

variable {setting : Setting} {step : CopyStep} {steps steps' : List CopyStep}
  {work after : Work}

structure Copyable (setting : Setting) (tree : FileTree) (step : CopyStep) : Prop where
  arguments : SystemFailure.ofArguments? [("src", step.source), ("dest", step.destination)] = none
  read : ∃ source content,
    tree.locate .use setting.directory step.source = .ok (.file source content)
  received : ∃ place, tree.Receives setting.directory step.destination place

theorem copyable_of_copy (copied : copy setting step work = (.ok (), after)) :
    Copyable setting work.tree step := by
  obtain ⟨place, content, done⟩ := copy_ok copied
  obtain ⟨source, read⟩ := done.read
  refine ⟨?_, ⟨source, content, read⟩, ⟨place, done.received⟩⟩
  unfold copy at copied
  dsimp only at copied
  split at copied
  · cases copied
  · next fits _ => exact fits
  · cases copied

theorem Copyable.copy (copyable : Copyable setting work.tree step) :
    ∃ after, Work.copy setting step work = (.ok (), after) := by
  obtain ⟨source, content, read⟩ := copyable.read
  obtain ⟨place, received⟩ := copyable.received
  obtain ⟨tree, copies⟩ := FileTree.copyFile_of_file read received
  unfold Work.copy
  dsimp only
  rw [copyable.arguments, copies]
  exact ⟨_, rfl⟩

/-- A copy that does not touch the source of another one makes no difference to it. -/
theorem Copied.copyable_iff {place : Place} {content : String} {later : CopyStep}
    (copied : Copied setting step work after place content)
    (apart : ∀ spot, work.tree.locate .use setting.directory later.source = .ok spot →
      spot.place ≠ place) :
    Copyable setting after.tree later ↔ Copyable setting work.tree later := by
  have kept : ∀ source, source ≠ place → work.tree.get? source = after.tree.get? source := by
    intro source differ
    rw [copied.stays, if_neg differ]
  constructor
  · rintro ⟨arguments, ⟨source, content, read⟩, target, received⟩
    have differ : source ≠ place := copied.ne_of_located apart read
    have same := (kept source differ).symm
    exact ⟨arguments, ⟨source, content, copied.alike.symm.locate_file same read⟩, target,
      copied.alike.symm.receives received⟩
  · rintro ⟨arguments, ⟨source, content, read⟩, target, received⟩
    have differ : source ≠ place := apart _ read
    exact ⟨arguments, ⟨source, content, copied.alike.locate_file (kept source differ) read⟩,
      target, copied.alike.receives received⟩

/-- Copies that do not get in each other's way are all made if each of them can be made at the
beginning. -/
theorem copyAll_ok_iff (unmixed : Unmixed work.tree setting.directory steps) :
    (∃ written after, copyAll setting steps work = (.ok written, after))
      ↔ ∀ step ∈ steps, Copyable setting work.tree step := by
  induction steps generalizing work with
  | nil => simp [copyAll, Deed.answer]
  | cons step rest ih =>
      obtain ⟨apart, restUnmixed⟩ := List.pairwise_cons.mp unmixed
      have behind : ∀ middle, copy setting step work = (.ok (), middle) →
          ((∃ written after, copyAll setting rest middle = (.ok written, after))
            ↔ ∀ later ∈ rest, Copyable setting work.tree later) := by
        intro middle first
        obtain ⟨place, content, done⟩ := copy_ok first
        rw [ih (Unmixed.alike done.alike restUnmixed)]
        refine forall₂_congr fun later member => ?_
        exact done.copyable_iff (apart later member place done.received).2
      constructor
      · rintro ⟨written, after, copied⟩
        obtain ⟨middle, others, first, further, _⟩ := copyAll_cons_ok copied
        have restCopyable := (behind middle first).mp ⟨others, after, further⟩
        exact List.forall_mem_cons.mpr ⟨copyable_of_copy first, restCopyable⟩
      · intro copyable
        obtain ⟨firstCopyable, restCopyable⟩ := List.forall_mem_cons.mp copyable
        obtain ⟨middle, first⟩ := firstCopyable.copy
        obtain ⟨others, after, further⟩ := (behind middle first).mpr restCopyable
        refine ⟨step.destination :: others, after, ?_⟩
        rw [copyAll_cons, first]
        dsimp only
        rw [further]

/-- Each place ends up with what a step delivers there, or as it was. -/
theorem copyAll_same {written written' : List String} {after' : Work} (perm : steps'.Perm steps)
    (unmixed : Unmixed work.tree setting.directory steps)
    (unmixed' : Unmixed work.tree setting.directory steps')
    (copied : copyAll setting steps work = (.ok written, after))
    (copied' : copyAll setting steps' work = (.ok written', after')) :
    after'.tree.Same after.tree := by
  intro place
  by_cases reached : ∃ step ∈ steps, work.tree.Receives setting.directory step.destination place
  · obtain ⟨step, member, received⟩ := reached
    obtain ⟨source, target, content, read, goes, lies⟩ :=
      copyAll_delivers copied unmixed step member
    obtain ⟨source', target', content', read', goes', lies'⟩ :=
      copyAll_delivers copied' unmixed' step (perm.mem_iff.mpr member)
    cases read.symm.trans read'
    rw [goes.unique received] at lies
    rw [goes'.unique received] at lies'
    rw [lies, lies']
  · have untouched : ∀ step ∈ steps,
        ¬ work.tree.Receives setting.directory step.destination place := by
      intro step member received
      exact reached ⟨step, member, received⟩
    rw [copyAll_frame copied untouched, copyAll_frame copied' fun step member =>
      untouched step (perm.mem_iff.mp member)]

theorem copyAll_of_perm {written : List String} (perm : steps'.Perm steps)
    (unmixed : Unmixed work.tree setting.directory steps)
    (unmixed' : Unmixed work.tree setting.directory steps')
    (copied : copyAll setting steps work = (.ok written, after)) :
    ∃ after', copyAll setting steps' work = (.ok (steps'.map CopyStep.destination), after') ∧
      after'.tree.Same after.tree := by
  have copyable := (copyAll_ok_iff unmixed).mp ⟨written, after, copied⟩
  obtain ⟨written', after', copied'⟩ := (copyAll_ok_iff unmixed').mpr fun step member =>
    copyable step (perm.mem_iff.mp member)
  have same := copyAll_same perm unmixed unmixed' copied copied'
  obtain ⟨rfl, _⟩ := copyAll_notes copied'
  exact ⟨after', copied', same⟩

end Work

namespace Publication

variable {layout : Layout} {files files' : List String}

def Refuses (layout : Layout) (files : List String) : Prop :=
  ∃ fault failure, plan layout (some ⟨some files⟩) = .error fault ∧
    (Cause.unpublished fault).failure? = some failure ∧ failure.family = .compilation

/-- The steps for both orders of a list are the same but for their order, or both are refused. -/
def PlansAlike (layout : Layout) (files files' : List String) : Prop :=
  (∃ steps steps', plan layout (some ⟨some files⟩) = .ok steps ∧
      plan layout (some ⟨some files'⟩) = .ok steps' ∧ steps'.Perm steps) ∨
    (Refuses layout files ∧ Refuses layout files')

theorem plan_files_eq_ok_iff {steps : List CopyStep} : plan layout (some ⟨some files⟩) = .ok steps
    ↔ (files.map Path.baseName).Perm (OutputRole.all.map OutputRole.fileName) ∧
      steps = stepsFor layout files := by
  rw [plan_eq_ok_iff]
  simp

theorem refuses_of_not_complete
    (incomplete : ¬ (files.map Path.baseName).Perm (OutputRole.all.map OutputRole.fileName)) :
    Refuses layout files := by
  cases planned : plan layout (some ⟨some files⟩) with
  | ok steps => exact absurd (plan_files_eq_ok_iff.mp planned).1 incomplete
  | error fault => exact ⟨fault, _, planned, rfl, rfl⟩

theorem stepsFor_perm (layout : Layout) (perm : files'.Perm files) :
    (stepsFor layout files').Perm (stepsFor layout files) := perm.filterMap _

theorem plansAlike_of_perm (layout : Layout) (perm : files'.Perm files) :
    PlansAlike layout files files' := by
  by_cases complete : (files.map Path.baseName).Perm (OutputRole.all.map OutputRole.fileName)
  · refine Or.inl ⟨stepsFor layout files, stepsFor layout files', ?_, ?_,
      stepsFor_perm layout perm⟩
    · exact plan_files_eq_ok_iff.mpr ⟨complete, rfl⟩
    · exact plan_files_eq_ok_iff.mpr ⟨(perm.map _).trans complete, rfl⟩
  · refine Or.inr ⟨refuses_of_not_complete complete, refuses_of_not_complete ?_⟩
    intro complete'
    exact complete ((perm.symm.map _).trans complete')

/-- No step of a plan goes to where another one comes from. -/
theorem source_ne_destination {directory : Place} (tagFree : '/' ∉ layout.tag.toList)
    {steps : List CopyStep} (planned : plan layout (some ⟨some files⟩) = .ok steps)
    {step other : CopyStep} (member : step ∈ steps) (otherMember : other ∈ steps)
    (differ : step ≠ other) :
    directory.resolve step.source ≠ directory.resolve other.destination := by
  obtain ⟨complete, rfl⟩ := plan_files_eq_ok_iff.mp planned
  obtain ⟨icon, archive, ⟨_, iconBase⟩, ⟨_, archiveBase⟩, order⟩ :=
    @pair_of_perm layout files complete
  have both : ∀ step ∈ stepsFor layout files,
      step = iconStep layout icon ∨ step = archiveStep layout archive := by
    intro step member
    rcases order with steps | steps
    · simpa [steps] using member
    · simpa [steps, or_comm] using member
  rcases both step member with rfl | rfl
  · rcases both other otherMember with rfl | rfl
    · exact absurd rfl differ
    · rw [archiveStep, Place.resolve_text]
      exact resolve_ne_assetArchive tagFree iconBase
  · rcases both other otherMember with rfl | rfl
    · rw [iconStep, Place.resolve_text]
      exact resolve_ne_iconBundle tagFree archiveBase
    · exact absurd rfl differ

end Publication

namespace Compile

/-- The response reads as a reply that nothing speaks against, and it lists these files. -/
def ListsCleanly (response : Response) (files : List String) : Prop :=
  ∃ outcome reply, response.outcome = .ok outcome ∧ readReply outcome = .ok reply ∧
    Report.ofReply? reply = none ∧ reply.results = some ⟨some files⟩

/-- Responses that list the same files in orders of their own, and leave the same behind. -/
structure Reordered (response response' : Response) (files files' : List String) : Prop where
  lists : ListsCleanly response files
  lists' : ListsCleanly response' files'
  perm : files'.Perm files
  contents : response'.contents = response.contents

/-- The runners give the same responses, up to the order of the files that are listed. -/
def Reorders (runner other : Runner) : Prop :=
  ∀ calls, other.respond calls = runner.respond calls ∨
    ∃ files files', Reordered (runner.respond calls) (other.respond calls) files files'

section

variable {setting : Setting} {other : Runner} {request : Request} {work : Work}

def answeredBy (setting : Setting) (other : Runner) : Setting := { setting with runner := other }

theorem scratchPlace_answeredBy (setting : Setting) (other : Runner) :
    (answeredBy setting other).scratchPlace = setting.scratchPlace := by
  unfold answeredBy Setting.scratchPlace
  dsimp only

theorem Course.verdict_of_answer {answer : Compiled} {after : Work}
    (course : Course setting request work (.ok answer) after) :
    ∃ (ready : Ready setting request work) (steps : List CopyStep), ready.verdict = .ok steps := by
  cases course with
  | published ready verdict _ => exact ⟨ready, _, verdict⟩

namespace Ready

variable (ready : Ready setting request work)

def answeredBy (other : Runner) : Ready (Compile.answeredBy setting other) request work where
  layout := ready.layout
  scratch := ready.scratch
  staged := ready.staged
  named := ready.named
  packageThere := ready.packageThere
  opened := by
    rw [scratchPlace_answeredBy]
    exact ready.opened
  packed := ready.packed

theorem returned_answeredBy
    (contents : (ready.answeredBy other).response.contents = ready.response.contents) :
    (ready.answeredBy other).returned = ready.returned := by
  unfold returned Response.leaves
  rw [contents]
  rfl

theorem verdict_of_listsCleanly {files : List String}
    (lists : ListsCleanly ready.response files) : ready.verdict
      = (Publication.plan ready.layout (some ⟨some files⟩)).mapError .unpublished := by
  obtain ⟨outcome, reply, answered, read, quiet, results⟩ := lists
  unfold verdict
  rw [answered]
  dsimp only
  unfold judge
  rw [read]
  dsimp only
  rw [quiet, ← results]

theorem listsCleanly_of_verdict {steps : List CopyStep} (verdict : ready.verdict = .ok steps) :
    ∃ files, ListsCleanly ready.response files := by
  unfold Ready.verdict at verdict
  cases answered : ready.response.outcome with
  | error message =>
      rw [answered] at verdict
      cases verdict
  | ok outcome =>
      rw [answered] at verdict
      obtain ⟨reply, read, quiet, planned⟩ := judge_eq_ok_iff_reply.mp verdict
      obtain ⟨files, results, _, _⟩ := Publication.plan_eq_ok_iff.mp planned
      exact ⟨files, outcome, reply, answered, read, quiet, results⟩

theorem reordered_of_verdict (reorders : Reorders setting.runner other) {steps : List CopyStep}
    (verdict : ready.verdict = .ok steps) :
    ∃ files files', Reordered ready.response (ready.answeredBy other).response files files' := by
  rcases reorders (work.calls ++ [ready.call]) with same | reordered
  · have same : (ready.answeredBy other).response = ready.response := same
    obtain ⟨files, lists⟩ := ready.listsCleanly_of_verdict verdict
    rw [same]
    exact ⟨files, files, lists, lists, List.Perm.refl files, rfl⟩
  · exact reordered

end Ready

/-- Both runs have published the same, each in the order in which its files are listed. -/
structure PublishAlike (layout : Layout) (files files' : List String)
    (answer answer' : Compiled) : Prop where
  catalog : answer'.catalog = answer.catalog
  tag : answer'.tag = answer.tag
  destinations : answer'.destinations = answer.destinations
  written : answer.written = (Publication.stepsFor layout files).map CopyStep.destination
  written' : answer'.written = (Publication.stepsFor layout files').map CopyStep.destination

variable {state : RunState}

theorem publishAlike_of_verdict (linkFree : state.tree.LinkFree)
    (noLinks : setting.runner.LeavesNoLinks) (ready : Ready setting request state.toWork)
    {files files' : List String} (perm : files'.Perm files)
    (complete : (files.map Path.baseName).Perm (OutputRole.all.map OutputRole.fileName))
    (verdict : ready.verdict = .ok (Publication.stepsFor ready.layout files))
    (verdict' : (ready.answeredBy other).verdict
      = .ok (Publication.stepsFor ready.layout files'))
    (contents : (ready.answeredBy other).response.contents = ready.response.contents)
    {answer : Compiled} (answered : (one setting request state).1 = .ok answer) :
    ∃ answer', (one (answeredBy setting other) request state).1 = .ok answer' ∧
      PublishAlike ready.layout files files' answer answer' ∧
      (one (answeredBy setting other) request state).2.tree.Same
        (one setting request state).2.tree := by
  have tagFree := Layout.tag_noSlash ready.named
  have returnedFree := ready.linkFree_returned linkFree noLinks
  obtain ⟨result, left⟩ := (course_one setting request state).of_verdict ready verdict
  obtain ⟨result', left'⟩ := (course_one (answeredBy setting other) request state).of_verdict
    (ready.answeredBy other) verdict'
  have copies : ∀ steps, Work.copyAll (answeredBy setting other) steps
      = Work.copyAll setting steps := fun steps => Work.copyAll_congr rfl
  rw [ready.returned_answeredBy contents, copies] at result' left'
  cases copied : Work.copyAll setting (Publication.stepsFor ready.layout files)
      ready.returned with
  | mk copyResult after =>
      rw [copied] at result left
      cases copyResult with
      | error cause => cases answered.symm.trans result
      | ok written =>
          obtain ⟨after', copied', same⟩ := Work.copyAll_of_perm
            (Publication.stepsFor_perm ready.layout perm)
            (Publication.unmixed_stepsFor tagFree returnedFree complete)
            (Publication.unmixed_stepsFor tagFree returnedFree ((perm.map _).trans complete))
            copied
          rw [copied'] at result' left'
          obtain ⟨rfl, _⟩ := Work.copyAll_notes copied
          cases answered.symm.trans result
          refine ⟨_, result', ⟨rfl, rfl, rfl, rfl, rfl⟩, ?_⟩
          intro place
          have notRoot := ready.scratch_ne_root
          rw [left, left', Work.get?_closed notRoot]
          refine (Work.get?_closed notRoot place).trans ?_
          rw [same place]

theorem publishAlike_of_reordered (linkFree : state.tree.LinkFree)
    (noLinks : setting.runner.LeavesNoLinks) (ready : Ready setting request state.toWork)
    {files files' : List String}
    (reordered : Reordered ready.response (ready.answeredBy other).response files files')
    {answer : Compiled} (answered : (one setting request state).1 = .ok answer) :
    ∃ answer', (one (answeredBy setting other) request state).1 = .ok answer' ∧
      PublishAlike ready.layout files files' answer answer' ∧
      (one (answeredBy setting other) request state).2.tree.Same
        (one setting request state).2.tree := by
  have verdict := ready.verdict_of_listsCleanly reordered.lists
  have verdict' := (ready.answeredBy other).verdict_of_listsCleanly reordered.lists'
  cases planned : Publication.plan ready.layout (some ⟨some files⟩) with
  | error fault =>
      rw [planned] at verdict
      cases answered.symm.trans ((course_one setting request state).of_refusal ready verdict)
  | ok steps =>
      obtain ⟨complete, rfl⟩ := Publication.plan_files_eq_ok_iff.mp planned
      have planned' : Publication.plan ready.layout (some ⟨some files'⟩)
          = .ok (Publication.stepsFor ready.layout files') :=
        Publication.plan_files_eq_ok_iff.mpr ⟨(reordered.perm.map _).trans complete, rfl⟩
      rw [planned] at verdict
      have verdict' : (ready.answeredBy other).verdict
          = .ok (Publication.stepsFor ready.layout files') :=
        verdict'.trans (congrArg _ planned')
      exact publishAlike_of_verdict linkFree noLinks ready reordered.perm complete verdict
        verdict' reordered.contents answered

end

/-- It makes no difference in which order a reply lists its files.  Both orders can be planned
for or neither; no step of a plan goes to where another one comes from; and without links the
compile answers for both orders alike, with what it has written in the order of the list, and
leaves the same files behind. -/
theorem listing_order_irrelevant (setting : Setting) (other : Runner) (request : Request)
    (state : RunState) (linkFree : state.tree.LinkFree)
    (noLinks : setting.runner.LeavesNoLinks) (reorders : Reorders setting.runner other) :
    (∀ layout files files', files'.Perm files → Publication.PlansAlike layout files files') ∧
    (∀ path layout files steps, Layout.ofPath setting.directory path = .ok layout →
      Publication.plan layout (some ⟨some files⟩) = .ok steps →
        ∀ step ∈ steps, ∀ further ∈ steps, step ≠ further →
          setting.directory.resolve step.source
            ≠ setting.directory.resolve further.destination) ∧
    ∀ answer, (one setting request state).1 = .ok answer →
      ∃ (ready : Ready setting request state.toWork) (files files' : List String)
        (answer' : Compiled),
        Reordered ready.response (other.respond (state.calls ++ [ready.call])) files files' ∧
        (one (answeredBy setting other) request state).1 = .ok answer' ∧
        PublishAlike ready.layout files files' answer answer' ∧
        (one (answeredBy setting other) request state).2.tree.Same
          (one setting request state).2.tree := by
  refine ⟨fun layout files files' perm => Publication.plansAlike_of_perm layout perm, ?_, ?_⟩
  · intro path layout files steps named planned step member further furtherMember differ
    exact Publication.source_ne_destination (Layout.tag_noSlash named) planned member
      furtherMember differ
  · intro answer answered
    have course := course_one setting request state
    rw [answered] at course
    obtain ⟨ready, steps, verdict⟩ := course.verdict_of_answer
    obtain ⟨files, files', reordered⟩ := ready.reordered_of_verdict reorders verdict
    obtain ⟨answer', answered', alike, same⟩ :=
      publishAlike_of_reordered linkFree noLinks ready reordered answered
    exact ⟨ready, files, files', answer', reordered, answered', alike, same⟩

namespace Sample

def listed : List String :=
  ["/t/compile-car-0/partial.plist", "/t/compile-car-0/AppIcon.icns", "/t/compile-car-0/Assets.car"]

def reversedOutcome : ProcessOutcome where
  exitCode := 0
  output := Text.Utf8.encode ("<plist><dict><key>com.apple.actool.compilation-results</key>"
    ++ "<dict><key>output-files</key><array><string>/t/compile-car-0/Assets.car</string>"
    ++ "<string>/t/compile-car-0/AppIcon.icns</string>"
    ++ "<string>/t/compile-car-0/partial.plist</string></array></dict></dict></plist>")
  errorOutput := ""

def reversing : Runner := ⟨"xcrun", fun _ => ⟨.ok reversedOutcome, some bothOutputs⟩⟩

theorem listsCleanly_of_found {outcome : ProcessOutcome} {contents : Option FileTree}
    {files : List String} (found : ((readReply outcome).toOption.filter fun reply =>
      (Report.ofReply? reply).isNone).bind Reply.results = some ⟨some files⟩) :
    ListsCleanly ⟨.ok outcome, contents⟩ files := by
  cases read : readReply outcome with
  | error cause =>
      rw [read] at found
      cases found
  | ok reply =>
      rw [read] at found
      obtain ⟨other, there, results⟩ := Option.bind_eq_some_iff.mp found
      obtain ⟨same, quiet⟩ := Option.filter_eq_some_iff.mp there
      cases same
      exact ⟨outcome, reply, rfl, read, Option.isNone_iff_eq_none.mp quiet, results⟩

theorem reverses : Reorders (setting bothOutputs).runner reversing := by
  intro calls
  refine Or.inr ⟨listed, listed.reverse, ?_, ?_, List.reverse_perm listed, rfl⟩
  · exact listsCleanly_of_found (by decide +kernel)
  · exact listsCleanly_of_found (by decide +kernel)

theorem plain_listing_order : (tree plain).LinkFree ∧
    (setting bothOutputs).runner.LeavesNoLinks ∧
    Reorders (setting bothOutputs).runner reversing ∧
    ∃ answer', (one (answeredBy (setting bothOutputs) reversing) request
      (RunState.start (tree plain))).1 = .ok answer' := by
  obtain ⟨answer, answered⟩ := plain_answered
  obtain ⟨_, _, alike⟩ := listing_order_irrelevant (setting bothOutputs) reversing request
    (RunState.start (tree plain)) plain_linkFree bothOutputs_noLinks reverses
  obtain ⟨_, _, _, answer', _, answered', _⟩ := alike answer answered
  exact ⟨plain_linkFree, bothOutputs_noLinks, reverses, answer', answered'⟩

end Sample

end Compile

end AssetCatalog
