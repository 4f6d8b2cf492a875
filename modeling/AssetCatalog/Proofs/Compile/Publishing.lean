import AssetCatalog.Proofs.Compile.Returned
/-! # Only clean compiles are published

A copy beside the catalog is begun exactly when the compiler has been called and has left a
clean outcome behind.  When both copies of such a compile succeed, it answers with the two
destinations, and these hold what the listed files held when the compiler returned.

The last point needs that the two copies do not get in each other's way and that nothing is
copied into the scratch directory (`Apart`).  Only links can spoil that: a link at one of the
destinations can lead to the other one, to a listed file or into the scratch directory. -/

set_option autoImplicit false

namespace AssetCatalog

/-- The steps write to different places, to no file that a later one reads, and outside of the
scratch directory. -/
structure Apart (tree : FileTree) (directory scratch : Place) (steps : List CopyStep) : Prop where
  outside : ∀ step ∈ steps, ∀ place, tree.Receives directory step.destination place →
    scratch.isWithin place = false
  unmixed : Work.Unmixed tree directory steps

namespace Publication

theorem exists_step {layout : Layout} {files : List String} {role : OutputRole}
    {destination : Place}
    (perm : (files.map Path.baseName).Perm (OutputRole.all.map OutputRole.fileName))
    (goes : role.destination? layout = some destination) :
    ∃ file ∈ files, Path.baseName file = role.fileName ∧
      ⟨role, file, destination.text⟩ ∈ stepsFor layout files := by
  have name : role.fileName ∈ files.map Path.baseName :=
    perm.mem_iff.mpr (List.mem_map_of_mem role.mem_all)
  obtain ⟨file, listed, base⟩ := List.mem_map.mp name
  refine ⟨file, listed, base, ?_⟩
  refine List.mem_filterMap.mpr ⟨file, listed, ?_⟩
  rw [roleOf?_eq_some_iff.mpr base, Option.bind_some, stepFor, goes, Option.map_some]

theorem length_stepsFor {layout : Layout} {files : List String}
    (perm : (files.map Path.baseName).Perm (OutputRole.all.map OutputRole.fileName)) :
    (stepsFor layout files).length = 2 := by
  obtain ⟨icon, archive, _, _, steps | steps⟩ := @pair_of_perm layout files perm
  · rw [steps]
    rfl
  · rw [steps]
    rfl

section

variable {layout : Layout} {files : List String} (tagFree : '/' ∉ layout.tag.toList)
include tagFree

/-- The endings of the two file names tell the source of one step from where the other goes. -/
theorem resolve_ne_assetArchive {directory : Place} {file : String}
    (base : Path.baseName file = OutputRole.iconBundle.fileName) :
    directory.resolve file ≠ layout.assetArchive := by
  obtain ⟨before, names⟩ := @Place.names_resolve_of_baseName directory _ _ base (by decide)
  exact Place.ne_of_endings names (Layout.names_assetArchive tagFree)
    (List.suffix_refl _) (Layout.suffix_childName _ _ _) (by decide)

theorem resolve_ne_iconBundle {directory : Place} {file : String}
    (base : Path.baseName file = OutputRole.assetArchive.fileName) :
    directory.resolve file ≠ layout.iconBundle := by
  obtain ⟨before, names⟩ := @Place.names_resolve_of_baseName directory _ _ base (by decide)
  exact Place.ne_of_endings names (Layout.names_iconBundle tagFree)
    (List.suffix_refl _) (Layout.suffix_childName _ _ _) (by decide)

/-- Without links the copies of a plan do not get in each other's way. -/
theorem unmixed_stepsFor {tree : FileTree} {directory : Place} (linkFree : tree.LinkFree)
    (perm : (files.map Path.baseName).Perm (OutputRole.all.map OutputRole.fileName)) :
    Work.Unmixed tree directory (stepsFor layout files) := by
  have apart := Layout.iconBundle_ne_assetArchive tagFree tagFree
  obtain ⟨icon, archive, ⟨_, iconBase⟩, ⟨_, archiveBase⟩, steps | steps⟩ :=
    @pair_of_perm layout files perm
  · rw [steps]
    refine Work.unmixed_pair linkFree rfl rfl apart fun spot located => ?_
    rw [linkFree.place_of_locate located]
    exact resolve_ne_iconBundle tagFree archiveBase
  · rw [steps]
    refine Work.unmixed_pair linkFree rfl rfl apart.symm fun spot located => ?_
    rw [linkFree.place_of_locate located]
    exact resolve_ne_assetArchive tagFree iconBase

end

end Publication

namespace Compile

namespace Ready

variable {setting : Setting} {request : Request} {work : Work}

/-- The compiler has left a clean outcome behind that lists these files. -/
def Lists (ready : Ready setting request work) (files : List String) : Prop :=
  ∃ outcome entries, ready.response.outcome = .ok outcome ∧ Clean outcome entries files

/-- The listed file with this role had this content when the compiler returned. -/
def Reports (ready : Ready setting request work) (files : List String) (role : OutputRole)
    (content : String) : Prop :=
  ∃ file ∈ files, Path.baseName file = role.fileName ∧ ∃ source,
    ready.returned.tree.locate .use setting.directory file = .ok (.file source content)

theorem verdict_eq_ok_iff {ready : Ready setting request work} {steps : List CopyStep} :
    ready.verdict = .ok steps ↔ ∃ files, ready.Lists files ∧
      steps = Publication.stepsFor ready.layout files := by
  unfold verdict Lists
  cases ready.response.outcome with
  | error message => simp
  | ok outcome =>
      dsimp only
      rw [judge_eq_ok_iff]
      constructor
      · rintro ⟨entries, files, clean, rfl⟩
        exact ⟨files, ⟨outcome, entries, rfl, clean⟩, rfl⟩
      · rintro ⟨files, ⟨_, entries, same, clean⟩, rfl⟩
        cases same
        exact ⟨entries, files, clean, rfl⟩

theorem Lists.complete {ready : Ready setting request work} {files : List String}
    (lists : ready.Lists files) :
    (files.map Path.baseName).Perm (OutputRole.all.map OutputRole.fileName) := by
  obtain ⟨outcome, entries, _, clean⟩ := lists
  exact clean.complete

/-! ## Without links -/

section

variable {ready : Ready setting request work} {files : List String}
  (lists : ready.Lists files) (grounded : work.tree.Grounded) (linkFree : work.tree.LinkFree)
  (noLinks : setting.runner.LeavesNoLinks)
include linkFree noLinks

include lists

theorem unmixed : Work.Unmixed ready.returned.tree setting.directory
    (Publication.stepsFor ready.layout files) :=
  Publication.unmixed_stepsFor (Layout.tag_noSlash ready.named)
    (ready.linkFree_returned linkFree noLinks) lists.complete

include grounded

theorem apart_of_linkFree : Apart ready.returned.tree setting.directory ready.scratch
    (Publication.stepsFor ready.layout files) := by
  refine ⟨?_, unmixed lists linkFree noLinks⟩
  intro step member place received
  obtain ⟨destination, goes, text⟩ := Publication.destination_of_mem member
  rw [text] at received
  have same := (ready.linkFree_returned linkFree noLinks).eq_of_receives received
  rw [same] at received ⊢
  exact ready.outside_of_takesFile linkFree grounded
    (Publication.parent_of_destination? (Layout.tag_noSlash ready.named) goes) received.takesFile

end

end Ready

/-! ## Attempts -/

section

variable {setting : Setting} {request : Request}

theorem attempts_of_copyAll {steps : List CopyStep} (some : steps ≠ []) (work : Work) :
    work.attempts.length < (Work.copyAll setting steps work).2.attempts.length := by
  cases copied : Work.copyAll setting steps work with
  | mk result after =>
      cases result with
      | ok written =>
          have attempts := congrArg List.length (Work.copyAll_notes copied).2.2.1
          have positive : 0 < steps.length := List.length_pos_iff.mpr some
          simp only [List.length_append, List.length_map] at attempts
          dsimp only
          omega
      | error cause =>
          obtain ⟨done, failing, rest, middle, _, before, fails, _⟩ := Work.copyAll_error copied
          have earlier := congrArg List.length (Work.copyAll_notes before).2.2.1
          have last := congrArg List.length (Work.copy_notes setting failing middle).1
          rw [fails] at last
          simp only [List.length_append, List.length_map, List.length_singleton] at earlier last
          dsimp only
          omega

theorem Course.attempts_of_unclean {work after : Work} {result : Except Cause Compiled}
    (course : Course setting request work result after)
    (unclean : ¬ ∃ (ready : Ready setting request work) (files : List String),
      ready.Lists files) : after.attempts = work.attempts := by
  cases course with
  | turnedAway _ => rfl
  | unstaged _ _ => rfl
  | refused _ _ => rfl
  | stopped ready verdict _ =>
      obtain ⟨files, lists, _⟩ := Ready.verdict_eq_ok_iff.mp verdict
      exact absurd ⟨ready, files, lists⟩ unclean
  | published ready verdict _ =>
      obtain ⟨files, lists, _⟩ := Ready.verdict_eq_ok_iff.mp verdict
      exact absurd ⟨ready, files, lists⟩ unclean

/-- A copy is begun in the compile of a catalog exactly when its outcome is clean. -/
theorem attempts_iff {work after : Work} {result : Except Cause Compiled}
    (course : Course setting request work result after) :
    after.attempts ≠ work.attempts ↔
      ∃ (ready : Ready setting request work) (files : List String), ready.Lists files := by
  constructor
  · intro changed
    by_contra unclean
    exact changed (course.attempts_of_unclean unclean)
  · rintro ⟨ready, files, lists⟩ same
    obtain ⟨_, rfl⟩ :=
      course.of_verdict ready (Ready.verdict_eq_ok_iff.mpr ⟨files, lists, rfl⟩)
    have some : Publication.stepsFor ready.layout files ≠ [] := by
      intro empty
      have two := @Publication.length_stepsFor ready.layout files lists.complete
      rw [empty] at two
      cases two
    have more := @attempts_of_copyAll setting _ some ready.returned
    exact absurd (congrArg List.length same) (Nat.ne_of_gt more)

/-! ## Published outputs -/

theorem Course.copied_of_answer {work after : Work} {answer : Compiled}
    (course : Course setting request work (.ok answer) after)
    (ready : Ready setting request work) {files : List String} (lists : ready.Lists files) :
    ∃ copied, Work.copyAll setting (Publication.stepsFor ready.layout files) ready.returned
        = (.ok ((Publication.stepsFor ready.layout files).map CopyStep.destination), copied) ∧
      answer = compiled ready.layout
        ((Publication.stepsFor ready.layout files).map CopyStep.destination) ∧
      after = copied.closed ready.scratch := by
  obtain ⟨result, left⟩ :=
    course.of_verdict ready (Ready.verdict_eq_ok_iff.mpr ⟨files, lists, rfl⟩)
  cases copies : Work.copyAll setting (Publication.stepsFor ready.layout files)
      ready.returned with
  | mk copyResult copied =>
      rw [copies] at result left
      cases copyResult with
      | error cause => cases result
      | ok written =>
          obtain ⟨rfl, _⟩ := Work.copyAll_notes copies
          exact ⟨copied, rfl, Except.ok.inj result, left⟩

/-- When both copies have succeeded, the compile has answered. -/
theorem Course.answered_of_written {work after : Work} {result : Except Cause Compiled}
    (course : Course setting request work result after) (ready : Ready setting request work)
    {files : List String} (lists : ready.Lists files)
    (both : after.written.length = work.written.length + 2) : ∃ answer, result = .ok answer := by
  obtain ⟨answer, left⟩ :=
    course.of_verdict ready (Ready.verdict_eq_ok_iff.mpr ⟨files, lists, rfl⟩)
  cases copies : Work.copyAll setting (Publication.stepsFor ready.layout files)
      ready.returned with
  | mk copyResult copied =>
      rw [copies] at answer left
      cases copyResult with
      | ok written => exact ⟨_, answer⟩
      | error cause =>
          obtain ⟨done, failing, rest, middle, split, _, _, written⟩ := Work.copyAll_error copies
          have counts := congrArg List.length split
          have notes := congrArg List.length written
          have start : ready.returned.written = work.written := rfl
          have kept : (copied.closed ready.scratch).written = copied.written := rfl
          rw [Publication.length_stepsFor lists.complete] at counts
          rw [left, kept] at both
          simp only [List.length_append, List.length_cons, List.length_map, start]
            at counts notes
          omega

theorem delivered_of_apart {work copied : Work} {ready : Ready setting request work}
    {files : List String} (lists : ready.Lists files)
    (copies : Work.copyAll setting (Publication.stepsFor ready.layout files) ready.returned
      = (.ok ((Publication.stepsFor ready.layout files).map CopyStep.destination), copied))
    (apart : Apart ready.returned.tree setting.directory ready.scratch
      (Publication.stepsFor ready.layout files))
    {role : OutputRole} {destination : Place}
    (goes : role.destination? ready.layout = some destination) :
    ∃ content place, ready.Reports files role content ∧
      ready.returned.tree.Receives setting.directory destination.text place ∧
        (copied.closed ready.scratch).tree.get? place = some (.file content) := by
  obtain ⟨file, listed, base, member⟩ := Publication.exists_step lists.complete goes
  obtain ⟨source, place, content, read, received, lies⟩ :=
    Work.copyAll_delivers copies apart.unmixed _ member
  refine ⟨content, place, ⟨file, listed, base, source, read⟩, received, ?_⟩
  rw [Work.get?_closed ready.scratch_ne_root, apart.outside _ member place received, lies]
  rfl

theorem outcome_of_written {work after : Work} {result : Except Cause Compiled}
    (course : Course setting request work result after) (ready : Ready setting request work)
    {files : List String} (lists : ready.Lists files)
    (both : after.written.length = work.written.length + 2) :
    result = .ok (compiled ready.layout
        ((Publication.stepsFor ready.layout files).map CopyStep.destination)) ∧
      after.written = work.written
        ++ (Publication.stepsFor ready.layout files).map CopyStep.destination ∧
      (Apart ready.returned.tree setting.directory ready.scratch
          (Publication.stepsFor ready.layout files) →
        ∀ role destination, role.destination? ready.layout = some destination →
          ∃ content place, ready.Reports files role content ∧
            ready.returned.tree.Receives setting.directory destination.text place ∧
              after.tree.get? place = some (.file content)) ∧
      (work.tree.Grounded → work.tree.LinkFree → setting.runner.LeavesNoLinks →
        ∀ role destination, role.destination? ready.layout = some destination →
          ∃ content, ready.Reports files role content ∧
            after.tree.get? destination = some (.file content)) := by
  obtain ⟨answer, rfl⟩ := course.answered_of_written ready lists both
  obtain ⟨copied, copies, rfl, rfl⟩ := course.copied_of_answer ready lists
  refine ⟨rfl, (Work.copyAll_notes copies).2.1, ?_, ?_⟩
  · intro apart role destination goes
    exact delivered_of_apart lists copies apart goes
  · intro grounded linkFree noLinks role destination goes
    obtain ⟨content, place, reports, received, lies⟩ := delivered_of_apart lists copies
      (Ready.apart_of_linkFree lists grounded linkFree noLinks) goes
    have same := (ready.linkFree_returned linkFree noLinks).eq_of_receives received
    rw [same] at lies
    exact ⟨content, reports, lies⟩

/-- Only clean compiles are published, and what they publish is what the compiler reported. -/
theorem publishes_clean_compiles (setting : Setting) (request : Request) (state : RunState) :
    ((one setting request state).2.attempts ≠ state.attempts ↔
      ∃ (ready : Ready setting request state.toWork) (files : List String), ready.Lists files) ∧
    ∀ (ready : Ready setting request state.toWork) (files : List String), ready.Lists files →
      (one setting request state).2.written.length = state.written.length + 2 →
        (one setting request state).1 = .ok (compiled ready.layout
          ((Publication.stepsFor ready.layout files).map CopyStep.destination)) ∧
        (one setting request state).2.written = state.written
          ++ (Publication.stepsFor ready.layout files).map CopyStep.destination ∧
        (Apart ready.returned.tree setting.directory ready.scratch
            (Publication.stepsFor ready.layout files) →
          ∀ role destination, role.destination? ready.layout = some destination →
            ∃ content place, ready.Reports files role content ∧
              ready.returned.tree.Receives setting.directory destination.text place ∧
                (one setting request state).2.tree.get? place = some (.file content)) ∧
        (state.tree.Grounded → state.tree.LinkFree → setting.runner.LeavesNoLinks →
          ∀ role destination, role.destination? ready.layout = some destination →
            ∃ content, ready.Reports files role content ∧
              (one setting request state).2.tree.get? destination = some (.file content)) := by
  have course := course_one setting request state
  refine ⟨attempts_iff course, ?_⟩
  intro ready files lists both
  exact outcome_of_written course ready lists both

end

/-! ## A clean compile with links

Both destinations are links to one file, so the outputs end up on top of each other. -/

namespace Sample

def place (text : String) : Place := Place.root.resolve text

/-- The compiler lists three files in its scratch directory and has nothing to say. -/
def outcome : ProcessOutcome where
  exitCode := 0
  output := Text.Utf8.encode ("<plist><dict><key>com.apple.actool.compilation-results</key>"
    ++ "<dict><key>output-files</key><array><string>/t/compile-car-0/partial.plist</string>"
    ++ "<string>/t/compile-car-0/AppIcon.icns</string>"
    ++ "<string>/t/compile-car-0/Assets.car</string></array></dict></dict></plist>")
  errorOutput := ""

def setting (contents : FileTree) : Setting where
  directory := place "/w"
  temporary := place "/t"
  suffix n := toString n
  runner := ⟨"xcrun", fun _ => ⟨.ok outcome, some contents⟩⟩
  handlers := []

def request : Request := ⟨"Assets.xcassets", "12.0", false⟩

def layout : Layout := ⟨place "/w/Assets.xcassets", place "/w", "Assets", ""⟩

def scratch : Place := place "/t/compile-car-0"

def steps : List CopyStep :=
  [⟨.iconBundle, "/t/compile-car-0/AppIcon.icns", "/w/app.icns"⟩,
    ⟨.assetArchive, "/t/compile-car-0/Assets.car", "/w/Assets.car"⟩]

def bothOutputs : FileTree :=
  ⟨[(place "/AppIcon.icns", .file "I"), (place "/Assets.car", .file "C")]⟩

def tree (others : List (Place × Entry)) : FileTree :=
  ⟨[(place "/w", .directory), (place "/t", .directory),
    (place "/w/AppIcon.icon", .directory)] ++ others⟩

def stagedTree (others : List (Place × Entry)) : FileTree :=
  (((tree others).put scratch .directory).put (scratch.enter stagedName) .directory).graft
    (scratch.enter stagedName) ⟨[]⟩

def linked : List (Place × Entry) :=
  [(place "/w/app.icns", .link "shared"), (place "/w/Assets.car", .link "shared"),
    (place "/w/shared", .file "old")]

theorem eq_ok_of_toOption {ε α : Type} {result : Except ε α} {value : α}
    (found : result.toOption = some value) : result = .ok value := by
  cases result with
  | error fault => cases found
  | ok other =>
      cases found
      rfl

theorem named (contents : FileTree) :
    Layout.ofPath (setting contents).directory request.catalog = .ok layout := by
  have found : (Layout.ofPath (place "/w") "Assets.xcassets").toOption = some layout := by
    decide +kernel
  exact eq_ok_of_toOption found

theorem judged : judge layout outcome = .ok steps := eq_ok_of_toOption (by decide +kernel)

def ready (contents : FileTree) (others : List (Place × Entry))
    (packageThere : (tree others).isOccupied Place.root layout.iconPackage.text = true)
    (opened : ((setting contents).scratchPlace scratchBeginning (tree others) 0).toOption
      = some scratch)
    (packed : (((Work.start (tree others)).opened scratch).tree.stage layout.iconPackage
      (scratch.enter stagedName)).toOption = some (stagedTree others)) :
    Ready (setting contents) request (Work.start (tree others)) where
  layout := layout
  scratch := scratch
  staged := stagedTree others
  named := named contents
  packageThere := packageThere
  opened := eq_ok_of_toOption opened
  packed := eq_ok_of_toOption packed

def linkedReady : Ready (setting bothOutputs) request (Work.start (tree linked)) :=
  ready bothOutputs linked (by decide +kernel) (by decide +kernel) (by decide +kernel)

theorem linked_verdict : linkedReady.verdict = .ok steps := judged

theorem linked_work : (one (setting bothOutputs) request (RunState.start (tree linked))).2.toWork
    = (Work.copyAll (setting bothOutputs) steps linkedReady.returned).2.closed scratch :=
  ((course_one (setting bothOutputs) request
    (RunState.start (tree linked))).of_verdict linkedReady linked_verdict).2

/-- The icon bundle has the place of the asset archive in the end: what was reported for it is
nowhere beside the catalog, although both copies have succeeded. -/
theorem linked_outputs_collide : ∃ files, linkedReady.Lists files ∧
    linkedReady.Reports files .iconBundle "I" ∧
    (one (setting bothOutputs) request (RunState.start (tree linked))).2.written
      = ["/w/app.icns", "/w/Assets.car"] ∧
    (one (setting bothOutputs) request (RunState.start (tree linked))).2.tree.locate .use
      (place "/w") layout.iconBundle.text = .ok (.file (place "/w/shared") "C") := by
  obtain ⟨files, lists, made⟩ := Ready.verdict_eq_ok_iff.mp linked_verdict
  have member : (⟨.iconBundle, "/t/compile-car-0/AppIcon.icns", "/w/app.icns"⟩ : CopyStep)
      ∈ Publication.stepsFor linkedReady.layout files := by
    rw [← made]
    exact List.mem_cons_self
  obtain ⟨listed, base, _⟩ := Publication.of_mem_stepsFor member
  have read : (linkedReady.returned.tree.locate .use (setting bothOutputs).directory
      "/t/compile-car-0/AppIcon.icns").toOption
        = some (.file (place "/t/compile-car-0/AppIcon.icns") "I") := by decide +kernel
  refine ⟨files, lists, ⟨_, listed, base, _, eq_ok_of_toOption read⟩, ?_, ?_⟩
  · rw [linked_work]
    decide +kernel
  · rw [linked_work]
    exact eq_ok_of_toOption (by decide +kernel)

end Sample

end Compile

end AssetCatalog
