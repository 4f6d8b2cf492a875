import AssetCatalog.Proofs.Compile.Directories
import AssetCatalog.Proofs.FileTree.Staged
/-! # What the compiler finds

Whenever the compiler is called in a batch, its scratch directory is a new one, and there is
nothing in it but the copy of the icon package of the catalog.  Scratch directories of other
calls are not there, so whatever an earlier call has left behind is gone.

The names of scratch directories are assumed to differ (`Setting.NamesApart`).  Nothing is
assumed of the compiler, which may leave links and anything else in its scratch directory. -/

set_option autoImplicit false

namespace AssetCatalog

/-- The next so many scratch directories get different names, which are no paths. -/
structure Setting.NamesApart (setting : Setting) (first count : Nat) : Prop where
  plain : ∀ n, n < count → '/' ∉ (setting.suffix (first + n)).toList
  different : ∀ m n, m < n → n < count → setting.suffix (first + m) ≠ setting.suffix (first + n)

namespace FileTree

variable {tree : FileTree}

theorem reached_of_locate_free {purpose : Purpose} {path : String} {place : Place}
    (located : tree.locate purpose Place.root path = .ok (.free place)) :
    tree.Reached (.free place) := by
  have walk := (locate_eq_ok_iff.mp located).2.2
  have start : startOf Place.root path = Place.root := by
    unfold startOf
    split <;> rfl
  rw [start] at walk
  exact walk.reached (paved_root tree)

/-- A free place has the last segment of its path as its name. -/
theorem name_of_ownPlace (grounded : tree.Grounded) {path last : String} {front : List String}
    {place : Place} (segments : Path.segments path = front ++ [last])
    (own : tree.ownPlace Place.root path = some place) (free : tree.get? place = none) :
    place.name = last := by
  have start : tree.get? (startOf Place.root path) = some .directory := by
    unfold startOf
    split <;> exact get?_root tree
  simp only [ownPlace, segments, List.dropLast_concat, List.getLast?_concat,
    Option.getD_some] at own
  split at own
  · next directory followed =>
    have there := (walk_of_follow followed).get?_directory grounded start
    cases own
    by_cases ordinary : Ordinary last
    · exact Place.name_enter ordinary
    · unfold Place.enter at free
      split at free
      · rw [grounded _ _ there] at free
        cases free
      · rw [there] at free
        cases free
  · cases own

end FileTree

namespace Compile

theorem name_of_scratchPlace {setting : Setting} {tree : FileTree} {scratches : Nat}
    {scratch : Place} (grounded : tree.Grounded)
    (opened : setting.scratchPlace scratchBeginning tree scratches = .ok scratch)
    {front : List String} {last : String}
    (stem : Path.segments setting.scratchStem = front ++ [last])
    (plain : '/' ∉ (setting.suffix scratches).toList) :
    scratch.name = last ++ setting.suffix scratches := by
  obtain ⟨front', last', stem', whole⟩ := Path.segments_append setting.scratchStem plain
  obtain ⟨_, same⟩ := List.append_inj' (stem.symm.trans stem') rfl
  rw [List.singleton_inj.mp same]
  exact FileTree.name_of_ownPlace grounded whole (located_of_scratchPlace opened).2
    (free_of_scratchPlace opened)

/-! ## One call -/

namespace Ready

variable {setting : Setting} {request : Request} {work : Work}
  (ready : Ready setting request work) (grounded : work.tree.Grounded)

theorem reached_scratch : work.tree.Reached (.free ready.scratch) :=
  FileTree.reached_of_locate_free (located_of_scratchPlace ready.opened).1

theorem get?_opened (place : Place) : (work.opened ready.scratch).tree.get? place
    = if place = ready.scratch then some .directory else work.tree.get? place :=
  FileTree.get?_put _ _ _ _ ready.scratch_ne_root

theorem kept_of_opened {place : Place} {entry : Entry}
    (found : work.tree.get? place = some entry) :
    (work.opened ready.scratch).tree.get? place = some entry := by
  have differ : place ≠ ready.scratch := by
    rintro rfl
    rw [ready.scratch_free] at found
    cases found
  rw [ready.get?_opened, if_neg differ, found]

theorem reached_staged : (work.opened ready.scratch).tree.Reached
    (.free (ready.scratch.enter stagedName)) := by
  obtain ⟨above, notRoot, short⟩ := ready.reached_scratch
  have found : (work.opened ready.scratch).tree.get? ready.scratch = some .directory := by
    rw [ready.get?_opened, if_pos rfl]
  refine ⟨?_, ready.staged_ne_root, ?_⟩
  · rw [Place.parent_enter stagedName_ordinary]
    exact FileTree.paved_of_parent (above.extend fun _ _ => ready.kept_of_opened)
      notRoot short found
  · rw [Place.name_enter stagedName_ordinary]
    decide +kernel

include grounded

theorem grounded_opened : (work.opened ready.scratch).tree.Grounded := by
  intro place entry found
  rw [ready.get?_opened] at found
  apply ready.kept_of_opened
  split at found
  · next same =>
    rw [same]
    exact ready.reached_scratch.1.get?
  · exact grounded place entry found

theorem get?_opened_within {place : Place} (within : ready.scratch.isWithin place = true)
    (differ : place ≠ ready.scratch) : (work.opened ready.scratch).tree.get? place = none := by
  rw [ready.get?_opened, if_neg differ, ready.get?_of_within grounded within]

theorem staged_free :
    (work.opened ready.scratch).tree.get? (ready.scratch.enter stagedName) = none := by
  apply ready.get?_opened_within grounded ready.staged_within
  intro same
  have names : (ready.scratch.enter stagedName).names = ready.scratch.names ++ [stagedName] :=
    Place.enter_of_ordinary stagedName_ordinary
  rw [same] at names
  simp at names

theorem alone {name : String} (ordinary : Ordinary name) :
    ready.staged.get? (ready.scratch.enter name) ≠ none ↔ name = stagedName := by
  constructor
  · intro there
    refine Decidable.byContradiction fun differ => there ?_
    have names : (ready.scratch.enter name).names = ready.scratch.names ++ [name] :=
      Place.enter_of_ordinary ordinary
    have outside : (ready.scratch.enter stagedName).isWithin (ready.scratch.enter name)
        = false := by
      rw [Bool.eq_false_iff]
      intro within
      obtain ⟨rest, same⟩ := Place.isWithin_iff.mp within
      rw [names, Place.enter_of_ordinary stagedName_ordinary, List.append_assoc] at same
      have heads := List.append_cancel_left same
      exact differ (List.cons.inj heads).1
    rw [FileTree.get?_stage ready.packed ready.staged_ne_root outside]
    apply ready.get?_opened_within grounded (Place.isWithin_enter ordinary)
    intro same
    rw [same] at names
    simp at names
  · rintro rfl
    obtain ⟨spot, located, there⟩ := FileTree.located_of_stage ready.packed
    cases spot with
    | free place => exact absurd rfl (there place)
    | file place content =>
        simp [FileTree.get?_of_stage_file ready.packed ready.staged_ne_root located]
    | directory place =>
        simp [(FileTree.get?_of_stage_directory ready.packed ready.staged_ne_root located).1]

omit grounded in
theorem whole_opened {rest : Place} (whole : work.tree.Whole ready.layout.iconPackage
      (ready.scratch.enter stagedName) rest) :
    (work.opened ready.scratch).tree.Whole ready.layout.iconPackage
      (ready.scratch.enter stagedName) rest := by
  have kept : ∀ place entry, work.tree.get? place = some entry →
      (work.opened ready.scratch).tree.get? place = some entry := fun _ _ => ready.kept_of_opened
  obtain ⟨spot, located, there⟩ := FileTree.isOccupied_iff.mp ready.packageThere
  intro source locatedOpened
  rw [FileTree.locate_extend kept located there] at locatedOpened
  cases locatedOpened
  obtain ⟨outside, unbroken⟩ := whole source located
  refine ⟨outside, ?_⟩
  intro front target within link
  rw [ready.get?_opened] at link
  split at link
  · cases link
  · obtain ⟨spot, leads, there⟩ := FileTree.isOccupied_iff.mp (unbroken front target within link)
    exact FileTree.isOccupied_iff.mpr ⟨spot, FileTree.locate_extend kept leads there, there⟩

/-- A directory that is not there, but could be, has no part in what the compiler finds. -/
theorem get?_staged_of_other {other place : Place} (differ : other ≠ ready.scratch)
    (absent : work.tree.get? other ≠ some .directory)
    (above : work.tree.get? other.parent = some .directory)
    (within : other.isWithin place = true) : ready.staged.get? place = work.tree.get? place := by
  apply ready.get?_staged
  rw [Bool.eq_false_iff]
  intro inside
  rcases Place.isWithin_total inside within with below | below
  · rw [ready.get?_of_within grounded (Place.isWithin_parent below differ)] at above
    cases above
  · have parent := Place.isWithin_parent below (Ne.symm differ)
    exact absent (grounded.get?_above parent ready.reached_scratch.1.get?)

end Ready

/-- What the compiler finds when it is called: in its scratch directory there is the copy of the
icon package as it is now and nothing else, no other scratch directory is there, and everything
else is as it was before the compile. -/
structure Isolated (before : FileTree) (scratches : List Place) (layout : Layout) (scratch : Place)
    (call : Call) : Prop where
  made : call.tree.get? scratch = some .directory
  alone : ∀ name, Ordinary name →
    (call.tree.get? (scratch.enter name) ≠ none ↔ name = stagedName)
  current : ∀ rest sight, before.Whole layout.iconPackage (scratch.enter stagedName) rest →
    (call.tree.Shows (layout.iconPackage.append rest) sight
      ↔ call.tree.Shows ((scratch.enter stagedName).append rest) sight)
  others : ∀ other ∈ scratches, other ≠ scratch → call.tree.get? other ≠ some .directory ∧
    ∀ place, other.isBelow place = true → call.tree.get? place = none
  beside : ∀ place, scratch.isWithin place = false → call.tree.get? place = before.get? place

theorem Ready.isolated {setting : Setting} {request : Request} {work : Work}
    (ready : Ready setting request work) (grounded : work.tree.Grounded) {scratches : List Place}
    (places : ∀ other ∈ scratches, work.tree.get? other ≠ some .directory ∧
      work.tree.get? other.parent = some .directory) :
    Isolated work.tree scratches ready.layout ready.scratch ready.call := by
  refine ⟨ready.get?_staged_scratch, fun _ => ready.alone grounded, ?_, ?_,
    fun _ => ready.get?_staged⟩
  · intro rest sight whole
    exact FileTree.shows_stage_iff ready.packed (ready.grounded_opened grounded)
      (ready.staged_free grounded) ready.reached_staged (ready.whole_opened whole)
  · intro other member differ
    obtain ⟨absent, above⟩ := places other member
    have same : ∀ place, other.isWithin place = true →
        ready.staged.get? place = work.tree.get? place :=
      fun _ => ready.get?_staged_of_other grounded differ absent above
    constructor
    · have atOther := same other (Place.isWithin_self other)
      rw [← atOther] at absent
      exact absent
    · intro place below
      have within : other.isWithin place = true := by
        simp only [Place.isBelow, Bool.and_eq_true] at below
        exact below.1
      have atPlace := same place within
      rw [grounded.get?_of_isBelow absent below] at atPlace
      exact atPlace

/-! ## The calls of a batch -/

section

variable {setting : Setting} {target : String} {verbose : Bool} {catalogs : List String}
  {state : RunState}

theorem scratches_of_answers {m : Nat} (answered : ∀ i, i < m →
      ∃ answer, Answers setting target verbose catalogs state i answer) :
    (after setting target verbose (catalogs.take m) state).scratches = state.scratches + m := by
  induction m with
  | zero => rfl
  | succ m ih =>
      obtain ⟨answer, catalog, there, ok⟩ := answered m (Nat.lt_succ_self m)
      have course := course_one setting ⟨catalog, target, verbose⟩
        (after setting target verbose (catalogs.take m) state)
      have made := course.calls.1
      rw [ok] at course
      obtain ⟨ready, _⟩ := course.answered
      have before := ih fun i below => answered i (Nat.lt_succ_of_lt below)
      have count := (made ready).2
      rw [before] at count
      rw [after_take_succ there, count, Nat.add_assoc]

/-- A scratch directory has the number of its catalog in its name, and it is there at no time
between two compiles, while the directory that it is made in always is. -/
theorem Ready.scratch_in_batch (grounded : state.tree.Grounded)
    (apart : setting.NamesApart state.scratches catalogs.length) {front : List String}
    {last : String} (stem : Path.segments setting.scratchStem = front ++ [last]) {i : Nat}
    (earlier : ∀ j, j < i → ∃ answer, Answers setting target verbose catalogs state j answer)
    {catalog : String} (there : catalogs[i]? = some catalog)
    (ready : Ready setting ⟨catalog, target, verbose⟩
      (after setting target verbose (catalogs.take i) state).toWork) :
    ready.scratch.name = last ++ setting.suffix (state.scratches + i) ∧ ∀ m,
      (after setting target verbose (catalogs.take m) state).tree.get? ready.scratch
          ≠ some .directory ∧
        (after setting target verbose (catalogs.take m) state).tree.get? ready.scratch.parent
          = some .directory := by
  have keeps := fun m =>
    @after_keepsDirectories setting target verbose state grounded (catalogs.take m)
  have absent := ready.scratch_free
  have above := ready.reached_scratch.1.get?
  obtain ⟨inside, _⟩ := List.getElem?_eq_some_iff.mp there
  constructor
  · have plain := apart.plain i inside
    rw [← scratches_of_answers earlier] at plain ⊢
    exact name_of_scratchPlace ((keeps i).grounded grounded) ready.opened stem plain
  · intro m
    rw [(keeps i).directories] at above
    constructor
    · intro found
      rw [(keeps m).directories, ← (keeps i).directories, absent] at found
      cases found
    · rw [(keeps m).directories]
      exact above

end

theorem scratch_of_argumentsFor {request : Request} {layout : Layout} {a b : Place}
    (same : argumentsFor request layout a = argumentsFor request layout b) : a = b := by
  have directories := congrArg (fun arguments : List String => arguments[12]?) same
  have texts : "--compile=" ++ a.text = "--compile=" ++ b.text := Option.some.inj directories
  have chars := congrArg String.toList texts
  rw [String.toList_append, String.toList_append] at chars
  exact Place.text_inj.mp (String.toList_inj.mp (List.append_cancel_left chars))

/-- Every call of a batch is made with a scratch directory of its own, in which the compiler
finds a copy of the icon package of the catalog and nothing else. -/
theorem staging_isolated (setting : Setting) (target : String) (verbose : Bool)
    (catalogs : List String) (state : RunState) (grounded : state.tree.Grounded)
    (apart : setting.NamesApart state.scratches catalogs.length) :
    ∃ (calls : List Call) (scratches : List Place),
      (all setting target verbose catalogs state).2.calls = state.calls ++ calls ∧
      scratches.length = calls.length ∧ scratches.Nodup ∧
      ∀ i call scratch, calls[i]? = some call → scratches[i]? = some scratch →
        ∃ catalog layout, catalogs[i]? = some catalog ∧
          Layout.ofPath setting.directory catalog = .ok layout ∧
          call.arguments = argumentsFor ⟨catalog, target, verbose⟩ layout scratch ∧
          Isolated (after setting target verbose (catalogs.take i) state).tree scratches layout
            scratch call := by
  obtain ⟨calls, scratches, called, lengths, each⟩ :=
    @calls_of_all setting target verbose catalogs state
  obtain ⟨front, last, stem, _⟩ :=
    @Path.segments_append setting.scratchStem "" (by simp)
  have known : ∀ i scratch, scratches[i]? = some scratch → i < catalogs.length ∧
      scratch.name = last ++ setting.suffix (state.scratches + i) ∧ ∀ m,
        (after setting target verbose (catalogs.take m) state).tree.get? scratch
            ≠ some .directory ∧
          (after setting target verbose (catalogs.take m) state).tree.get? scratch.parent
            = some .directory := by
    intro i scratch atPlace
    obtain ⟨inside, _⟩ := List.getElem?_eq_some_iff.mp atPlace
    obtain ⟨earlier, catalog, ready, there, _, same⟩ :=
      each i _ (List.getElem?_eq_getElem (lengths ▸ inside))
    cases atPlace.symm.trans same
    obtain ⟨below, _⟩ := List.getElem?_eq_some_iff.mp there
    exact ⟨below, ready.scratch_in_batch grounded apart stem earlier there⟩
  refine ⟨calls, scratches, called, lengths, ?_, ?_⟩
  · rw [List.nodup_iff_getElem?_ne_getElem?]
    intro i j before inside same
    obtain ⟨below, nameJ, _⟩ := known j _ (List.getElem?_eq_getElem inside)
    obtain ⟨_, nameI, _⟩ := known i _ (same.trans (List.getElem?_eq_getElem inside))
    apply apart.different i j before below
    rw [nameI] at nameJ
    have chars := congrArg String.toList nameJ
    rw [String.toList_append, String.toList_append] at chars
    exact String.toList_inj.mp (List.append_cancel_left chars)
  · intro i call scratch atCall atPlace
    obtain ⟨_, catalog, ready, there, rfl, same⟩ := each i call atCall
    cases atPlace.symm.trans same
    refine ⟨catalog, ready.layout, there, ready.named, rfl, ?_⟩
    have keeps := @after_keepsDirectories setting target verbose state grounded (catalogs.take i)
    apply ready.isolated (keeps.grounded grounded)
    intro other member
    obtain ⟨j, atOther⟩ := List.mem_iff_getElem?.mp member
    exact (known j other atOther).2.2 i

namespace Sample

/-- The first call leaves more behind than it reports, and the second breaks down. -/
def untidy : Setting where
  directory := place "/w"
  temporary := place "/t"
  suffix n := toString n
  runner := ⟨"xcrun", fun calls =>
    ⟨if calls.length = 1 then .ok outcome else .error "out of memory",
      some ⟨[(place "/AppIcon.icns", .file "I"), (place "/Assets.car", .file "C"),
        (place "/AppIcon.icon", .link "/w"), (place "/cache", .directory),
        (place "/cache/day", .link "../missing")]⟩⟩⟩
  handlers := []

/-- Each package has a file of its own, and a link to a drawing that lies beside both. -/
def drawn : FileTree := tree
  [(place "/w/AppIcon.icon/icon.json", .file "day"),
    (place "/w/AppIcon.icon/Assets", .directory),
    (place "/w/AppIcon.icon/Assets/bird.svg", .link "../../bird.svg"),
    (place "/w/AppIcon_dev.icon", .directory),
    (place "/w/AppIcon_dev.icon/icon.json", .file "night"),
    (place "/w/AppIcon_dev.icon/Assets", .directory),
    (place "/w/AppIcon_dev.icon/Assets/bird.svg", .link "../../bird.svg"),
    (place "/w/bird.svg", .file "bird")]

def both : List String := ["Assets.xcassets", "Assets_dev.xcassets"]

def laterScratch : Place := place "/t/compile-car-1"

theorem drawn_grounded : drawn.Grounded := by
  apply FileTree.grounded_of_entries
  decide +kernel

theorem untidy_apart : untidy.NamesApart 0 2 := by
  refine ⟨by decide +kernel, ?_⟩
  intro m n before below
  have first : m = 0 := by omega
  have second : n = 1 := by omega
  subst first second
  decide +kernel

theorem both_ran :
    (all untidy "12.0" false both (RunState.start drawn)).2.calls.map Call.arguments
      = [argumentsFor ⟨"Assets.xcassets", "12.0", false⟩ layout scratch,
        argumentsFor ⟨"Assets_dev.xcassets", "12.0", false⟩ devLayout laterScratch] ∧
    (all untidy "12.0" false both (RunState.start drawn)).2.calls[1]?.map (fun call =>
        [place "/icon.json", place "/Assets/bird.svg"].map fun rest =>
          (call.tree.follow .use FileTree.mostLinks Place.root
            (devLayout.iconPackage.append rest).names).toOption)
      = some [some (.file (place "/w/AppIcon_dev.icon/icon.json") "night"),
        some (.file (place "/w/bird.svg") "bird")] ∧
    ((after untidy "12.0" false (both.take 1) (RunState.start drawn)).tree.locate .use Place.root
      devLayout.iconPackage.text).toOption = some (.directory devLayout.iconPackage) ∧
    (after untidy "12.0" false (both.take 1) (RunState.start drawn)).tree.isUnbroken = true := by
  decide +kernel

theorem named_dev : Layout.ofPath (place "/w") "Assets_dev.xcassets" = .ok devLayout :=
  eq_ok_of_toOption (by decide +kernel)

theorem both_staging_isolated : drawn.Grounded ∧ untidy.NamesApart 0 2 ∧
    ∃ first second,
      (all untidy "12.0" false both (RunState.start drawn)).2.calls = [first, second] ∧
      Isolated drawn [scratch, laterScratch] layout scratch first ∧
      Isolated (after untidy "12.0" false (both.take 1) (RunState.start drawn)).tree
        [scratch, laterScratch] devLayout laterScratch second ∧
      (∀ rest sight, second.tree.Shows (devLayout.iconPackage.append rest) sight
        ↔ second.tree.Shows ((laterScratch.enter stagedName).append rest) sight) ∧
      second.tree.Shows ((laterScratch.enter stagedName).append (place "/icon.json"))
        (.file "night") ∧
      second.tree.Shows ((laterScratch.enter stagedName).append (place "/Assets/bird.svg"))
        (.file "bird") := by
  obtain ⟨calls, scratches, called, lengths, _, each⟩ :=
    staging_isolated untidy "12.0" false both (RunState.start drawn) drawn_grounded untidy_apart
  obtain ⟨arguments, shown, located, unbroken⟩ := both_ran
  rw [called, RunState.start, Work.start, List.nil_append] at arguments shown
  have two : calls.length = 2 := by
    simpa using congrArg List.length arguments
  obtain ⟨first, second, rfl⟩ := List.length_eq_two.mp two
  obtain ⟨here, there, rfl⟩ := List.length_eq_two.mp lengths
  obtain ⟨firstArguments, rest⟩ := List.cons.inj arguments
  obtain ⟨secondArguments, _⟩ := List.cons.inj rest
  obtain ⟨icon, drawing⟩ := List.cons.inj (Option.some.inj shown)
  obtain ⟨_, _, atFirst, found, asked, isolated⟩ := each 0 first here rfl rfl
  cases atFirst
  cases found.symm.trans (named bothOutputs)
  cases scratch_of_argumentsFor (asked.symm.trans firstArguments)
  obtain ⟨_, _, atSecond, found, asked, isolatedToo⟩ := each 1 second there rfl rfl
  cases atSecond
  cases found.symm.trans named_dev
  cases scratch_of_argumentsFor (asked.symm.trans secondArguments)
  have outside : devLayout.iconPackage.isWithin (laterScratch.enter stagedName) = false := by
    decide +kernel
  have whole := FileTree.whole_of_isUnbroken located outside unbroken
  have alike : ∀ rest sight, second.tree.Shows (devLayout.iconPackage.append rest) sight
      ↔ second.tree.Shows ((laterScratch.enter stagedName).append rest) sight := by
    intro rest sight
    exact isolatedToo.current rest sight (whole rest)
  refine ⟨drawn_grounded, untidy_apart, first, second, called, isolated, isolatedToo, alike,
    ?_, ?_⟩
  · exact (alike _ _).mp ⟨_, _, FileTree.walk_of_follow (eq_ok_of_toOption icon), rfl⟩
  · obtain ⟨bird, _⟩ := List.cons.inj drawing
    exact (alike _ _).mp ⟨_, _, FileTree.walk_of_follow (eq_ok_of_toOption bird), rfl⟩

end Sample

end Compile

end AssetCatalog
