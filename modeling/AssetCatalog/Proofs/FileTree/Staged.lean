import AssetCatalog.Proofs.FileTree.Routes
/-! # What a staged package shows

A tree `Shows` what the names of a place lead to when links are followed.  The copy of a package
shows below itself what the package shows, file by file (`shows_stage_iff`), as long as the
package does not hold its own copy and no link that is come by is broken (`Whole`): a link that
leads nowhere is copied as it is spelled, and the spelling may lead somewhere.

A link that leads somewhere is copied as the text of the place where it leads (`settle_of_walk`),
and from there on the way is the same. -/

set_option autoImplicit false

namespace AssetCatalog

inductive Sight where
  | file (content : String)
  | directory

def Spot.sight? : Spot → Option Sight
  | .file _ content => some (.file content)
  | .directory _ => some .directory
  | .free _ => none

theorem Place.append_enter {top rest : Place} {name : String} (ordinary : Ordinary name) :
    (top.append rest).enter name = top.append (rest.enter name) := by
  apply Place.ext_names
  simp [Place.enter_of_ordinary ordinary]

namespace FileTree

/-- The segments lead from a directory to something, over however many links. -/
def Leads (tree : FileTree) (here : Place) (segments : List String) (sight : Sight) : Prop :=
  ∃ links spot, Walk tree .use links here segments spot ∧ spot.sight? = some sight

def Shows (tree : FileTree) (place : Place) (sight : Sight) : Prop :=
  tree.Leads Place.root place.names sight

/-- The package does not hold the place, and no link on the way into it is broken. -/
def Whole (tree : FileTree) (package place rest : Place) : Prop :=
  ∀ source, tree.locate .use Place.root package.text = .ok (.directory source) →
    source.isWithin place = false ∧
    ∀ front target, front.isWithin rest = true →
      tree.get? (source.append front) = some (.link target) →
        tree.isOccupied (source.append front).parent target = true

variable {tree : FileTree} {here here' : Place} {spot : Spot} {sight : Sight}

def isUnbroken (tree : FileTree) : Bool :=
  tree.entries.all fun (place, entry) =>
    match entry with
    | .link target => tree.isOccupied place.parent target
    | _ => true

theorem whole_of_isUnbroken {package place source : Place}
    (located : (tree.locate .use Place.root package.text).toOption = some (.directory source))
    (outside : source.isWithin place = false) (unbroken : tree.isUnbroken = true) (rest : Place) :
    tree.Whole package place rest := by
  intro other locatedOther
  rw [locatedOther] at located
  cases located
  refine ⟨outside, ?_⟩
  intro front target _ link
  have notRoot : source.append front ≠ Place.root := by
    apply ne_root_of_not_directory
    rw [link]
    simp
  exact List.all_eq_true.mp unbroken _ (mem_of_get? link notRoot)

theorem Leads.congr {links links' : Nat} {front front' back : List String}
    (walk : Walk tree .use links here front spot) (walk' : Walk tree .use links' here' front' spot)
    (leads : tree.Leads here (front ++ back) sight) : tree.Leads here' (front' ++ back) sight := by
  obtain ⟨_, last, whole, seen⟩ := leads
  by_cases ended : back = []
  · subst ended
    rw [List.append_nil] at whole ⊢
    rw [whole.unique walk] at seen
    exact ⟨links', spot, walk', seen⟩
  · obtain ⟨middle, fewer, _, before, after⟩ := whole.split _ ended
    rw [walk.unique before] at walk'
    exact ⟨links' + fewer, last, walk'.append after, seen⟩

theorem leads_congr {links links' : Nat} {front front' : List String}
    (walk : Walk tree .use links here front spot) (walk' : Walk tree .use links' here' front' spot)
    (back : List String) :
    tree.Leads here (front ++ back) sight ↔ tree.Leads here' (front' ++ back) sight :=
  ⟨Leads.congr walk walk', Leads.congr walk' walk⟩

theorem leads_of_directory {links : Nat} {front : List String} {middle : Place}
    (walk : Walk tree .use links here front (.directory middle)) (back : List String) :
    tree.Leads here (front ++ back) sight ↔ tree.Leads middle back sight := by
  have arrived : Walk tree .use 0 middle [] (.directory middle) := .arrived
  exact leads_congr walk arrived back

theorem leads_of_file {links : Nat} {front : List String} {place : Place} {content : String}
    (walk : Walk tree .use links here front (.file place content)) (back : List String) :
    tree.Leads here (front ++ back) sight ↔ back = [] ∧ sight = .file content := by
  constructor
  · rintro ⟨_, last, whole, seen⟩
    by_cases ended : back = []
    · subst ended
      rw [List.append_nil] at whole
      cases whole.unique walk
      exact ⟨rfl, (Option.some.inj seen).symm⟩
    · obtain ⟨middle, _, _, before, _⟩ := whole.split _ ended
      cases walk.unique before
  · rintro ⟨rfl, rfl⟩
    rw [List.append_nil]
    exact ⟨links, _, walk, rfl⟩

theorem leads_nil_iff : tree.Leads here [] sight ↔ sight = .directory := by
  constructor
  · rintro ⟨_, _, walk, seen⟩
    cases walk with
    | arrived => exact (Option.some.inj seen).symm
  · rintro rfl
    exact ⟨0, _, .arrived, rfl⟩

/-- A name that is looked up is not too long. -/
theorem Leads.short {name : String} {rest : List String} (ordinary : Ordinary name)
    (leads : tree.Leads here (name :: rest) sight) : ¬ longestName < name.utf8ByteSize := by
  obtain ⟨_, _, walk, _⟩ := leads
  cases walk with
  | skipped skip _ =>
      rcases skip with rfl | rfl
      · exact absurd rfl ordinary.1
      · exact absurd rfl ordinary.2.1
  | back _ => exact absurd rfl ordinary.2.2.1
  | directory passable _ _ | link passable _ _ | file passable _ | free passable _ =>
      exact passable.short

theorem not_leads_of_free {name : String} {rest : List String} (ordinary : Ordinary name)
    (found : tree.get? (here.enter name) = none) : ¬ tree.Leads here (name :: rest) sight := by
  intro leads
  have short := leads.short ordinary
  obtain ⟨_, last, whole, seen⟩ := leads
  have first : Walk tree .use 0 here [name] (.free (here.enter name)) :=
    .free (passable_of_ordinary ordinary short []) found
  by_cases ended : rest = []
  · subst ended
    cases whole.unique first
    cases seen
  · obtain ⟨middle, _, _, before, _⟩ := whole.split [name] ended
    cases first.unique before

/-! ## Copies of links -/

/-- What a link leads to is settled as the place where it is. -/
theorem settle_of_walk {links : Nat} {segments : List String}
    (walk : Walk tree .use links here segments spot) (few : links ≤ mostLinks)
    (there : ∀ place, spot ≠ .free place) : tree.settle here segments = spot.place.text := by
  induction segments generalizing here links with
  | nil =>
      cases walk with
      | arrived => rfl
  | cons segment rest ih =>
      by_cases ended : rest = []
      · subst ended
        have followed := follow_of_walk (walk.mono few)
        unfold settle
        rw [followed]
        cases spot with
        | directory place => rfl
        | file place content => rfl
        | free place => exact absurd rfl (there place)
      · obtain ⟨middle, fewer, le, before, after⟩ := walk.split [segment] ended
        have followed := follow_of_walk (before.mono few)
        unfold settle
        rw [followed]
        exact ih after (Nat.le_trans le few)

/-! ## Copies of directories -/

/-- What lay below the source lies below the place too, links settled. -/
structure CopiedTo (before after : FileTree) (source place : Place) : Prop where
  kept : ∀ other entry, before.get? other = some entry → after.get? other = some entry
  original : ∀ rest, after.get? (source.append rest) = before.get? (source.append rest)
  copy : ∀ rest, rest ≠ Place.root → after.get? (place.append rest)
    = (before.get? (source.append rest)).map (before.copied (source.append rest).parent)

variable {before after : FileTree} {source place rest : Place}

section

variable (copied : CopiedTo before after source place) (front : Place) {name : String}
  (ordinary : Ordinary name)
include copied ordinary

theorem CopiedTo.get?_enter : after.get? ((source.append front).enter name)
      = before.get? (source.append (front.enter name)) ∧
    after.get? ((place.append front).enter name)
      = (before.get? (source.append (front.enter name))).map
          (before.copied (source.append front)) := by
  rw [Place.append_enter ordinary, Place.append_enter ordinary]
  refine ⟨copied.original _, ?_⟩
  rw [copied.copy _ (Place.enter_ne_root ordinary), ← Place.append_enter ordinary,
    Place.parent_enter ordinary]

/-- A link and its copy lead to the same spot. -/
theorem CopiedTo.walk_link {target : String} (short : ¬ longestName < name.utf8ByteSize)
    (paved : after.Paved (source.append front))
    (found : before.get? (source.append (front.enter name)) = some (.link target))
    (occupied : before.isOccupied (source.append front) target = true) :
    ∃ links links' spot, Walk after .use links (source.append front) [name] spot ∧
      Walk after .use links' (place.append front) [name] spot := by
  have passable := passable_of_ordinary ordinary short []
  obtain ⟨spot, located, there⟩ := isOccupied_iff.mp occupied
  have walk := (locate_eq_ok_iff.mp located).2.2
  obtain ⟨original, copy⟩ := copied.get?_enter front ordinary
  rw [found] at original copy
  simp only [Option.map_some, FileTree.copied, settle_of_walk walk (Nat.le_refl _) there] at copy
  have further := walk.extend copied.kept there
  have start : after.Paved (startOf (source.append front) target) := by
    unfold startOf
    split
    · exact paved_root after
    · exact paved
  have straight := further.straight start
  refine ⟨mostLinks + 1, 1, spot, .link passable original ?_, .link passable copy ?_⟩
  · rw [List.append_nil]
    exact further
  · rw [walk_text_iff, List.append_nil]
    exact straight

end

/-- Below its source and below its copy a package shows the same. -/
theorem CopiedTo.leads_iff (copied : CopiedTo before after source place) {front : Place}
    {names : List String} (paved : after.Paved (source.append front))
    (parts : rest.names = front.names ++ names)
    (unbroken : ∀ inner target, inner.isWithin rest = true →
      before.get? (source.append inner) = some (.link target) →
        before.isOccupied (source.append inner).parent target = true) :
    after.Leads (source.append front) names sight
      ↔ after.Leads (place.append front) names sight := by
  induction names generalizing front with
  | nil => rw [leads_nil_iff, leads_nil_iff]
  | cons name names ih =>
      have ordinary : Ordinary name := rest.ordinary name (by simp [parts])
      have onward : rest.names = (front.enter name).names ++ names := by
        rw [parts, Place.enter_of_ordinary ordinary, List.append_assoc, List.singleton_append]
      by_cases long : longestName < name.utf8ByteSize
      · exact iff_of_false (fun leads => leads.short ordinary long)
          fun leads => leads.short ordinary long
      have passable := passable_of_ordinary ordinary long []
      obtain ⟨original, copy⟩ := copied.get?_enter front ordinary
      rw [← List.singleton_append]
      cases found : before.get? (source.append (front.enter name)) with
      | none =>
          rw [found] at original copy
          exact iff_of_false (not_leads_of_free ordinary original)
            (not_leads_of_free ordinary copy)
      | some entry =>
          cases entry with
          | file content =>
              rw [found] at original copy
              have first : Walk after .use 0 (source.append front) [name]
                  (.file ((source.append front).enter name) content) := .file passable original
              have second : Walk after .use 0 (place.append front) [name]
                  (.file ((place.append front).enter name) content) := .file passable copy
              rw [leads_of_file first, leads_of_file second]
          | directory =>
              rw [found] at original copy
              have first : Walk after .use 0 (source.append front) [name]
                  (.directory ((source.append front).enter name)) :=
                .directory passable original .arrived
              have second : Walk after .use 0 (place.append front) [name]
                  (.directory ((place.append front).enter name)) :=
                .directory passable copy .arrived
              rw [leads_of_directory first, leads_of_directory second,
                Place.append_enter ordinary, Place.append_enter ordinary]
              refine ih ?_ onward
              rw [← Place.append_enter ordinary]
              exact paved.enter passable original
          | link target =>
              have within := Place.isWithin_iff.mpr ⟨names, onward⟩
              have occupied := unbroken _ _ within found
              rw [← Place.append_enter ordinary, Place.parent_enter ordinary] at occupied
              obtain ⟨_, _, _, walk, walk'⟩ :=
                copied.walk_link front ordinary long paved found occupied
              exact leads_congr walk walk' names

/-! ## Packages -/

section

variable {package : Place} (packed : before.stage package place = .ok after)
include packed

theorem get?_of_stage_file (notRoot : place ≠ Place.root) {original : Place} {content : String}
    (located : before.locate .use Place.root package.text = .ok (.file original content)) :
    after.get? place = some (.file content) := by
  unfold stage at packed
  rw [located] at packed
  cases packed
  rw [get?_put _ _ _ _ notRoot, if_pos rfl]

theorem get?_of_stage_directory (notRoot : place ≠ Place.root)
    (located : before.locate .use Place.root package.text = .ok (.directory source)) :
    after.get? place = some .directory ∧ ∀ rest, rest ≠ Place.root →
      after.get? (place.append rest)
        = (before.get? (source.append rest)).map (before.copied (source.append rest).parent) := by
  unfold stage at packed
  rw [located] at packed
  cases packed
  constructor
  · rw [get?_graft_of_not_below (by simp [Place.isBelow]), get?_put _ _ _ _ notRoot, if_pos rfl]
  · intro rest below
    rw [get?_graft_append _ _ _ _ below, get?_of_ne below,
      lookup_map_entry (fun name => before.copied (source.append name).parent),
      ← get?_of_ne below, get?_under _ _ _ below]

theorem located_of_stage : ∃ spot, before.locate .use Place.root package.text = .ok spot ∧
    ∀ free, spot ≠ .free free := by
  unfold stage at packed
  split at packed
  · cases packed
  · cases packed
  · next located => exact ⟨_, located, by simp⟩
  · next located => exact ⟨_, located, by simp⟩

variable (grounded : before.Grounded) (free : before.get? place = none)
include grounded free

theorem kept_of_stage {other : Place} {entry : Entry} (found : before.get? other = some entry) :
    after.get? other = some entry := by
  rw [get?_stage packed (ne_root_of_free free), found]
  cases within : place.isWithin other with
  | false => rfl
  | true =>
      rw [grounded.get?_of_isWithin free within] at found
      cases found

theorem copiedTo_of_stage
    (located : before.locate .use Place.root package.text = .ok (.directory source))
    (outside : source.isWithin place = false) : CopiedTo before after source place := by
  have notRoot := ne_root_of_free free
  refine ⟨fun _ _ => kept_of_stage packed grounded free, ?_,
    (get?_of_stage_directory packed notRoot located).2⟩
  intro rest
  apply get?_stage packed notRoot
  rw [Bool.eq_false_iff]
  intro within
  have walk := (locate_eq_ok_iff.mp located).2.2
  rw [startOf, if_pos (Place.isAbsolute_text package)] at walk
  have there := walk.get?_directory grounded (get?_root before)
  rcases Place.isWithin_total (Place.isWithin_append source rest) within with holds | inside
  · rw [holds] at outside
    cases outside
  · rw [grounded.get?_of_isWithin free inside] at there
    cases there

theorem walk_package {spot : Spot}
    (located : before.locate .use Place.root package.text = .ok spot)
    (there : ∀ free, spot ≠ .free free) :
    Walk after .use mostLinks Place.root package.names spot := by
  have walk := (locate_eq_ok_iff.mp located).2.2.extend
    (fun _ _ => kept_of_stage packed grounded free) there
  rw [← List.append_nil (Path.segments _), walk_text_iff, List.append_nil] at walk
  exact walk

/-- The copy of a package shows what the package shows. -/
theorem shows_stage_iff (reached : before.Reached (.free place))
    (whole : before.Whole package place rest) :
    after.Shows (package.append rest) sight ↔ after.Shows (place.append rest) sight := by
  obtain ⟨pavedBefore, notRoot, short⟩ := reached
  have above := pavedBefore.extend fun _ _ => kept_of_stage packed grounded free
  obtain ⟨spot, located, there⟩ := located_of_stage packed
  have walk := walk_package packed grounded free located there
  cases spot with
  | free free => exact absurd rfl (there free)
  | file original content =>
      have walk' := above.walk_file notRoot short (get?_of_stage_file packed notRoot located)
      exact (leads_of_file walk rest.names).trans (leads_of_file walk' rest.names).symm
  | directory source =>
      obtain ⟨outside, unbroken⟩ := whole source located
      have found := (get?_of_stage_directory packed notRoot located).1
      have paved : after.Paved (source.append Place.root) := by
        rw [Place.append_root]
        exact walk.reached (paved_root after)
      have paved' := paved_of_parent above notRoot short found
      have copied := copiedTo_of_stage packed grounded free located outside
      have below : after.Leads (source.append Place.root) rest.names sight
          ↔ after.Leads (place.append Place.root) rest.names sight :=
        copied.leads_iff paved rfl unbroken
      rw [Place.append_root, Place.append_root] at below
      have toPlace := paved'.walk
      exact ((leads_of_directory walk _).trans below).trans (leads_of_directory toPlace _).symm

end

end FileTree

end AssetCatalog
