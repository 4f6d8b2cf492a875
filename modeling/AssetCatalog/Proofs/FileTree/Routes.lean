import AssetCatalog.Proofs.FileTree.Ways
/-! # Ways put together

A walk over two parts of a path gets to a directory over the first part and goes on from there
(`Walk.split`, `Walk.append`), and no path leads to two spots (`Walk.unique`).

A place is `Paved` when its names can be followed from the root over directories alone.  A walk
that starts at such a place ends at one, or beside one (`Walk.reached`), so the names of the
place where it ends lead there without any link (`Walk.straight`). -/

set_option autoImplicit false

namespace AssetCatalog

namespace Place

theorem parent_enter {directory : Place} {name : String} (ordinary : Ordinary name) :
    (directory.enter name).parent = directory :=
  parent_of_names (enter_of_ordinary ordinary)

theorem isWithin_of_parent (place : Place) : place.parent.isWithin place = true := by
  obtain ⟨last, whole⟩ : place.parent.names <+: place.names := List.dropLast_prefix _
  exact isWithin_iff.mpr ⟨last, whole.symm⟩

theorem name_enter {directory : Place} {name : String} (ordinary : Ordinary name) :
    (directory.enter name).name = name := by
  rw [Place.name, enter_of_ordinary ordinary, List.getLast?_concat]
  rfl

theorem isWithin_total {a b place : Place} (inA : a.isWithin place = true)
    (inB : b.isWithin place = true) : a.isWithin b = true ∨ b.isWithin a = true := by
  simp only [isWithin, List.isPrefixOf_iff_prefix] at inA inB ⊢
  exact List.prefix_or_prefix_of_prefix inA inB

theorem enter_ne_root {directory : Place} {name : String} (ordinary : Ordinary name) :
    directory.enter name ≠ root := by
  intro same
  have names : (directory.enter name).names = directory.names ++ [name] :=
    enter_of_ordinary ordinary
  rw [same] at names
  simp [root] at names

end Place

namespace FileTree

variable {tree : FileTree} {purpose : Purpose} {here : Place} {spot : Spot}

theorem Passable.within {segment : String} {rest : List String}
    (passable : Passable purpose segment rest) (rest' : List String) :
    Passable .use segment rest' :=
  ⟨passable.named, passable.notDots, by simp, passable.short⟩

theorem passable_of_ordinary {name : String} (ordinary : Ordinary name)
    (short : ¬ longestName < name.utf8ByteSize) (rest : List String) :
    Passable .use name rest := by
  refine ⟨?_, ordinary.2.2.1, by simp, short⟩
  rintro (rfl | rfl)
  · exact ordinary.1 rfl
  · exact ordinary.2.1 rfl

theorem Walk.mono {links more : Nat} {segments : List String}
    (walk : Walk tree purpose links here segments spot) (enough : links ≤ more) :
    Walk tree purpose more here segments spot := by
  induction walk generalizing more with
  | arrived => exact .arrived
  | skipped skip _ ih => exact .skipped skip (ih enough)
  | back _ ih => exact .back (ih enough)
  | directory passable found _ ih => exact .directory passable found (ih enough)
  | @link links here segment target rest spot passable found _ ih =>
      obtain ⟨fewer, rfl⟩ : ∃ fewer, more = fewer + 1 := ⟨more - 1, by omega⟩
      exact .link passable found (ih (by omega))
  | file passable found => exact .file passable found
  | free passable found => exact .free passable found

theorem Walk.unique {links links' : Nat} {segments : List String} {spot' : Spot}
    (walk : Walk tree purpose links here segments spot)
    (walk' : Walk tree purpose links' here segments spot') : spot = spot' := by
  have first := follow_of_walk (walk.mono (Nat.le_max_left links links'))
  have second := follow_of_walk (walk'.mono (Nat.le_max_right links links'))
  exact Except.ok.inj (first.symm.trans second)

theorem Walk.split {links : Nat} (front : List String) {back : List String}
    (walk : Walk tree purpose links here (front ++ back) spot) (more : back ≠ []) :
    ∃ middle fewer, fewer ≤ links ∧ Walk tree .use links here front (.directory middle) ∧
      Walk tree purpose fewer middle back spot := by
  generalize parts : front ++ back = segments at walk
  induction walk generalizing front with
  | @arrived links here => simp [more] at parts
  | @skipped links here segment rest spot skip further ih =>
      cases front with
      | nil =>
          subst parts
          exact ⟨here, links, Nat.le_refl _, .arrived, .skipped skip further⟩
      | cons first others =>
          obtain ⟨rfl, rfl⟩ := List.cons.inj parts
          obtain ⟨middle, fewer, le, before, after⟩ := ih _ rfl
          exact ⟨middle, fewer, le, .skipped skip before, after⟩
  | @back links here rest spot further ih =>
      cases front with
      | nil =>
          subst parts
          exact ⟨here, links, Nat.le_refl _, .arrived, .back further⟩
      | cons first others =>
          obtain ⟨rfl, rfl⟩ := List.cons.inj parts
          obtain ⟨middle, fewer, le, before, after⟩ := ih _ rfl
          exact ⟨middle, fewer, le, .back before, after⟩
  | @directory links here segment rest spot passable found further ih =>
      cases front with
      | nil =>
          subst parts
          exact ⟨here, links, Nat.le_refl _, .arrived, .directory passable found further⟩
      | cons first others =>
          obtain ⟨rfl, rfl⟩ := List.cons.inj parts
          obtain ⟨middle, fewer, le, before, after⟩ := ih _ rfl
          exact ⟨middle, fewer, le, .directory (passable.within others) found before, after⟩
  | @link links here segment target rest spot passable found further ih =>
      cases front with
      | nil =>
          subst parts
          exact ⟨here, links + 1, Nat.le_refl _, .arrived, .link passable found further⟩
      | cons first others =>
          obtain ⟨rfl, rfl⟩ := List.cons.inj parts
          obtain ⟨middle, fewer, le, before, after⟩ := ih _ (List.append_assoc _ _ _)
          exact ⟨middle, fewer, by omega, .link (passable.within others) found before, after⟩
  | @file links here segment content passable found =>
      cases front with
      | nil =>
          subst parts
          exact ⟨here, links, Nat.le_refl _, .arrived, .file passable found⟩
      | cons first others => simp [more] at parts
  | @free links here segment passable found =>
      cases front with
      | nil =>
          subst parts
          exact ⟨here, links, Nat.le_refl _, .arrived, .free passable found⟩
      | cons first others => simp [more] at parts

theorem Walk.append {links links' : Nat} {front back : List String} {middle : Place}
    (first : Walk tree .use links here front (.directory middle))
    (second : Walk tree .use links' middle back spot) :
    Walk tree .use (links + links') here (front ++ back) spot := by
  generalize arrived : Spot.directory middle = reached at first
  induction first with
  | arrived =>
      cases arrived
      exact second.mono (by omega)
  | skipped skip _ ih => exact .skipped skip (ih arrived)
  | back _ ih => exact .back (ih arrived)
  | directory passable found _ ih => exact .directory (passable.within _) found (ih arrived)
  | @link links here segment target rest spot passable found _ ih =>
      rw [Nat.add_right_comm]
      have further := ih arrived
      rw [List.append_assoc] at further
      exact .link (passable.within _) found further
  | file _ _ => cases arrived
  | free _ _ => cases arrived

theorem Walk.extend {a b : FileTree} {links : Nat} {segments : List String}
    (kept : ∀ place entry, a.get? place = some entry → b.get? place = some entry)
    (walk : Walk a purpose links here segments spot) (taken : ∀ place, spot ≠ .free place) :
    Walk b purpose links here segments spot := by
  induction walk with
  | arrived => exact .arrived
  | skipped skip _ ih => exact .skipped skip (ih taken)
  | back _ ih => exact .back (ih taken)
  | directory passable found _ ih => exact .directory passable (kept _ _ found) (ih taken)
  | link passable found _ ih => exact .link passable (kept _ _ found) (ih taken)
  | file passable found => exact .file passable (kept _ _ found)
  | free _ _ => exact absurd rfl (taken _)

theorem locate_extend {a b : FileTree} {directory : Place} {path : String}
    (kept : ∀ place entry, a.get? place = some entry → b.get? place = some entry)
    (located : a.locate purpose directory path = .ok spot) (taken : ∀ place, spot ≠ .free place) :
    b.locate purpose directory path = .ok spot := by
  obtain ⟨some, fits, walk⟩ := locate_eq_ok_iff.mp located
  exact locate_eq_ok_iff.mpr ⟨some, fits, walk.extend kept taken⟩

theorem isOccupied_iff {directory : Place} {path : String} :
    tree.isOccupied directory path = true ↔ ∃ spot,
      tree.locate .use directory path = .ok spot ∧ ∀ place, spot ≠ .free place := by
  unfold isOccupied
  cases tree.locate .use directory path with
  | error fault => simp
  | ok spot => cases spot <;> simp

/-! ## Ways without a turn -/

/-- The directories on the way to the place are there, and their names can be looked up. -/
structure Paved (tree : FileTree) (place : Place) : Prop where
  directories : ∀ top, top.isWithin place = true → tree.get? top = some .directory
  short : ∀ name ∈ place.names, ¬ longestName < name.utf8ByteSize

/-- The directory at a spot, or the one that the spot is in, is paved. -/
def Reached (tree : FileTree) : Spot → Prop
  | .directory place => tree.Paved place
  | .file place _ | .free place =>
    tree.Paved place.parent ∧ place ≠ Place.root ∧ ¬ longestName < place.name.utf8ByteSize

theorem paved_root (tree : FileTree) : tree.Paved Place.root := by
  refine ⟨?_, by simp [Place.root]⟩
  intro top within
  obtain ⟨rest, names⟩ := Place.isWithin_iff.mp within
  have atRoot : top = Place.root := Place.ext_names (List.append_eq_nil_iff.mp names.symm).1
  rw [atRoot, get?_root]

theorem Paved.get? {place : Place} (paved : tree.Paved place) :
    tree.get? place = some .directory :=
  paved.directories place (Place.isWithin_self place)

theorem Paved.extend {a b : FileTree} {place : Place} (paved : a.Paved place)
    (kept : ∀ other entry, a.get? other = some entry → b.get? other = some entry) :
    b.Paved place :=
  ⟨fun top within => kept _ _ (paved.directories top within), paved.short⟩

theorem Paved.parent {place : Place} (paved : tree.Paved place) : tree.Paved place.parent := by
  refine ⟨fun top within => ?_, fun name member => ?_⟩
  · exact paved.directories top (Place.isWithin_trans within (Place.isWithin_of_parent place))
  · exact paved.short name (List.dropLast_subset _ member)

/-- A segment that is looked up in a paved directory is a name, unless it leads nowhere else. -/
theorem Paved.ordinary {segment : String} {rest : List String} (paved : tree.Paved here)
    (passable : Passable purpose segment rest)
    (other : tree.get? (here.enter segment) ≠ some .directory) : Ordinary segment := by
  refine Decidable.byContradiction fun notOrdinary => other ?_
  rw [Place.enter, if_neg passable.notDots, dif_neg notOrdinary]
  exact paved.get?

theorem Paved.enter {segment : String} {rest : List String} (paved : tree.Paved here)
    (passable : Passable purpose segment rest)
    (found : tree.get? (here.enter segment) = some .directory) :
    tree.Paved (here.enter segment) := by
  by_cases ordinary : Ordinary segment
  · refine ⟨?_, ?_⟩
    · intro top within
      by_cases same : here.enter segment = top
      · rw [← same]
        exact found
      · have above := Place.isWithin_parent within same
        rw [Place.parent_enter ordinary] at above
        exact paved.directories top above
    · rw [Place.enter_of_ordinary ordinary]
      intro name member
      rcases List.mem_append.mp member with member | member
      · exact paved.short name member
      · rw [List.mem_singleton.mp member]
        exact passable.short
  · rw [Place.enter, if_neg passable.notDots, dif_neg ordinary]
    exact paved

theorem paved_of_parent {place : Place} (above : tree.Paved place.parent)
    (notRoot : place ≠ Place.root) (short : ¬ longestName < place.name.utf8ByteSize)
    (found : tree.get? place = some .directory) : tree.Paved place := by
  have passable := passable_of_ordinary (Place.ordinary_name notRoot) short []
  rw [← Place.enter_name notRoot] at found
  have paved := above.enter passable found
  rw [Place.enter_name notRoot] at paved
  exact paved

theorem reached_beside {segment : String} (paved : tree.Paved here)
    (passable : Passable purpose segment [])
    (other : tree.get? (here.enter segment) ≠ some .directory) :
    tree.Paved (here.enter segment).parent ∧ here.enter segment ≠ Place.root ∧
      ¬ longestName < (here.enter segment).name.utf8ByteSize := by
  have ordinary := paved.ordinary passable other
  rw [Place.parent_enter ordinary, Place.name_enter ordinary]
  exact ⟨paved, Place.enter_ne_root ordinary, passable.short⟩

theorem Walk.reached {links : Nat} {segments : List String}
    (walk : Walk tree purpose links here segments spot) (paved : tree.Paved here) :
    tree.Reached spot := by
  induction walk with
  | arrived => exact paved
  | skipped _ _ ih => exact ih paved
  | back _ ih => exact ih paved.parent
  | directory passable found _ ih => exact ih (paved.enter passable found)
  | @link links here segment target rest spot passable found _ ih =>
      refine ih ?_
      unfold startOf
      split
      · exact paved_root tree
      · exact paved
  | file passable found => exact reached_beside paved passable (by simp [found])
  | free passable found => exact reached_beside paved passable (by simp [found])

theorem Paved.walk {place : Place} (paved : tree.Paved place) :
    Walk tree .use 0 Place.root place.names (.directory place) := by
  -- By the number of names: the last one is looked up where the others lead.
  induction count : place.names.length generalizing place with
  | zero =>
      have atRoot : place = Place.root := Place.ext_names (List.eq_nil_of_length_eq_zero count)
      rw [atRoot]
      exact .arrived
  | succ length ih =>
      have notRoot : place ≠ Place.root := by
        rintro rfl
        simp [Place.root] at count
      have before := ih paved.parent (by simp [count])
      have short : ¬ longestName < place.name.utf8ByteSize := by
        apply paved.short
        rw [Place.names_eq_concat notRoot]
        simp
      have passable := passable_of_ordinary (Place.ordinary_name notRoot) short []
      have last : Walk tree .use 0 place.parent [place.name]
          (.directory (place.parent.enter place.name)) := by
        refine .directory passable ?_ .arrived
        rw [Place.enter_name notRoot]
        exact paved.get?
      rw [Place.enter_name notRoot] at last
      rw [Place.names_eq_concat notRoot]
      exact before.append last

theorem Paved.walk_last {place : Place} (above : tree.Paved place.parent)
    (notRoot : place ≠ Place.root) (last : Walk tree .use 0 place.parent [place.name] spot) :
    Walk tree .use 0 Place.root place.names spot := by
  rw [Place.names_eq_concat notRoot]
  exact above.walk.append last

theorem Paved.walk_file {place : Place} {content : String} (above : tree.Paved place.parent)
    (notRoot : place ≠ Place.root) (short : ¬ longestName < place.name.utf8ByteSize)
    (found : tree.get? place = some (.file content)) :
    Walk tree .use 0 Place.root place.names (.file place content) := by
  have passable := passable_of_ordinary (Place.ordinary_name notRoot) short []
  rw [← Place.enter_name notRoot] at found
  have last : Walk tree .use 0 place.parent [place.name]
      (.file (place.parent.enter place.name) content) := .file passable found
  rw [Place.enter_name notRoot] at last
  exact above.walk_last notRoot last

/-- Wherever a way ends, the names of that place lead there from the root. -/
theorem Walk.straight {links : Nat} {segments : List String}
    (walk : Walk tree purpose links here segments spot) (paved : tree.Paved here) :
    Walk tree .use 0 Place.root spot.place.names spot := by
  have reached := walk.reached paved
  cases spot with
  | directory place => exact Paved.walk reached
  | file place content =>
      obtain ⟨above, notRoot, short⟩ := reached
      exact above.walk_file notRoot short walk.get?_file
  | free place =>
      obtain ⟨above, notRoot, short⟩ := reached
      have passable := passable_of_ordinary (Place.ordinary_name notRoot) short []
      have found := walk.get?_free
      rw [← Place.enter_name notRoot] at found
      have last : Walk tree .use 0 place.parent [place.name]
          (.free (place.parent.enter place.name)) := .free passable found
      rw [Place.enter_name notRoot] at last
      exact above.walk_last notRoot last

theorem walk_skipped_iff {links : Nat} {segment : String} {segments : List String}
    (skip : segment = "" ∨ segment = ".") :
    Walk tree purpose links here (segment :: segments) spot
      ↔ Walk tree purpose links here segments spot := by
  constructor
  · intro walk
    generalize whole : segment :: segments = all at walk
    cases walk with
    | arrived => simp at whole
    | skipped _ further =>
        cases whole
        exact further
    | back _ =>
        obtain ⟨named, -⟩ := List.cons.inj whole
        subst named
        simp at skip
    | directory passable _ _ | link passable _ _ | file passable _ | free passable _ =>
        cases whole
        exact absurd skip passable.named
  · exact .skipped skip

theorem walk_text_iff {links : Nat} {place directory : Place} {back : List String} :
    Walk tree purpose links (startOf directory place.text) (Path.segments place.text ++ back) spot
      ↔ Walk tree purpose links Place.root (place.names ++ back) spot := by
  rw [startOf, if_pos (Place.isAbsolute_text place)]
  by_cases atRoot : place = Place.root
  · have segments : Path.segments Place.root.text = ["", ""] := by decide +kernel
    rw [atRoot, segments]
    exact (walk_skipped_iff (Or.inl rfl)).trans (walk_skipped_iff (Or.inl rfl))
  · rw [Place.segments_text atRoot]
    exact walk_skipped_iff (Or.inl rfl)

end FileTree

end AssetCatalog
