import AssetCatalog.FileTree.Lemmas
import AssetCatalog.FileTree.Staging
/-! # Trees compared place by place

Two trees are the `Same` when the same lies at every place of them.  A tree is `Grounded` when
everything in it lies in a directory, as it does in every file system, so nothing lies within a
place that is free.  A tree is `LinkFree` when no link lies anywhere; everything that is done to
trees keeps it so, except what brings links along. -/

set_option autoImplicit false

namespace AssetCatalog

namespace Place

theorem isWithin_iff {top place : Place} :
    top.isWithin place = true ↔ ∃ rest, place.names = top.names ++ rest := by
  rw [isWithin, List.isPrefixOf_iff_prefix]
  constructor
  · rintro ⟨rest, eq⟩
    exact ⟨rest, eq.symm⟩
  · rintro ⟨rest, eq⟩
    exact ⟨rest, eq.symm⟩

theorem isWithin_self (top : Place) : top.isWithin top = true :=
  isWithin_iff.mpr ⟨[], (List.append_nil _).symm⟩

theorem isWithin_trans {a b c : Place} (first : a.isWithin b = true)
    (second : b.isWithin c = true) : a.isWithin c = true := by
  obtain ⟨rest, names⟩ := isWithin_iff.mp first
  obtain ⟨rest', names'⟩ := isWithin_iff.mp second
  rw [isWithin_iff]
  refine ⟨rest ++ rest', ?_⟩
  rw [names', names, List.append_assoc]

theorem isWithin_enter {top : Place} {name : String} (ordinary : Ordinary name) :
    top.isWithin (top.enter name) = true := by
  rw [isWithin_iff]
  refine ⟨[name], ?_⟩
  simp only [enter, if_neg ordinary.2.2.1, dif_pos ordinary]

theorem isWithin_parent {top place : Place} (within : top.isWithin place = true)
    (differ : place ≠ top) : top.isWithin place.parent = true := by
  obtain ⟨rest, names⟩ := isWithin_iff.mp within
  have some : rest ≠ [] := by
    rintro rfl
    exact differ (ext_names (names.trans (List.append_nil _)))
  rw [isWithin_iff]
  refine ⟨rest.dropLast, ?_⟩
  rw [names_parent, names, List.dropLast_append_of_ne_nil some]

end Place

namespace FileTree

def Same (a b : FileTree) : Prop := ∀ place, a.get? place = b.get? place

def LinkFree (tree : FileTree) : Prop := ∀ place target, tree.get? place ≠ some (.link target)

/-- Everything lies in a directory. -/
def Grounded (tree : FileTree) : Prop :=
  ∀ place entry, tree.get? place = some entry → tree.get? place.parent = some .directory

theorem Same.refl (tree : FileTree) : tree.Same tree := fun _ => rfl

theorem ne_root_of_not_directory {tree : FileTree} {place : Place}
    (other : tree.get? place ≠ some .directory) : place ≠ Place.root := by
  rintro rfl
  exact other (get?_root tree)

theorem ne_root_of_free {tree : FileTree} {place : Place} (free : tree.get? place = none) :
    place ≠ Place.root := by
  have other : tree.get? place ≠ some .directory := by simp [free]
  exact ne_root_of_not_directory other

theorem Grounded.get?_of_isBelow {tree : FileTree} (grounded : tree.Grounded) {top place : Place}
    (other : tree.get? top ≠ some .directory) (below : top.isBelow place = true) :
    tree.get? place = none := by
  -- By how far the place lies below: whoever lies there has a directory above.
  simp only [Place.isBelow, Bool.and_eq_true, decide_eq_true_eq] at below
  obtain ⟨within, differ⟩ := below
  obtain ⟨rest, names⟩ := Place.isWithin_iff.mp within
  induction count : rest.length generalizing rest place with
  | zero =>
      rw [List.eq_nil_of_length_eq_zero count, List.append_nil] at names
      exact absurd (Place.ext_names names) differ
  | succ length ih =>
      have above : tree.get? place.parent ≠ some .directory := by
        by_cases same : place.parent = top
        · rw [same]
          exact other
        · have some : rest ≠ [] := by
            rintro rfl
            cases count
          have free : tree.get? place.parent = none := by
            apply ih (Place.isWithin_parent within differ) same rest.dropLast
            · rw [Place.names_parent, names, List.dropLast_append_of_ne_nil some]
            · rw [List.length_dropLast, count]
              rfl
          simp [free]
      cases found : tree.get? place with
      | none => rfl
      | some entry => exact absurd (grounded place entry found) above

/-- Nothing lies within a free place of a file system. -/
theorem Grounded.get?_of_isWithin {tree : FileTree} (grounded : tree.Grounded) {top : Place}
    (free : tree.get? top = none) {place : Place} (within : top.isWithin place = true) :
    tree.get? place = none := by
  by_cases same : place = top
  · rw [same]
    exact free
  · have below : top.isBelow place = true := by simp [Place.isBelow, within, same]
    have other : tree.get? top ≠ some .directory := by simp [free]
    exact grounded.get?_of_isBelow other below

theorem Grounded.get?_above {tree : FileTree} (grounded : tree.Grounded) {top place : Place}
    (within : top.isWithin place = true) (found : tree.get? place = some .directory) :
    tree.get? top = some .directory := by
  by_cases same : place = top
  · rw [← same]
    exact found
  · have below : top.isBelow place = true := by simp [Place.isBelow, within, same]
    refine Decidable.byContradiction fun other => ?_
    rw [grounded.get?_of_isBelow other below] at found
    cases found

/-! ## Trees that are written down

What holds of all entries that a tree lists holds of all that lies anywhere. -/

theorem mem_of_get? {tree : FileTree} {place : Place} {entry : Entry}
    (found : tree.get? place = some entry) (notRoot : place ≠ Place.root) :
    (place, entry) ∈ tree.entries := by
  rw [get?_of_ne notRoot] at found
  obtain ⟨before, after, split, _⟩ := List.lookup_eq_some_iff.mp found
  rw [split]
  exact List.mem_append_right _ List.mem_cons_self

theorem grounded_of_entries {tree : FileTree}
    (directories : ∀ entry ∈ tree.entries, tree.get? entry.1.parent = some .directory) :
    tree.Grounded := by
  intro place entry found
  by_cases atRoot : place = Place.root
  · subst atRoot
    exact get?_root tree
  · exact directories _ (mem_of_get? found atRoot)

theorem linkFree_of_entries {tree : FileTree}
    (plain : ∀ entry ∈ tree.entries, ∀ target, entry.2 ≠ .link target) : tree.LinkFree := by
  intro place target found
  have notRoot : place ≠ Place.root := by
    apply ne_root_of_not_directory
    rw [found]
    simp
  exact plain _ (mem_of_get? found notRoot) target rfl

/-! ## What keeps a tree without links -/

theorem LinkFree.put {tree : FileTree} (linkFree : tree.LinkFree) {place : Place} {entry : Entry}
    (notRoot : place ≠ Place.root) (plain : ∀ target, entry ≠ .link target) :
    (tree.put place entry).LinkFree := by
  intro other target
  rw [get?_put tree place other entry notRoot]
  split
  · intro found
    exact plain target (Option.some.inj found)
  · exact linkFree other target

theorem LinkFree.graft {tree below : FileTree} (linkFree : tree.LinkFree)
    (belowLinkFree : below.LinkFree) (top : Place) : (tree.graft top below).LinkFree := by
  intro place target
  cases inside : top.isBelow place with
  | false =>
      rw [get?_graft_of_not_below inside]
      exact linkFree place target
  | true =>
      obtain ⟨rest, notRoot, rfl⟩ := Place.isBelow_iff.mp inside
      rw [get?_graft_append tree below top rest notRoot]
      exact belowLinkFree rest target

/-! ## Staging -/

theorem lookup_map_entry (change : Place → Entry → Entry) (place : Place)
    (entries : List (Place × Entry)) :
    (entries.map fun (name, entry) => (name, change name entry)).lookup place
      = (entries.lookup place).map (change place) := by
  induction entries with
  | nil => rfl
  | cons first rest ih =>
      obtain ⟨name, entry⟩ := first
      simp only [List.map_cons, List.lookup_cons, ih]
      cases same : place == name with
      | false => rfl
      | true =>
          rw [beq_iff_eq] at same
          subst same
          rfl

theorem get?_stage {tree staged : FileTree} {package place : Place}
    (packed : tree.stage package place = .ok staged) (notRoot : place ≠ Place.root)
    {other : Place} (outside : place.isWithin other = false) :
    staged.get? other = tree.get? other := by
  have differ : other ≠ place := by
    rintro rfl
    rw [Place.isWithin_self] at outside
    cases outside
  unfold stage at packed
  split at packed
  · cases packed
  · cases packed
  · cases packed
    rw [get?_put _ _ _ _ notRoot, if_neg differ]
  · cases packed
    have notBelow : place.isBelow other = false := by
      rw [Place.isBelow, outside, Bool.false_and]
    rw [get?_graft_of_not_below notBelow, get?_put _ _ _ _ notRoot, if_neg differ]

theorem LinkFree.stage {tree staged : FileTree} (linkFree : tree.LinkFree) {package place : Place}
    (packed : tree.stage package place = .ok staged) (notRoot : place ≠ Place.root) :
    staged.LinkFree := by
  unfold FileTree.stage at packed
  split at packed
  · cases packed
  · cases packed
  · cases packed
    exact linkFree.put notRoot (fun _ => by simp)
  · next source _ =>
    cases packed
    refine (linkFree.put notRoot fun _ => by simp).graft ?_ place
    intro rest target
    by_cases atRoot : rest = Place.root
    · subst atRoot
      rw [get?_root]
      simp
    · rw [get?_of_ne atRoot, lookup_map_entry (fun name => tree.copied (source.append name).parent),
        ← get?_of_ne atRoot, get?_under tree source rest atRoot]
      cases found : tree.get? (source.append rest) with
      | none => simp
      | some entry =>
          cases entry with
          | file content => simp [copied]
          | directory => simp [copied]
          | link target => exact absurd found (linkFree _ target)

end FileTree

end AssetCatalog
