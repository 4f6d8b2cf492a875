import AssetCatalog.FileTree.Basic
/-! # What lies where

Each operation on a tree of files is described by what lies at each place afterwards: `put`,
`erase` and `prune` leave everything else as it is, `under` shows a directory from inside, and
`graft` exchanges what lies below a directory and nothing beside it. -/

set_option autoImplicit false

namespace AssetCatalog

namespace Place

@[simp] theorem names_append (top rest : Place) :
    (top.append rest).names = top.names ++ rest.names := rfl

@[simp] theorem append_root (top : Place) : top.append root = top :=
  ext_names (List.append_nil _)

theorem append_inj {top a b : Place} (h : top.append a = top.append b) : a = b := by
  have names := congrArg names h
  simp only [names_append] at names
  exact ext_names (List.append_cancel_left names)

theorem isWithin_append (top rest : Place) : top.isWithin (top.append rest) = true := by
  simp [isWithin, List.isPrefixOf_iff_prefix]

theorem append_eq_self_iff {top rest : Place} : top.append rest = top ↔ rest = root := by
  constructor
  · intro h
    exact append_inj (h.trans (append_root top).symm)
  · rintro rfl
    exact append_root top

theorem isBelow_append {top rest : Place} (h : rest ≠ root) :
    top.isBelow (top.append rest) = true := by
  have differ : top.append rest ≠ top := fun same => h (append_eq_self_iff.mp same)
  simp [isBelow, isWithin_append, differ]

theorem append_dropTop {top place : Place} (h : top.isWithin place = true) :
    top.append (top.dropTop place) = place := by
  obtain ⟨names, eq⟩ := List.isPrefixOf_iff_prefix.mp h
  apply ext_names
  simp only [names_append, dropTop]
  rw [← eq, List.drop_left]

theorem dropTop_append (top rest : Place) : top.dropTop (top.append rest) = rest :=
  append_inj (append_dropTop (isWithin_append top rest))

theorem isBelow_iff {top place : Place} :
    top.isBelow place = true ↔ ∃ rest, rest ≠ root ∧ place = top.append rest := by
  constructor
  · intro h
    simp only [isBelow, Bool.and_eq_true, decide_eq_true_eq] at h
    refine ⟨top.dropTop place, fun atTop => h.2 ?_, (append_dropTop h.1).symm⟩
    have same := append_dropTop h.1
    rw [atTop, append_root] at same
    exact same.symm
  · rintro ⟨rest, h, rfl⟩
    exact isBelow_append h

end Place

namespace FileTree

@[simp] theorem get?_root (tree : FileTree) : tree.get? Place.root = some .directory := by
  simp [get?]

theorem get?_of_ne {tree : FileTree} {place : Place} (h : place ≠ Place.root) :
    tree.get? place = tree.entries.lookup place := by
  simp [get?, h]

theorem get?_erase (tree : FileTree) (place other : Place) (h : place ≠ Place.root) :
    (tree.erase place).get? other = if other = place then none else tree.get? other := by
  rw [erase, get?_without]
  by_cases atRoot : other = Place.root
  · simp [atRoot, h.symm]
  · simp [atRoot]

theorem get?_prune (tree : FileTree) (place other : Place) (h : place ≠ Place.root) :
    (tree.prune place).get? other
      = if place.isWithin other then none else tree.get? other := by
  rw [prune, get?_without]
  by_cases atRoot : other = Place.root
  · have outside : place.isWithin Place.root = false := by
      cases place with
      | mk names ordinary =>
        cases names with
        | nil => exact absurd rfl h
        | cons name names => rfl
    simp [atRoot, outside]
  · simp [atRoot]

/-! ## Parts of a tree -/

theorem lookup_map_place {entries : List (Place × Entry)} {f : Place → Place} {place : Place}
    (h : ∀ other, f other = f place → other = place) :
    (entries.map fun entry => (f entry.1, entry.2)).lookup (f place) = entries.lookup place := by
  induction entries with
  | nil => rfl
  | cons entry rest ih =>
    obtain ⟨other, entry⟩ := entry
    by_cases same : other = place
    · subst same
      simp
    · have differ : (place == other) = false := by simpa using Ne.symm same
      have differ' : (f place == f other) = false := by
        simpa using fun e : f place = f other => same (h other e.symm)
      simp [List.lookup_cons, differ, differ', ih]

theorem lookup_map_of_ne {entries : List (Place × Entry)} {f : Place → Place} {place : Place}
    (h : ∀ entry ∈ entries, f entry.1 ≠ place) :
    (entries.map fun entry => (f entry.1, entry.2)).lookup place = none := by
  induction entries with
  | nil => rfl
  | cons entry rest ih =>
    have differ : (place == f entry.1) = false := by
      simpa using (h entry List.mem_cons_self).symm
    simp only [List.map_cons, List.lookup_cons, differ]
    exact ih fun other member => h other (List.mem_cons_of_mem _ member)

/-- Inside a grafted directory lies what has been grafted. -/
theorem get?_graft_append (tree below : FileTree) (top rest : Place) (h : rest ≠ Place.root) :
    (tree.graft top below).get? (top.append rest) = below.get? rest := by
  have away : top.append rest ≠ Place.root := by
    intro atRoot
    have names := congrArg Place.names atRoot
    simp only [Place.names_append, Place.root, List.append_eq_nil_iff] at names
    exact h (Place.ext_names names.2)
  rw [get?_of_ne away, get?_of_ne h]
  simp only [graft, List.lookup_append]
  rw [lookup_map_place fun other e => Place.append_inj e]
  have kept := lookup_filter (fun place => decide (place = Place.root)) rest below.entries
  simp only [without]
  rw [kept]
  have gone := lookup_filter top.isBelow (top.append rest) tree.entries
  rw [gone]
  simp [h, Place.isBelow_append h]

theorem get?_graft_of_not_below {tree below : FileTree} {top place : Place}
    (h : top.isBelow place = false) : (tree.graft top below).get? place = tree.get? place := by
  by_cases atRoot : place = Place.root
  · simp [atRoot]
  · rw [get?_of_ne atRoot, get?_of_ne atRoot]
    simp only [graft, List.lookup_append]
    rw [lookup_map_of_ne]
    · have kept := lookup_filter top.isBelow place tree.entries
      simp only [without]
      rw [kept]
      simp [h]
    · intro entry member eq
      have kept : entry.1 ≠ Place.root := by
        simp only [without, List.mem_filter] at member
        simpa using member.2
      rw [← eq, Place.isBelow_append kept] at h
      exact Bool.noConfusion h

theorem get?_under (tree : FileTree) (top rest : Place) (h : rest ≠ Place.root) :
    (tree.under top).get? rest = tree.get? (top.append rest) := by
  have away : top.append rest ≠ Place.root := by
    intro atRoot
    have names := congrArg Place.names atRoot
    simp only [Place.names_append, Place.root, List.append_eq_nil_iff] at names
    exact h (Place.ext_names names.2)
  rw [get?_of_ne h, get?_of_ne away]
  simp only [under]
  induction tree.entries with
  | nil => rfl
  | cons entry others ih =>
    obtain ⟨place, entry⟩ := entry
    by_cases below : top.isBelow place = true
    · have within : top.isWithin place = true := by
        simp only [Place.isBelow, Bool.and_eq_true] at below
        exact below.1
      simp only [List.filter_cons, below, if_true, List.map_cons, List.lookup_cons, ih]
      by_cases same : place = top.append rest
      · subst same
        simp [Place.dropTop_append]
      · have differ : (top.append rest == place) = false := by simpa using Ne.symm same
        have differ' : (rest == top.dropTop place) = false := by
          refine beq_eq_false_iff_ne.mpr fun eq => same ?_
          rw [eq, Place.append_dropTop within]
        simp [differ, differ']
    · have differ : (top.append rest == place) = false := by
        refine beq_eq_false_iff_ne.mpr fun eq => below ?_
        rw [← eq, Place.isBelow_append h]
      simp only [List.filter_cons, below, List.lookup_cons, differ]
      exact ih

end FileTree

end AssetCatalog
