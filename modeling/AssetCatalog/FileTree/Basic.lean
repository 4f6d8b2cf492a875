import AssetCatalog.Path
/-! # Trees of files

A tree of files says what lies at each place: a file with its content, a directory, a link with
the path it points to, or nothing.  The root is a directory.  Putting and removing entries
changes what lies at the places concerned and nothing else; the laws of `get?` say so.

`FileTree.under` cuts out what lies below a place as a tree of its own, and `FileTree.graft` puts
a tree below a place in exchange for what was there. -/

set_option autoImplicit false

namespace AssetCatalog

inductive Entry where
  | file (content : String)
  | directory
  | link (target : String)
  deriving DecidableEq

/-- Entries at places; of two at one place the first one counts. -/
structure FileTree where
  entries : List (Place × Entry)
  deriving DecidableEq

namespace Place

def isWithin (top place : Place) : Bool := top.names.isPrefixOf place.names

def isBelow (top place : Place) : Bool := top.isWithin place && decide (place ≠ top)

/-- The place that is found from `top` as `rest` is found from the root. -/
def append (top rest : Place) : Place :=
  ⟨top.names ++ rest.names, fun name h =>
    (List.mem_append.mp h).elim (top.ordinary name) (rest.ordinary name)⟩

def dropTop (top place : Place) : Place :=
  ⟨place.names.drop top.names.length, fun name h =>
    place.ordinary name ((List.drop_sublist _ _).mem h)⟩

end Place

namespace FileTree

def empty : FileTree := ⟨[]⟩

def get? (tree : FileTree) (place : Place) : Option Entry :=
  if place = Place.root then some .directory else tree.entries.lookup place

def without (tree : FileTree) (which : Place → Bool) : FileTree :=
  ⟨tree.entries.filter fun entry => !which entry.1⟩

def put (tree : FileTree) (place : Place) (entry : Entry) : FileTree :=
  ⟨(place, entry) :: (tree.without (· = place)).entries⟩

def erase (tree : FileTree) (place : Place) : FileTree := tree.without (· = place)

def prune (tree : FileTree) (place : Place) : FileTree := tree.without place.isWithin

def under (tree : FileTree) (top : Place) : FileTree :=
  ⟨(tree.entries.filter fun entry => top.isBelow entry.1).map fun entry =>
    (top.dropTop entry.1, entry.2)⟩

/-- The tree with the entries of another one below a place, and nothing else there. -/
def graft (tree : FileTree) (top : Place) (below : FileTree) : FileTree :=
  ⟨(below.without (· = Place.root)).entries.map (fun entry => (top.append entry.1, entry.2))
    ++ (tree.without top.isBelow).entries⟩

/-! ## What lies where -/

theorem lookup_filter (which : Place → Bool) (place : Place) (entries : List (Place × Entry)) :
    (entries.filter fun entry => !which entry.1).lookup place
      = if which place then none else entries.lookup place := by
  induction entries with
  | nil => simp
  | cons entry rest ih =>
    obtain ⟨other, entry⟩ := entry
    by_cases same : place = other
    · subst same
      cases kept : which place <;> simp [kept, ih]
    · have differ : (place == other) = false := by simpa using same
      cases kept : which other <;> simp [List.lookup_cons, kept, differ, ih]

theorem get?_without (tree : FileTree) (which : Place → Bool) (place : Place) :
    (tree.without which).get? place
      = if place = Place.root then some .directory
        else if which place then none else tree.get? place := by
  unfold get? without
  split
  · rfl
  · exact lookup_filter which place tree.entries

theorem get?_put (tree : FileTree) (place other : Place) (entry : Entry) (h : place ≠ Place.root) :
    (tree.put place entry).get? other = if other = place then some entry else tree.get? other := by
  by_cases same : other = place
  · subst same
    simp [get?, put, h]
  · by_cases atRoot : other = Place.root
    · simp [get?, atRoot, h.symm]
    · have differ : (other == place) = false := by simpa using same
      simp only [get?, put, without, atRoot, if_false, List.lookup_cons, differ, same]
      simpa [same] using lookup_filter (fun p => decide (p = place)) other tree.entries

end FileTree

end AssetCatalog
