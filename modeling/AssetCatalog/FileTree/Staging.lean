import AssetCatalog.FileTree.Walk
/-! # Copying a package

A package is a file or a directory, or a link to one of them.  Its copy has the same files and
directories.  A link inside a package cannot be copied as it is, because a path relative to the
package means something else at the copy: the copy of a link points to the place where the link
leads, in full. -/

set_option autoImplicit false

namespace AssetCatalog.FileTree

/-- The text of the place that the segments name from a place, nothing looked up.  A slash at
the end tells that a directory is meant. -/
def spelled (place : Place) (segments : List String) : String :=
  let text := (segments.foldl Place.enter place).text
  match segments.getLast? with
  | some last => if ["", ".", ".."].contains last ∧ text ≠ "/" then text ++ "/" else text
  | none => text

/-- The path of the place that the segments lead to from a directory: as far as there is
something on the way links are followed, and the rest is taken as it is spelled. -/
def settle (tree : FileTree) (here : Place) : List String → String
  | [] => here.text
  | segment :: rest =>
    match tree.follow .use mostLinks here [segment] with
    | .ok (.directory place) => tree.settle place rest
    | .ok (.file place _) => spelled place rest
    | _ => spelled here (segment :: rest)

def copied (tree : FileTree) (directory : Place) : Entry → Entry
  | .link target =>
    .link (tree.settle (startOf directory target) (Path.segments target))
  | entry => entry

/-- The tree with a copy of what the path of a package leads to at a free place. -/
def stage (tree : FileTree) (package place : Place) : Except SystemFault FileTree :=
  match tree.locate .use Place.root package.text with
  | .error fault => .error fault
  | .ok (.free _) => .error .missing
  | .ok (.file _ content) => .ok (tree.put place (.file content))
  | .ok (.directory source) =>
    let below := (tree.under source).entries.map fun (name, entry) =>
      (name, tree.copied (source.append name).parent entry)
    .ok ((tree.put place .directory).graft place ⟨below⟩)

end AssetCatalog.FileTree
