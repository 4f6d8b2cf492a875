import AssetCatalog.FileTree.Walk
/-! # Copying one file

The source is looked for first, then the place of the copy.  A copy takes the place of a file
that is there already and follows a link that stands there; a file is not copied onto itself.
A directory can be opened but not read, so as a source it is refused only after the place of
the copy has been made ready, and what was made ready is taken away again. -/

set_option autoImplicit false

namespace AssetCatalog.FileTree

/-- The place that the last name of a path has in its own directory, links at the end not
followed. -/
def ownPlace (tree : FileTree) (directory : Place) (path : String) : Option Place :=
  let names := Path.segments path
  match tree.follow .use mostLinks (startOf directory path) names.dropLast with
  | .ok (.directory place) => some (place.enter (names.getLast?.getD ""))
  | _ => none

/-- The tree after a source that cannot be read, with the copy started at `place`. -/
def withdraw (tree : FileTree) (directory : Place) (destination : String) (place : Place) :
    FileTree :=
  let opened := tree.put place (.file "")
  match opened.ownPlace directory destination with
  | some own => opened.erase own
  | none => opened

def writeCopy (tree : FileTree) (directory : Place) (source : Spot) (destination : String)
    (place : Place) : FileTree × Except SystemFault Unit :=
  match source with
  | .file source content =>
    if source = place then (tree, .ok ()) else (tree.put place (.file content), .ok ())
  | .directory _ => (tree.withdraw directory destination place, .error .isDirectory)
  | .free _ => (tree, .error .missing)

/-- The tree after the file at one path was to be copied to another one, both seen from a
working directory, and whether the copy was refused. -/
def copyFile (tree : FileTree) (directory : Place) (source destination : String) :
    FileTree × Except SystemFault Unit :=
  match tree.locate .use directory source with
  | .error fault => (tree, .error fault)
  | .ok (.free _) => (tree, .error .missing)
  | .ok found =>
    match tree.locate .make directory destination with
    | .error fault => (tree, .error fault)
    | .ok (.directory _) => (tree, .error .isDirectory)
    | .ok (.file place _) => tree.writeCopy directory found destination place
    | .ok (.free place) => tree.writeCopy directory found destination place

end AssetCatalog.FileTree
