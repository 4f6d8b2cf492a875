import AssetCatalog.FileTree.Basic
import AssetCatalog.FileTree.Fault
/-! # Following paths through a tree of files

A path is followed segment by segment from a directory.  Links are followed wherever they
stand, at the end too, and no more than forty of them on one way.  A path leads to a file, to a
directory, or to a free place in a directory that exists; anything else is refused.  A name that
is longer than names may be is refused where it is looked up, and a path at once. -/

set_option autoImplicit false

namespace AssetCatalog

/-- Where a path leads. -/
inductive Spot where
  | file (place : Place) (content : String)
  | directory (place : Place)
  | free (place : Place)
  deriving DecidableEq

/-- What a path is followed for.  One that is to be made may not end in a slash. -/
inductive Purpose where
  | use
  | make
  deriving DecidableEq

namespace FileTree

def startOf (directory : Place) (path : String) : Place :=
  if Path.isAbsolute path then Place.root else directory

def longestName : Nat := 255

def longestPath : Nat := 4095

/-- Follows the segments from the directory `here`; `onLink` goes on where a link turns off. -/
def descend (tree : FileTree) (purpose : Purpose)
    (onLink : Place → List String → Except SystemFault Spot) (here : Place) :
    List String → Except SystemFault Spot
  | [] => .ok (.directory here)
  | segment :: rest =>
    if segment = "" ∨ segment = "." then tree.descend purpose onLink here rest
    else if segment = ".." then tree.descend purpose onLink here.parent rest
    else if purpose = .make ∧ rest ≠ [] ∧ rest.all (· = "") then .error .isDirectory
    else if longestName < segment.utf8ByteSize then .error .nameTooLong
    else
      match tree.get? (here.enter segment), rest with
      | some .directory, _ => tree.descend purpose onLink (here.enter segment) rest
      | some (.link target), _ => onLink (startOf here target) (Path.segments target ++ rest)
      | some (.file content), [] => .ok (.file (here.enter segment) content)
      | some (.file _), _ :: _ => .error .notDirectory
      | none, [] => .ok (.free (here.enter segment))
      | none, _ :: _ => .error .missing

def follow (tree : FileTree) (purpose : Purpose) :
    Nat → Place → List String → Except SystemFault Spot
  | 0 => tree.descend purpose fun _ _ => .error .tooManyLinks
  | links + 1 => tree.descend purpose (tree.follow purpose links)

def mostLinks : Nat := 40

def locate (tree : FileTree) (purpose : Purpose) (directory : Place) (path : String) :
    Except SystemFault Spot :=
  if path = "" then .error .missing
  else if longestPath < path.utf8ByteSize then .error .nameTooLong
  else tree.follow purpose mostLinks (startOf directory path) (Path.segments path)

def isOccupied (tree : FileTree) (directory : Place) (path : String) : Bool :=
  match tree.locate .use directory path with
  | .ok (.file _ _) | .ok (.directory _) => true
  | _ => false

/-- The content of the file that a path leads to.  A directory is refused only when it is read,
so that refusal does not name the path. -/
def readFile (tree : FileTree) (directory : Place) (path : String) :
    Except SystemFailure String :=
  let opening : String := "open '" ++ path ++ "'"
  match SystemFailure.ofArguments? [("path", path)], tree.locate .use directory path with
  | some failure, _ => .error failure
  | none, .ok (.file _ content) => .ok content
  | none, .ok (.directory _) => .error (.refused .isDirectory "read")
  | none, .ok (.free _) => .error (.refused .missing opening)
  | none, .error fault => .error (.refused fault opening)

end FileTree

end AssetCatalog
