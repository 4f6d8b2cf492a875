import AssetCatalog.Text.Split
/-! # Paths

A `Place` is a directory or file named from the root down, by ordinary names: none is empty,
a dot or two dots, and none holds a slash.  `Place.enter` follows one segment of a path, so
`Place.resolve` takes any text to the place it names, seen from a working directory, without a
look at any file system.

Texts that are not resolved are handled segment by segment: `Path.baseName` is the last
segment, `Path.join` the normal form of one text behind another, and `Place.pathTo` the way
from one place to another. -/

set_option autoImplicit false

namespace AssetCatalog

/-- A name that a directory can list. -/
def Ordinary (name : String) : Prop :=
  name ≠ "" ∧ name ≠ "." ∧ name ≠ ".." ∧ '/' ∉ name.toList

instance (name : String) : Decidable (Ordinary name) :=
  inferInstanceAs (Decidable (name ≠ "" ∧ name ≠ "." ∧ name ≠ ".." ∧ '/' ∉ name.toList))

/-- A place named from the root down. -/
structure Place where
  names : List String
  ordinary : ∀ name ∈ names, Ordinary name
  deriving DecidableEq

namespace Path

def segments (path : String) : List String := Text.splitAt '/' path

def isAbsolute (path : String) : Bool := path.toList.head? = some '/'

def baseName (path : String) : String :=
  (((segments path).filter (· ≠ "")).getLast?).getD ""

/-! ## Normal forms -/

/-- One more segment behind segments in normal form, which are kept in reverse.  Two dots take
back an ordinary segment; where there is none they stay, unless the path starts at the root. -/
def pushSegment (rooted : Bool) (reversed : List String) (segment : String) : List String :=
  if segment = "" ∨ segment = "." then reversed
  else if segment = ".." then
    match reversed with
    | [] => if rooted then [] else [".."]
    | last :: rest => if last = ".." then ".." :: reversed else rest
  else segment :: reversed

/-- The path without empty segments, dots and turns; a slash at its end stays. -/
def normalize (path : String) : String :=
  let rooted := isAbsolute path
  let kept := ((segments path).foldl (pushSegment rooted) []).reverse
  let body := "/".intercalate kept
  let slash := if path.toList.getLast? = some '/' ∧ kept ≠ [] then "/" else ""
  if rooted then "/" ++ body ++ slash
  else if kept = [] then (if path.toList.getLast? = some '/' then "./" else ".")
  else body ++ slash

/-- The normal form of `rest` behind `base`, where empty texts count for nothing. -/
def join (base rest : String) : String :=
  normalize ("/".intercalate ([base, rest].filter (· ≠ "")))

end Path

namespace Place

theorem ext_names {a b : Place} (h : a.names = b.names) : a = b := by
  cases a; cases b; cases h; rfl

def root : Place := ⟨[], by simp⟩

def text (place : Place) : String :=
  match place.names with
  | [] => "/"
  | names => "/" ++ "/".intercalate names

def parent (place : Place) : Place :=
  ⟨place.names.dropLast, fun name h => place.ordinary name ((List.dropLast_sublist _).mem h)⟩

@[simp] theorem names_parent (place : Place) : place.parent.names = place.names.dropLast := rfl

def name (place : Place) : String := (place.names.getLast?).getD ""

def enter (place : Place) (segment : String) : Place :=
  if segment = ".." then place.parent
  else if h : Ordinary segment then
    ⟨place.names ++ [segment], by
      intro name hn
      rcases List.mem_append.mp hn with hn | hn
      · exact place.ordinary name hn
      · exact List.mem_singleton.mp hn ▸ h⟩
  else place

def resolve (directory : Place) (path : String) : Place :=
  (Path.segments path).foldl enter (if Path.isAbsolute path then root else directory)

def withoutShared : List String → List String → List String × List String
  | a :: as, b :: bs => if a = b then withoutShared as bs else (a :: as, b :: bs)
  | as, bs => (as, bs)

/-- The way from one place to another; empty when they are the same. -/
def pathTo (start goal : Place) : String :=
  let (up, down) := withoutShared start.names goal.names
  "/".intercalate (up.map (fun _ => "..") ++ down)

end Place

example : Path.normalize "a/../../b//c/." = "../b/c" := by decide +kernel
example : Path.join "src/" "build/x" = "src/build/x" := by decide +kernel
example : (Place.root.resolve "/a/./b/../c//").text = "/a/c" := by decide +kernel
example : Path.baseName "/t/partial.plist//" = "partial.plist" := by decide +kernel

end AssetCatalog
