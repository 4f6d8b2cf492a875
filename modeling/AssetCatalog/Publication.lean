import AssetCatalog.Layout
import AssetCatalog.Reply
/-! # What a compile publishes

A compile puts out three files, told apart by their names: a partial information list, which is
dropped, the icon bundle and the asset archive.  `Publication.plan` judges the files that a
reply lists, all of them before any is copied, and says where each one goes; its steps come in
the order of the list.  The first file in that order with an unknown name, or with a role that
an earlier file has, is the one a refusal names. -/

set_option autoImplicit false

namespace AssetCatalog

inductive OutputRole where
  | partialInfoList
  | iconBundle
  | assetArchive
  deriving DecidableEq

namespace OutputRole

def all : List OutputRole := [partialInfoList, iconBundle, assetArchive]

def fileName : OutputRole → String
  | partialInfoList => "partial.plist"
  | iconBundle => "AppIcon.icns"
  | assetArchive => "Assets.car"

def label : OutputRole → String
  | partialInfoList => "partial-info-plist"
  | iconBundle => "icon-bundle"
  | assetArchive => "asset-archive"

def ofFileName? (name : String) : Option OutputRole := all.find? fun role => role.fileName = name

def destination? (layout : Layout) : OutputRole → Option Place
  | partialInfoList => none
  | iconBundle => some layout.iconBundle
  | assetArchive => some layout.assetArchive

end OutputRole

structure CopyStep where
  role : OutputRole
  source : String
  destination : String
  deriving DecidableEq

namespace Publication

inductive Fault where
  | noResults
  | noFiles
  | count (files : List String)
  | unexpected (file : String) (files : List String)
  | duplicate (file : String) (files : List String)
  | incomplete
  deriving DecidableEq

def expectedCount : Nat := OutputRole.all.length

namespace Fault

def message : Fault → String
  | noResults => "actool had no compilation results"
  | noFiles => "actool had no output files"
  | count files =>
    "expected actool to output " ++ toString expectedCount ++ " files, but it instead output "
      ++ toString files.length ++ " files, namely " ++ (Value.texts files).compact
  | unexpected file _ => "Unexpected output file: " ++ file
  | duplicate file _ => "Duplicate output file: " ++ file
  | incomplete => "actool did not output both an icon bundle and an asset archive"

def files? : Fault → Option (List String)
  | count files | unexpected _ files | duplicate _ files => some files
  | _ => none

end Fault

/-- The step for a file with a role; none if the file is dropped. -/
def stepFor (layout : Layout) (role : OutputRole) (file : String) : Option CopyStep :=
  (role.destination? layout).map fun destination => ⟨role, file, destination.text⟩

def planFrom (layout : Layout) (files : List String) (seen : List OutputRole) :
    List String → Except Fault (List CopyStep)
  | [] => .ok []
  | file :: rest =>
    match OutputRole.ofFileName? (Path.baseName file) with
    | none => .error (.unexpected file files)
    | some role =>
      if role ∈ seen then .error (.duplicate file files)
      else (planFrom layout files (role :: seen) rest).map fun steps =>
        (stepFor layout role file).toList ++ steps

/-- What is copied where, for the results of the compile of a catalog. -/
def plan (layout : Layout) (results : Option CompilationResults) :
    Except Fault (List CopyStep) :=
  match results with
  | none => .error .noResults
  | some ⟨none⟩ => .error .noFiles
  | some ⟨some files⟩ =>
    if files.length = expectedCount then planFrom layout files [] files
    else .error (.count files)

structure Destinations where
  iconBundle : String
  assetArchive : String
  deriving DecidableEq

def destinationOf (role : OutputRole) (steps : List CopyStep) : Option String :=
  (steps.find? fun step => step.role = role).map CopyStep.destination

def destinations (steps : List CopyStep) : Except Fault Destinations :=
  match destinationOf .iconBundle steps, destinationOf .assetArchive steps with
  | some iconBundle, some assetArchive => .ok ⟨iconBundle, assetArchive⟩
  | _, _ => .error .incomplete

end Publication

end AssetCatalog
