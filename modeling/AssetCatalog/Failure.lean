import AssetCatalog.Publication
import AssetCatalog.Report
import AssetCatalog.Version
import AssetCatalog.FileTree.Fault
/-! # Failures

A `Cause` is why a run ends before its time.  Nearly every cause makes a `Failure`: a message
with a category, which has a label for whoever reads it, with details for a program, and with
the report where a reply was judged unclean.  Refusals of the file system, and whatever a runner
breaks down with, have a message and no category. -/

set_option autoImplicit false

namespace AssetCatalog

inductive Category where
  | capability
  | configuration
  | format
  | input
  | compilation
  deriving DecidableEq

def Category.label : Category → String
  | .capability => "actool is unavailable or too old"
  | .configuration => "Build configuration problem"
  | .format => "Badly named asset catalog"
  | .input => "Missing input"
  | .compilation => "actool compilation failed"

/-- The families of failures.  What goes wrong with one catalog is a family within the family of
all, and two more families lie within that one. -/
inductive Family where
  | any
  | capability
  | configuration
  | catalog
  | format
  | compilation
  deriving DecidableEq

namespace Family

def all : List Family := [any, catalog, capability, configuration, format, compilation]

def memberships : Family → List Family
  | any => [any]
  | capability => [any, capability]
  | configuration => [any, configuration]
  | catalog => [any, catalog]
  | format => [any, catalog, format]
  | compilation => [any, catalog, compilation]

def category? : Family → Option Category
  | capability => some .capability
  | configuration => some .configuration
  | format => some .format
  | compilation => some .compilation
  | any | catalog => none

end Family

structure Failure where
  family : Family
  category : Category
  message : String
  details : Option (List (String × Value))
  report : Option Report

def Failure.display (failure : Failure) : String :=
  failure.category.label ++ "\n" ++ failure.message

/-- Why a run ends before its time. -/
inductive Cause where
  | badName (fault : NameFault)
  | iconMissing (layout : Layout)
  | queryFailed (exitCode : Int) (errorOutput : String)
  | queryUnreadable (fault : PropertyList.Fault) (errorOutput : String)
  | versionMissing (issues : List Issue)
  | versionUnrecognized (reported : String)
  | tooOld (detected required : Version)
  | configurationUnreadable (path : String) (failure : SystemFailure)
  | targetCount (source : String) (count : Nat)
  | replyUnreadable (exitCode : Int) (errorOutput : String) (fault : PropertyList.Fault)
  | replyMisshapen (exitCode : Int) (errorOutput : String) (issues : List Issue)
  | unclean (catalog : Place) (report : Report)
  | unpublished (fault : Publication.Fault)
  | system (failure : SystemFailure)
  | brokenDown (message : String)

namespace NameFault

def message : NameFault → String
  | suffix _ => "Asset catalog filename must have " ++ catalogSuffix ++ " suffix"
  | separators _ =>
    "Asset catalog filename must have at most one " ++ String.ofList [tagSeparator]

def details : NameFault → List (String × Value)
  | suffix path => [("catalogPath", .text path)]
  | separators baseName => [("baseName", .text baseName)]

end NameFault

namespace Cause

def targetMessage (source : String) (count : Nat) : String :=
  match count with
  | 0 => "No mac_deployment_target assignment found in " ++ source
  | count => "Found " ++ toString count ++ " mac_deployment_target assignments in " ++ source
      ++ "; expected exactly one"

def tooOldMessage (detected required : Version) : String :=
  "actool is too old; it is version " ++ detected.text ++ " but at least version "
    ++ required.text ++ " is required"

def unreadableMessage (exitCode : Int) (errorOutput : String) (fault : PropertyList.Fault) :
    String :=
  "actool returned unreadable output (exit code " ++ toString exitCode ++ "): " ++ fault.message
    ++ "\nstderr: " ++ errorOutput

def message : Cause → String
  | badName fault => fault.message
  | iconMissing layout => "Icon package not found: " ++ layout.iconPackage.text
  | queryFailed exitCode _ =>
    "actool version query failed with exit code " ++ toString exitCode
  | queryUnreadable fault _ =>
    "actool version query returned unreadable output: " ++ fault.message
  | versionMissing _ => "actool version query returned no short-bundle-version"
  | versionUnrecognized reported =>
    "actool reported an unrecognized version \"" ++ reported ++ "\""
  | tooOld detected required => tooOldMessage detected required
  | configurationUnreadable path failure =>
    "Cannot read build configuration " ++ path ++ ": " ++ failure.message
  | targetCount source count => targetMessage source count
  | replyUnreadable exitCode errorOutput fault => unreadableMessage exitCode errorOutput fault
  | replyMisshapen _ _ issues =>
    "actool returned output of an unexpected shape: "
      ++ "; ".intercalate (issues.map Issue.message)
  | unclean _ report => report.text
  | unpublished fault => fault.message
  | system failure => failure.message
  | brokenDown message => message

def category? : Cause → Option Category
  | badName _ => some .format
  | iconMissing _ => some .input
  | queryFailed _ _ | queryUnreadable _ _ | versionMissing _ | versionUnrecognized _
  | tooOld _ _ => some .capability
  | configurationUnreadable _ _ | targetCount _ _ => some .configuration
  | replyUnreadable _ _ _ | replyMisshapen _ _ _ | unclean _ _ | unpublished _ =>
    some .compilation
  | system _ | brokenDown _ => none

/-- The family of the failures of a category that are not more than that. -/
def familyOf : Category → Family
  | .capability => .capability
  | .configuration => .configuration
  | .format => .format
  | .input => .catalog
  | .compilation => .compilation

def outcomeDetails (exitCode : Int) (errorOutput : String) : List (String × Value) :=
  [("exitCode", .ofInt exitCode), ("stderr", .text errorOutput)]

def details : Cause → Option (List (String × Value))
  | badName fault => some fault.details
  | iconMissing layout => some
    [("catalogPath", .text layout.catalog.text),
      ("iconPackagePath", .text layout.iconPackage.text)]
  | queryFailed exitCode errorOutput => some (outcomeDetails exitCode errorOutput)
  | queryUnreadable _ errorOutput => some [("stderr", .text errorOutput)]
  | versionMissing issues => some [("issues", .texts (issues.map Issue.message))]
  | versionUnrecognized reported => some [("reported", .text reported)]
  | tooOld detected required => some
    [("detected", .text detected.text), ("required", .text required.text)]
  | configurationUnreadable path _ => some [("configPath", .text path)]
  | targetCount source count => some [("source", .text source), ("matches", .ofInt count)]
  | replyUnreadable exitCode errorOutput _ | replyMisshapen exitCode errorOutput _ =>
    some (outcomeDetails exitCode errorOutput)
  | unclean catalog _ => some [("catalogPath", .text catalog.text)]
  | unpublished fault => fault.files?.map fun files => [("outputFiles", .texts files)]
  | system _ | brokenDown _ => none

def report? : Cause → Option Report
  | unclean _ report => some report
  | _ => none

def failure? (cause : Cause) : Option Failure :=
  cause.category?.map fun category =>
    { family := familyOf category, category, message := cause.message,
      details := cause.details, report := cause.report? }

def display (cause : Cause) : String :=
  match cause.failure? with
  | some failure => failure.display
  | none => cause.message

end Cause

end AssetCatalog
