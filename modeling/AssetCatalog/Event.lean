import AssetCatalog.Layout
/-! # Progress of a compile

A compile tells how far it has come.  Each event names the catalog and what has been reached;
`Progress.stage` is the word for that, and `Event.message` the text to be shown. -/

set_option autoImplicit false

namespace AssetCatalog

inductive Progress where
  | validated (tag : String)
  | staged (package : String)
  | invoking (command : List String)
  | classified
  | copied (destination : String)
  | completed
  deriving DecidableEq

def Progress.stage : Progress → String
  | .validated _ => "validated"
  | .staged _ => "staged"
  | .invoking _ => "invoking"
  | .classified => "classified"
  | .copied _ => "copied"
  | .completed => "completed"

/-- The name of the copy of a package that the compiler is given. -/
def stagedName : String := "AppIcon.icon"

structure Event where
  catalog : Place
  progress : Progress
  deriving DecidableEq

namespace Event

def message (event : Event) : String :=
  match event.progress with
  | .validated tag =>
    "Validated " ++ event.catalog.name ++ (if tag = "" then "" else " (tag " ++ tag ++ ")")
  | .staged package => "Staged " ++ package ++ " as " ++ stagedName
  | .invoking command => "Invoking: " ++ " ".intercalate command
  | .classified => "actool reported no problems"
  | .copied destination => "Copying output to: " ++ destination
  | .completed => "Compiled " ++ event.catalog.name

end Event

end AssetCatalog
