import AssetCatalog.Path
/-! # Names of catalogs and what belongs to them

A catalog is named `<Base>[_<Tag>].xcassets`.  The tag, with its underscore, is carried into
the name of the icon package a catalog needs and into the names of the two files it compiles
to, so that differently tagged catalogs beside each other share nothing:

    Assets.xcassets       AppIcon.icon       app.icns       Assets.car
    Assets_beta.xcassets  AppIcon_beta.icon  app_beta.icns  Assets_beta.car

`Layout.ofPath` judges the suffix first and the underscores second. -/

set_option autoImplicit false

namespace AssetCatalog

def catalogSuffix : String := ".xcassets"

def tagSeparator : Char := '_'

inductive NameFault where
  | suffix (path : String)
  | separators (baseName : String)
  deriving DecidableEq

/-- The tag of a catalog's base name, with its underscore; empty if there is none. -/
def nameTag (baseName : String) : Except NameFault String :=
  match Text.split tagSeparator baseName.toList with
  | [_] => .ok ""
  | [_, tag] => .ok (String.ofList (tagSeparator :: tag))
  | _ => .error (.separators baseName)

/-- The name without a suffix it ends in, unless the suffix is the whole name. -/
def baseOf? (suffix name : String) : Option String :=
  let base := name.toList.take (name.length - suffix.length)
  if base ≠ [] ∧ base ++ suffix.toList = name.toList then some (String.ofList base) else none

structure Layout where
  catalog : Place
  sourceDirectory : Place
  baseName : String
  tag : String
  deriving DecidableEq

namespace Layout

def iconPackage (layout : Layout) : Place :=
  layout.sourceDirectory.resolve ("AppIcon" ++ layout.tag ++ ".icon")

def iconBundle (layout : Layout) : Place :=
  layout.sourceDirectory.resolve ("app" ++ layout.tag ++ ".icns")

def assetArchive (layout : Layout) : Place :=
  layout.sourceDirectory.resolve ("Assets" ++ layout.tag ++ ".car")

/-- The layout of the catalog that a path names, seen from a working directory. -/
def ofPath (directory : Place) (path : String) : Except NameFault Layout := do
  let catalog := directory.resolve path
  match baseOf? catalogSuffix catalog.name with
  | none => throw (.suffix path)
  | some baseName =>
    let tag ← nameTag baseName
    return { catalog, sourceDirectory := catalog.parent, baseName, tag }

end Layout

end AssetCatalog
