import AssetCatalog.Publication
/-! # The command that compiles a catalog

The command has fifteen arguments.  The first ten are always the same; then come the deployment
target, the places that the compiler writes to, and at the end the catalog and the copy of its
icon package, both in full so that neither can be taken for an option. -/

set_option autoImplicit false

namespace AssetCatalog

/-- The name under which the icon is compiled, whatever the tag of the catalog. -/
def appIconName : String := "AppIcon"

structure CompileCommand where
  catalog : String
  stagedIcon : String
  scratch : String
  target : String

namespace CompileCommand

/-- The arguments that every command begins with.  All kinds of messages are asked for; the
libraries that come with the compiler are used rather than those of the system, and no bitmaps
are made in place of those in the catalog. -/
def fixedArguments : List String :=
  ["actool", "--output-format=xml1", "--notices", "--warnings", "--errors",
    "--platform=macosx", "--target-device=mac", "--lightweight-asset-runtime-mode=enabled",
    "--enable-icon-stack-fallback-generation=disabled", "--app-icon=" ++ appIconName]

def arguments (command : CompileCommand) : List String :=
  fixedArguments ++
    ["--minimum-deployment-target=" ++ command.target,
      "--output-partial-info-plist="
        ++ Path.join command.scratch OutputRole.partialInfoList.fileName,
      "--compile=" ++ command.scratch,
      command.catalog,
      command.stagedIcon]

end CompileCommand

end AssetCatalog
