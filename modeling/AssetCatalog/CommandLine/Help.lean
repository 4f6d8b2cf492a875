import AssetCatalog.CommandLine.Plan
/-! # Help

The texts that tell how the program is used: one about the program and one about each of its
commands. -/

set_option autoImplicit false

namespace AssetCatalog.CommandLine

def versionText : String := "0.1.0"

def programHelp : List String :=
  ["Usage: compile-car [options] [command]",
    "",
    "Compile macOS asset catalogs and app icons with actool",
    "",
    "Options:",
    "  -V, --version                 output the version number",
    "  -h, --help                    display help for command",
    "",
    "Commands:",
    "  compile [options] <paths...>  Compile asset catalogs into .icns and .car",
    "                                files",
    "  check [options]               Check actool and the deployment target without",
    "                                compiling",
    "  help [command]                display help for command"]

def Command.help : Command → List String
  | .compile =>
    ["Usage: compile-car compile [options] <paths...>",
      "",
      "Compile asset catalogs into .icns and .car files",
      "",
      "Options:",
      "  -v, --verbose        Show the actool command line and each copy (default:",
      "                       false)",
      "  --source-root <dir>  Source checkout holding build/config/mac/mac_sdk.gni",
      "  -h, --help           display help for command"]
  | .check =>
    ["Usage: compile-car check [options]",
      "",
      "Check actool and the deployment target without compiling",
      "",
      "Options:",
      "  --source-root <dir>  Source checkout holding build/config/mac/mac_sdk.gni",
      "  -h, --help           display help for command"]

def helpAbout : Option Command → List String
  | none => programHelp
  | some command => command.help

end AssetCatalog.CommandLine
