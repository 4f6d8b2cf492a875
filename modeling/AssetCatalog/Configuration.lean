import AssetCatalog.DeploymentTarget
import AssetCatalog.Run
/-! # The build configuration

The deployment target of a source checkout stands in one file, at the same path in every
checkout.  It is the value of the only assignment in that file. -/

set_option autoImplicit false

namespace AssetCatalog.Configuration

def path : String := "build/config/mac/mac_sdk.gni"

def targetIn (configuration source : String) : Except Cause String :=
  (DeploymentTarget.extract configuration).mapError (Cause.targetCount source)

def targetOf (tree : FileTree) (directory : Place) (checkout : String) : Except Cause String :=
  let source := Path.join checkout path
  match tree.readFile directory source with
  | .error failure => .error (.configurationUnreadable source failure)
  | .ok configuration => targetIn configuration source

def target (setting : Setting) (checkout : String) : Run String := do
  Run.ofExcept id (targetOf (← Run.files) setting.directory checkout)

end AssetCatalog.Configuration
