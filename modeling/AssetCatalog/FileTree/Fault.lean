import AssetCatalog.Text.Quoted
import AssetCatalog.Text.Units
/-! # Refusals of a file system

A file system refuses an operation for one of a few reasons, each with a code and a text.  The
message of a refusal also names the operation.  A path with a NUL in it never gets as far as the
file system: the operation itself is refused for what it was given, and the message shows the
beginning of that. -/

set_option autoImplicit false

namespace AssetCatalog

inductive SystemFault where
  | missing
  | notDirectory
  | isDirectory
  | tooManyLinks
  | alreadyThere
  | nameTooLong
  deriving DecidableEq

def SystemFault.code : SystemFault → String
  | .missing => "ENOENT"
  | .notDirectory => "ENOTDIR"
  | .isDirectory => "EISDIR"
  | .tooManyLinks => "ELOOP"
  | .alreadyThere => "EEXIST"
  | .nameTooLong => "ENAMETOOLONG"

def SystemFault.text : SystemFault → String
  | .missing => "no such file or directory"
  | .notDirectory => "not a directory"
  | .isDirectory => "illegal operation on a directory"
  | .tooManyLinks => "too many symbolic links encountered"
  | .alreadyThere => "file already exists"
  | .nameTooLong => "name too long"

inductive SystemFailure where
  | refused (fault : SystemFault) (operation : String)
  | unfit (argument path : String)
  deriving DecidableEq

namespace SystemFailure

def ofArguments? (arguments : List (String × String)) : Option SystemFailure :=
  arguments.findSome? fun (name, path) =>
    if path.toList.any (·.toNat = 0) then some (unfit name path) else none

def code : SystemFailure → String
  | refused fault _ => fault.code
  | unfit _ _ => "ERR_INVALID_ARG_VALUE"

def mostShown : Nat := 128

def shown (path : String) : String :=
  let units := Text.units (Text.displayed path)
  if mostShown < units.length then String.ofList (Text.ofUnits (units.take mostShown)) ++ "..."
  else Text.displayed path

def message : SystemFailure → String
  | refused fault operation => fault.code ++ ": " ++ fault.text ++ ", " ++ operation
  | unfit argument path =>
    "The argument '" ++ argument
      ++ "' must be a string, Uint8Array, or URL without null bytes. Received " ++ shown path

end SystemFailure

end AssetCatalog
