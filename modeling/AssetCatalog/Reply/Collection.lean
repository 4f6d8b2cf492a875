/-! # The collections of a reply

A reply files its diagnostics in six collections: errors, warnings and notices, each about the
compile as a whole or about one document. -/

set_option autoImplicit false

namespace AssetCatalog

def actoolKey (name : String) : String := "com.apple.actool." ++ name

inductive Collection where
  | errors
  | documentErrors
  | warnings
  | documentWarnings
  | notices
  | documentNotices
  deriving DecidableEq

namespace Collection

def all : List Collection :=
  [errors, documentErrors, warnings, documentWarnings, notices, documentNotices]

theorem mem_all (collection : Collection) : collection ∈ all := by
  cases collection <;> decide

def key : Collection → String
  | errors => actoolKey "errors"
  | documentErrors => actoolKey "document.errors"
  | warnings => actoolKey "warnings"
  | documentWarnings => actoolKey "document.warnings"
  | notices => actoolKey "notices"
  | documentNotices => actoolKey "document.notices"

def label : Collection → String
  | errors => "errors"
  | documentErrors => "document errors"
  | warnings => "warnings"
  | documentWarnings => "document warnings"
  | notices => "notices"
  | documentNotices => "document notices"

end Collection

end AssetCatalog
