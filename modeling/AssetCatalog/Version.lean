import AssetCatalog.Number.Reading
import AssetCatalog.Number.Text
import AssetCatalog.Text.Split
/-! # Dotted versions

A version is a tuple of numbers, compared from left to right; a tuple that another one
continues comes before it, so `26` is older than `26.0`.  `Version.parse` reads runs of digits
between single dots, with blanks around the whole, and `Version.text` writes them. -/

set_option autoImplicit false

namespace AssetCatalog

/-- A version as its components, the most significant first. -/
structure Version where
  components : List Number
  deriving DecidableEq

namespace Version

def component (digits : List Char) : Option Number :=
  if digits ≠ [] ∧ digits.all Number.isDigit then some (.ofNat (Number.digitsValue digits))
  else none

def parse (s : String) : Option Version :=
  (((Text.split '.' (Text.trim s.toList)).mapM component).map Version.mk)

def text (version : Version) : String := ".".intercalate (version.components.map Number.text)

/-- The order of components, decided by the first two that differ. -/
def compareComponents : List Number → List Number → Ordering
  | [], [] => .eq
  | [], _ :: _ => .lt
  | _ :: _, [] => .gt
  | a :: as, b :: bs =>
    if a.same b then compareComponents as bs
    else if a.exceeds b then .gt else .lt

def compare (a b : Version) : Ordering := compareComponents a.components b.components

def atLeast (version least : Version) : Bool := compare version least != .lt

def ofNats (components : List Nat) : Version := ⟨components.map Number.ofNat⟩

example : (parse " 026.0\u00a0").map text = some "26.0" := by decide +kernel
example : parse "26..1" = none := by decide +kernel
example : compare (ofNats [26]) (ofNats [26, 0]) = .lt := by decide +kernel

end Version

end AssetCatalog
