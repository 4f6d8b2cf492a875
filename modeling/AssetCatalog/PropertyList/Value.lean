import AssetCatalog.Number.Text
import AssetCatalog.Calendar
import AssetCatalog.Dictionary
import AssetCatalog.Text.Quoted
import AssetCatalog.Text.Utf8
/-! # Property-list values

The values a property list can hold, the kind of each, and two ways to write one: `shown` is
the text of a value as part of a message, and `compact` is the value as a JSON document on one
line, where a number that is not finite and a date that is none become `null`. -/

set_option autoImplicit false

namespace AssetCatalog

/-- A value of a property list.  A date that names no point in time holds none. -/
inductive Value where
  | text (content : String)
  | number (value : Number)
  | truth (value : Bool)
  | null
  | list (items : List Value)
  | dict (entries : List (String × Value))
  | date (instant : Option Int)
  | data (octets : List UInt8)

/-- What a value is, as far as a check of shapes tells values apart.  Data counts as a
dictionary, and what is not a number has a kind of its own. -/
inductive Kind where
  | text
  | number
  | notANumber
  | truth
  | null
  | list
  | dict
  | date
  deriving DecidableEq

def Kind.name : Kind → String
  | .text => "string"
  | .number => "number"
  | .notANumber => "nan"
  | .truth => "boolean"
  | .null => "null"
  | .list => "array"
  | .dict => "object"
  | .date => "date"

namespace Value

def kind : Value → Kind
  | .text _ => .text
  | .number .notANumber => .notANumber
  | .number _ => .number
  | .truth _ => .truth
  | .null => .null
  | .list _ => .list
  | .dict _ => .dict
  | .date _ => .date
  | .data _ => .dict

def ofInt (n : Int) : Value := .number (.nearest (n : Rat))

def texts (items : List String) : Value := .list (items.map .text)

/-! ## The text of a value -/

def truthText (value : Bool) : String := if value then "true" else "false"

def dateText : Option Int → String
  | some instant => Calendar.text instant
  | none => "Invalid Date"

/-- An entry under this key takes the place of the rule that gives a dictionary its text. -/
def textRuleKey : String := "toString"

mutual

def shown : Value → Option String
  | .text content => some content
  | .number value => some value.text
  | .truth value => some (truthText value)
  | .null => some "null"
  | .list items => (shownItems items).map (",".intercalate ·)
  | .dict entries => if Dictionary.has entries textRuleKey then none else some "[object Object]"
  | .date instant => some (dateText instant)
  | .data octets => some (Text.Utf8.decode octets)

def shownItems : List Value → Option (List String)
  | [] => some []
  | .null :: rest => (shownItems rest).map ("" :: ·)
  | item :: rest =>
    match shown item, shownItems rest with
    | some first, some others => some (first :: others)
    | _, _ => none

end

def isSubstantial : Value → Bool
  | .text content => decide (content ≠ "")
  | .number .notANumber => false
  | .number value => decide (value ≠ .finite 0)
  | .truth value => value
  | .null => false
  | _ => true

/-! ## The compact form -/

def braced (items : List String) : String := "\x7b" ++ ",".intercalate items ++ "\x7d"

def bracketed (items : List String) : String := "[" ++ ",".intercalate items ++ "]"

def compactNumber (value : Number) : String :=
  match value with
  | .finite _ => value.text
  | _ => "null"

def compactData (octets : List UInt8) : String :=
  braced ["\"type\":\"Buffer\"",
    "\"data\":" ++ bracketed (octets.map fun octet => toString octet.toNat)]

mutual

def compact : Value → String
  | .text content => Text.quoted content
  | .number value => compactNumber value
  | .truth value => truthText value
  | .null => "null"
  | .list items => bracketed (compactItems items)
  | .dict entries => braced (compactEntries entries)
  | .date none => "null"
  | .date (some instant) => Text.quoted (Calendar.text instant)
  | .data octets => compactData octets

def compactItems : List Value → List String
  | [] => []
  | item :: rest => compact item :: compactItems rest

def compactEntries : List (String × Value) → List String
  | [] => []
  | (key, value) :: rest => (Text.quoted key ++ ":" ++ compact value) :: compactEntries rest

end

end Value

end AssetCatalog
