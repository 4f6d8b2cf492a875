import AssetCatalog.Markup.Reader
/-! # The declaration at the beginning of a document

The declaration gives a version and may give an encoding and say whether the document stands
alone, in this order; each setting is a word, an equals sign and a value in quotes. -/

set_option autoImplicit false

namespace AssetCatalog.Markup.Declaration

open Reader

def isDigit (c : Char) : Bool := decide ('0' ≤ c) && decide (c ≤ '9')

def isLetter (c : Char) : Bool :=
  (decide ('a' ≤ c) && decide (c ≤ 'z')) || (decide ('A' ≤ c) && decide (c ≤ 'Z'))

def setting (word : String) (value : Reader) : Reader :=
  sequence [space, exactly word, spaces, exactly "=", spaces, quoted fun _ => value]

def version : Reader := sequence [exactly "1.", some1 isDigit]

def encoding : Reader :=
  sequence [one isLetter,
    run fun c => isLetter c || isDigit c || c = '.' || c = '_' || c = '-']

def standalone : Reader := firstOf [exactly "yes", exactly "no"]

def reader : Reader :=
  sequence [exactly "<?xml", setting "version" version, optional (setting "encoding" encoding),
    optional (setting "standalone" standalone), spaces, exactly "?>"]

def isPresent (cs : List Char) : Bool := (somewhere (extent reader) cs).isSome

end AssetCatalog.Markup.Declaration
