import AssetCatalog.Markup.Name
/-! # Names with a colon

The word before the colon of a name has to have a meaning, which an attribute `xmlns:word` of
the tag or of one around it gives and an empty value takes away; the attribute `xmlns` does the
same for names of elements without colon.  Two words are taken: `xml` has its meaning from the
start, and `xmlns` stands for the meaning of the attributes that give meanings.  A name must
not mix them up. -/

set_option autoImplicit false

namespace AssetCatalog.Markup

/-- The meanings in force, the innermost first; the empty word is for names without colon. -/
structure Scope where
  meanings : List (String × String)

namespace Scope

def fixedWord : String := "xml"

def fixedMeaning : String := "http://www.w3.org/XML/1998/namespace"

def givingWord : String := "xmlns"

def givingMeaning : String := "http://www.w3.org/2000/xmlns/"

def initial : Scope := ⟨[(fixedWord, fixedMeaning)]⟩

def given? (name : String) : Option String :=
  if name = givingWord then some ""
  else if prefixOf name = some givingWord then
    some (String.ofList (name.toList.drop (givingWord.length + 1)))
  else none

def extended (scope : Scope) (attributes : List (String × String)) : Scope :=
  attributes.foldl
    (fun scope (name, value) => match given? name with
      | some word => ⟨(word, value) :: scope.meanings⟩
      | none => scope)
    scope

def meaning? (scope : Scope) (word : String) : Option String :=
  (scope.meanings.lookup word).filter (· ≠ "")

/-- The name goes with the meaning of its first part. -/
def isInOrder (name : String) (meaning : Option String) : Bool :=
  let word := prefixOf name
  let gives := word = some givingWord || name = givingWord
  (word.isNone || meaning.isSome)
    && (word ≠ some fixedWord || meaning = some fixedMeaning)
    && gives == (meaning = some givingMeaning)

def namesElement (scope : Scope) (name : String) : Bool :=
  isInOrder name (scope.meaning? ((prefixOf name).getD ""))

def namesAttribute (scope : Scope) (name : String) : Bool :=
  isInOrder name <|
    if (given? name).isSome then some givingMeaning else (prefixOf name).bind scope.meaning?

end Scope

end AssetCatalog.Markup
