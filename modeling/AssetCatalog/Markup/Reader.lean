import AssetCatalog.Markup.Name
/-! # Readers of a fixed form

A reader takes a beginning of the characters that has a certain form and gives what follows,
or nothing when the characters do not begin that way.  A form of several parts is the sequence
of the readers of its parts; none of the readers goes back on what it has taken.

Forms are looked for at the beginning of the characters and, when they do not stand there, at
the beginning of each later line.  `somewhere` is that search, and `pass` takes the characters
that the form found there has, counted from where the search began. -/

set_option autoImplicit false

namespace AssetCatalog.Markup

/-- What follows a beginning of the characters. -/
abbrev Reader := List Char → Option (List Char)

namespace Reader

def exactly (expected : String) : Reader := fun cs => expected.toList.isPrefixOf? cs

def one (accepts : Char → Bool) : Reader
  | [] => none
  | c :: rest => if accepts c then some rest else none

def run (accepts : Char → Bool) : Reader := fun cs => some (cs.dropWhile accepts)

def some1 (accepts : Char → Bool) : Reader := fun cs => (one accepts cs).bind (run accepts)

def sequence (parts : List Reader) : Reader := fun cs => parts.foldlM (fun cs part => part cs) cs

def firstOf (forms : List Reader) : Reader := fun cs => forms.findSome? (· cs)

def optional (form : Reader) : Reader := fun cs => some ((form cs).getD cs)

/-- What follows a form that is there any number of times; a form that takes up nothing ends
the search. -/
def afterAll (form : Reader) (cs : List Char) : List Char :=
  match form cs with
  | none => cs
  | some rest => if rest.length < cs.length then afterAll form rest else cs
termination_by cs.length

def many (form : Reader) : Reader := fun cs => some (afterAll form cs)

def space : Reader := some1 isSpace

def spaces : Reader := run isSpace

def name : Reader := sequence [one beginsName, run continuesName]

def quoted (inside : Char → Reader) : Reader :=
  firstOf <| ['"', '\''].map fun mark => sequence [one (· = mark), inside mark, one (· = mark)]

/-! ## At the beginning of a line -/

/-- What is found at the first place where something is found, of those that begin a line; the
characters themselves begin one or not. -/
def foundFrom {α : Type} (find : List Char → Option α) (beginsLine : Bool) :
    List Char → Option α
  | [] => if beginsLine then find [] else none
  | c :: rest =>
    match if beginsLine then find (c :: rest) else none with
    | some found => some found
    | none => foundFrom find (c = '\n') rest

def somewhere {α : Type} (find : List Char → Option α) (cs : List Char) : Option α :=
  foundFrom find true cs

def extent (form : Reader) (cs : List Char) : Option Nat :=
  (form cs).map fun rest => cs.length - rest.length

def pass (form : Reader) : Reader := fun cs => (somewhere (extent form) cs).map cs.drop

end Reader

end AssetCatalog.Markup
