import AssetCatalog.Markup.Reader
/-! # Comments, instructions and character sections

Three kinds of passage stand between fixed marks and may hold angle brackets: a comment, an
instruction with the name of its target, and a section of plain characters.  All of them hold
allowed characters only.  A passage is found with the number of characters that it takes up,
its marks included. -/

set_option autoImplicit false

namespace AssetCatalog.Markup.Passage

def before (mark : String) : List Char → Option (List Char)
  | [] => none
  | c :: rest =>
    if mark.toList.isPrefixOf (c :: rest) then some []
    else (before mark rest).map (c :: ·)

def between (opening closing : String) (cs : List Char) : Option (List Char) := do
  let content ← before closing (← Reader.exactly opening cs)
  if content.all isAllowed then some content else none

structure Extent (α : Type) where
  content : α
  used : Nat

def literal (cs : List Char) : Option (Extent (List Char)) :=
  (between "<![CDATA[" "]]>" cs).map fun content => ⟨content, content.length + 12⟩

def comment (cs : List Char) : Option (Extent (List Char)) := do
  let content ← between "<!--" "--" cs
  if (cs.drop (content.length + 6)).head? = some '>' then some ⟨content, content.length + 7⟩
  else none

structure Instruction where
  target : List Char
  data : List Char

/-- An instruction begins with the name of its target; what it says comes after white space. -/
def instruction (cs : List Char) : Option (Extent Instruction) := do
  let rest ← Reader.exactly "<?" cs
  let content ← before "?>" rest
  let target := leadingName content
  let tail := content.drop target.length
  if target ≠ [] ∧ tail.all isAllowed ∧ tail.head?.all isSpace then
    some ⟨⟨target, tail.dropWhile isSpace⟩, content.length + 4⟩
  else none

def Instruction.isReserved (instruction : Instruction) : Bool :=
  instruction.target.map Char.toLower = "xml".toList

end AssetCatalog.Markup.Passage
