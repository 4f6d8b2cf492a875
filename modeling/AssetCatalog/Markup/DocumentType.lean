import AssetCatalog.Markup.Passage
/-! # Document types

A document type names the root, may refer to an outside definition, and may hold declarations
of its own between square brackets: of elements, attributes, entities and notations, beside
comments, instructions and references to entities of parameters.  Each of them has to have its
form; what it says counts for nothing. -/

set_option autoImplicit false

namespace AssetCatalog.Markup.DocumentType

open Reader

/-! ## Parts of declarations -/

def qualifiedName : Reader := fun cs =>
  match leadingQualifiedName cs with
  | [] => none
  | found => some (cs.drop found.length)

def word : Reader := some1 continuesName

def parameterReference : Reader := sequence [exactly "%", name, exactly ";"]

def isDecimal (c : Char) : Bool := decide ('0' ≤ c) && decide (c ≤ '9')

def isHexadecimal (c : Char) : Bool :=
  isDecimal c || (decide ('a' ≤ c) && decide (c ≤ 'f')) || (decide ('A' ≤ c) && decide (c ≤ 'F'))

def reference : Reader :=
  firstOf [sequence [exactly "&#x", some1 isHexadecimal, exactly ";"],
    sequence [exactly "&#", some1 isDecimal, exactly ";"],
    sequence [exactly "&", name, exactly ";"]]

def entityValue : Reader :=
  quoted fun mark =>
    many (firstOf [one fun c => c ≠ '%' && c ≠ '&' && c ≠ mark, parameterReference, reference])

def attributeValue : Reader :=
  quoted fun mark => many (firstOf [one fun c => c ≠ '<' && c ≠ '&' && c ≠ mark, reference])

def publicMarks : List Char := " \r\n-'()+,./:=?;!*#@$_%".toList

def isPublic (c : Char) : Bool :=
  isDecimal c || (decide ('a' ≤ c) && decide (c ≤ 'z')) || (decide ('A' ≤ c) && decide (c ≤ 'Z'))
    || publicMarks.contains c

def publicIdentifier : Reader := quoted fun mark => run fun c => isPublic c && c ≠ mark

def systemIdentifier : Reader := quoted fun mark => run (· ≠ mark)

def external : Reader :=
  firstOf [sequence [exactly "SYSTEM", space, systemIdentifier],
    sequence [exactly "PUBLIC", space, publicIdentifier, space, systemIdentifier]]

def choice (part : Reader) : Reader :=
  sequence [exactly "(", spaces, part, many (sequence [spaces, exactly "|", spaces, part]),
    spaces, exactly ")"]

/-! ## Declarations -/

def content : Reader := fun cs =>
  let (inside, rest) := cs.span (· ≠ '>')
  let inside := inside.reverse.dropWhile isSpace
  let inside := match inside with
    | mark :: tail => if mark = '?' ∨ mark = '*' ∨ mark = '+' then tail else inside
    | [] => []
  match inside, cs with
  | ')' :: _ :: _ :: _, '(' :: _ => some rest
  | _, _ => none

def elementDeclaration : Reader :=
  sequence [exactly "<!ELEMENT", space, firstOf [qualifiedName, parameterReference], space,
    firstOf [exactly "EMPTY", exactly "ANY", content, parameterReference], spaces, exactly ">"]

def attributeKinds : List (List Char) :=
  ["CDATA", "ID", "IDREF", "IDREFS", "ENTITY", "ENTITIES", "NMTOKEN", "NMTOKENS"].map (·.toList)

def attributeKind : Reader :=
  firstOf
    [fun cs =>
      let (kind, rest) := cs.span fun c => decide ('A' ≤ c) && decide (c ≤ 'Z')
      if attributeKinds.contains kind then some rest else none,
    sequence [exactly "NOTATION", space, choice name], choice word]

def attributeDefault : Reader :=
  firstOf [exactly "#REQUIRED", exactly "#IMPLIED",
    sequence [optional (sequence [exactly "#FIXED", space]), attributeValue]]

def attributesDeclaration : Reader :=
  sequence [exactly "<!ATTLIST", space, name,
    many (sequence [space, name, space, attributeKind, space, attributeDefault]), spaces,
    exactly ">"]

def notationOfEntity : Reader := sequence [space, exactly "NDATA", space, name]

def entityDeclaration : Reader :=
  sequence [exactly "<!ENTITY", space,
    firstOf
      [sequence [exactly "%", space, name, space, firstOf [entityValue, external]],
      sequence [name, space,
        firstOf [entityValue, sequence [external, optional notationOfEntity]]]],
    spaces, exactly ">"]

def notationDeclaration : Reader :=
  sequence [exactly "<!NOTATION", space, name, space,
    firstOf [external, sequence [exactly "PUBLIC", space, publicIdentifier]], spaces, exactly ">"]

def comment : Reader := fun cs =>
  (somewhere Passage.comment cs).map fun found => cs.drop found.used

def instruction : Reader := fun cs =>
  (somewhere Passage.instruction cs).bind fun found =>
    if found.content.isReserved then none else some (cs.drop found.used)

def declaration (cs : List Char) : Option (List Char) :=
  match cs with
  | '<' :: '!' :: 'E' :: 'L' :: _ => pass elementDeclaration cs
  | '<' :: '!' :: 'E' :: 'N' :: _ => pass entityDeclaration cs
  | '<' :: '!' :: 'A' :: _ => pass attributesDeclaration cs
  | '<' :: '!' :: 'N' :: _ => pass notationDeclaration cs
  | '<' :: '!' :: '-' :: _ => comment cs
  | '<' :: '?' :: _ => instruction cs
  | '%' :: _ => pass parameterReference cs
  | _ => none

/-! ## The document type -/

def subset : Reader := fun cs =>
  match cs with
  | '[' :: rest =>
    sequence [many fun cs => declaration (cs.dropWhile isSpace), spaces, exactly "]"] rest
  | _ => some cs

def reference? : Reader := fun cs =>
  if (exactly "PUBLIC" cs).isSome || (exactly "SYSTEM" cs).isSome then pass external cs
  else some cs

def rootName : Reader := fun cs =>
  match somewhere (fun cs => match leadingName cs with | [] => none | found => some found) cs with
  | none => none
  | some found => if isQualifiedName found then some (cs.drop found.length) else none

def reader : Reader :=
  sequence [exactly "<!DOCTYPE", space, rootName, spaces, reference?, spaces, subset, spaces,
    exactly ">"]

end AssetCatalog.Markup.DocumentType
