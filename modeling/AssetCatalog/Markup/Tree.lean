import AssetCatalog.Markup.Token
import AssetCatalog.Markup.Scope
/-! # The tree of a document

Tokens make up a tree: every start tag that is not closed opens an element, and the end tag of
the same name closes it.  A document has exactly one root; text before and after it counts for
nothing.  Neighbouring runs of text are one. -/

set_option autoImplicit false

namespace AssetCatalog.Markup

inductive Node where
  | element (name : String) (children : List Node)
  | text (units : List Nat)
  | literal (content : String)
  | comment (content : String)
  | instruction (target data : String)

structure OpenElement where
  name : String
  scope : Scope
  children : List Node := []

/-- What has been put together so far. -/
structure Assembly where
  opened : List OpenElement := []
  root : Option (String × List Node) := none
  typed : Bool := false
  /-- The root has been closed a second time; from there on no tag counts. -/
  ended : Bool := false

namespace Assembly

def joined (node : Node) (children : List Node) : List Node :=
  match node, children with
  | .text units, .text before :: rest => .text (before ++ units) :: rest
  | node, children => node :: children

def add (node : Node) (assembly : Assembly) : Assembly :=
  match assembly.opened with
  | [] => assembly
  | inner :: outer =>
    { assembly with opened := { inner with children := joined node inner.children } :: outer }

def addElement (name : String) (children : List Node) (assembly : Assembly) : Option Assembly :=
  match assembly.opened with
  | _ :: _ => some (assembly.add (.element name children))
  | [] => match assembly.root with
    | some _ => none
    | none => some { assembly with root := some (name, children) }

def scope (assembly : Assembly) : Scope :=
  (assembly.opened.head?.map (·.scope)).getD Scope.initial

def start (name : String) (attributes : List (String × String)) (closed : Bool)
    (assembly : Assembly) : Option Assembly :=
  if assembly.opened.isEmpty && assembly.root.isSome then none
  else
    let scope := assembly.scope.extended attributes
    if scope.namesElement name && attributes.all (scope.namesAttribute ·.1) then
      if closed then assembly.addElement name []
      else some { assembly with opened := { name, scope } :: assembly.opened }
    else none

def close (name : String) (assembly : Assembly) : Option Assembly :=
  match assembly.opened with
  | inner :: outer =>
    if inner.name = name then
      { assembly with opened := outer }.addElement name inner.children.reverse
    else none
  | [] => match assembly.root with
    | none => none
    | some (root, _) =>
      if assembly.ended then some assembly
      else if root = name then some { assembly with ended := true }
      else none

/-- A character section belongs inside an element or between the end of the root and the end of
the document. -/
def addLiteral (content : List Char) (assembly : Assembly) : Option Assembly :=
  if assembly.ended || (assembly.opened.isEmpty && assembly.root.isNone) then none
  else if content.isEmpty then some assembly
  else some (assembly.add (.literal (String.ofList content)))

def addType (assembly : Assembly) : Option Assembly :=
  if assembly.opened.isEmpty && assembly.root.isNone && !assembly.typed then
    some { assembly with typed := true }
  else none

def step (assembly : Assembly) : Token → Option Assembly
  | .text units => some (assembly.add (.text units))
  | .startTag name attributes closed => assembly.start name attributes closed
  | .endTag name => assembly.close name
  | .instruction target data => some (assembly.add (.instruction target data))
  | .comment content => some (assembly.add (.comment (String.ofList content)))
  | .literal content => assembly.addLiteral content
  | .documentType => assembly.addType

/-- Goes on through the characters, of which the first `skip` belong to a token that has been
dealt with. -/
def read (assembly : Assembly) (first : Bool) (skip : Nat) : List Char → Option Assembly
  | [] => some assembly
  | c :: rest =>
    match skip with
    | more + 1 => read assembly false more rest
    | 0 =>
      let stage := if assembly.ended then .past else if first then .beginning else .inside
      match Found.here stage c rest with
      | .malformed => none
      | .token token used => (assembly.step token).bind (read · false (used - 1) rest)

end Assembly

def rootOf (document : List Char) : Option (String × List Node) :=
  match Assembly.read {} true 0 (unifyLineEnds document) with
  | some assembly => if assembly.opened.isEmpty then assembly.root else none
  | none => none

end AssetCatalog.Markup
