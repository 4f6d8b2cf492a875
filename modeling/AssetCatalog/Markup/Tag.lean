import AssetCatalog.Markup.Name
import AssetCatalog.Markup.Entity
/-! # Start tags

A start tag is read one character at a time.  The state says what has just been read; the
characters of the part that is being read are kept in reverse.  Reading is forgiving: an
attribute may lack its value or the quotes around it.  Three things stop it short: a fault
after which the document counts as malformed, a place where no tag can be meant, so that the
angle bracket is ordinary text, and the end of the document, which ends the tag too. -/

set_option autoImplicit false

namespace AssetCatalog.Markup

inductive TagState where
  | name
  | afterName
  | key
  | afterKey
  | equals
  | quoted (quote : Char)
  | bare
  | afterValue
  | closing

/-- A start tag as far as it has been read. -/
structure TagScan where
  state : TagState := .name
  part : List Char := []
  name : List Char := []
  label : List Char := []
  attributes : List (String × String) := []
  closed : Bool := false

inductive TagStep where
  | goOn (scan : TagScan)
  | finished (scan : TagScan)
  | ordinary
  | malformed

namespace TagScan

def word (scan : TagScan) : List Char := scan.part.reverse

def named (scan : TagScan) (next : TagScan → TagStep) : TagStep :=
  if isQualifiedName scan.word then next { scan with name := scan.word, part := [] } else .ordinary

/-- One more attribute is complete.  An attribute twice, or with an angle bracket in its value,
makes the document malformed. -/
def attributed (scan : TagScan) (name value : List Char) (next : TagScan → TagStep) : TagStep :=
  let key := String.ofList name
  if scan.attributes.any (·.1 = key) then .malformed
  else if '<' ∈ value then .malformed
  else if isQualifiedName name then
    next { scan with
      attributes := scan.attributes ++ [(key, String.ofList (expanded value))], part := [] }
  else .ordinary

def equalsSign (scan : TagScan) : TagStep :=
  match scan.state with
  | .key => .goOn { scan with state := .equals, label := scan.word, part := [] }
  | .afterKey => .goOn { scan with state := .equals }
  | _ => .ordinary

def quote (scan : TagScan) (mark : Char) : TagStep :=
  match scan.state with
  | .equals => .goOn { scan with state := .quoted mark, part := [] }
  | .key => .goOn { scan with state := .quoted mark, label := scan.word, part := [] }
  | .bare =>
    scan.attributed scan.label scan.word fun scan => .goOn { scan with state := .afterValue }
  | _ => .ordinary

def slash (scan : TagScan) : TagStep :=
  match scan.state with
  | .name => scan.named fun scan => .goOn { scan with state := .closing, closed := true }
  | .afterValue | .afterName | .closing => .goOn { scan with state := .closing, closed := true }
  | .bare | .key => .goOn { scan with part := '/' :: scan.part }
  | .afterKey => .goOn { scan with closed := true }
  | _ => .ordinary

/-- The part that ends at the closing bracket; a slash at its end closes the tag. -/
def withoutSlash (scan : TagScan) : TagScan :=
  match scan.part with
  | '/' :: part => { scan with part, closed := true }
  | _ => scan

def bracket (scan : TagScan) : TagStep :=
  match scan.state with
  | .name => scan.named .finished
  | .bare =>
    let scan := scan.withoutSlash
    scan.attributed scan.label scan.word .finished
  | .key =>
    let scan := scan.withoutSlash
    scan.attributed scan.word scan.word .finished
  | .afterKey => scan.attributed scan.label scan.label .finished
  | .equals => .malformed
  | _ => .finished scan

def space (scan : TagScan) : TagStep :=
  match scan.state with
  | .name => scan.named fun scan => .goOn { scan with state := .afterName }
  | .key => .goOn { scan with state := .afterKey, label := scan.word, part := [] }
  | .bare =>
    scan.attributed scan.label scan.word fun scan => .goOn { scan with state := .afterName }
  | .afterValue => .goOn { scan with state := .afterName }
  | _ => .goOn scan

def other (scan : TagScan) (c : Char) : TagStep :=
  match scan.state with
  | .afterKey =>
    scan.attributed scan.label scan.label fun scan =>
      .goOn { scan with state := .key, part := [c] }
  | .afterValue | .afterName => .goOn { scan with state := .key, part := [c] }
  | .equals => .goOn { scan with state := .bare, part := [c] }
  | .closing => .ordinary
  | _ => .goOn { scan with part := c :: scan.part }

/-- Control characters count as white space inside a tag. -/
def separates (c : Char) : Bool := decide (c.toNat ≤ 0x20) || c.toNat = 0x80

def step (scan : TagScan) (c : Char) : TagStep :=
  match scan.state with
  | .quoted mark =>
    if c = mark then
      scan.attributed scan.label scan.word fun scan => .goOn { scan with state := .afterValue }
    else .goOn { scan with part := c :: scan.part }
  | _ =>
    if c = '=' then scan.equalsSign
    else if c = '"' ∨ c = '\'' then scan.quote c
    else if c = '/' then scan.slash
    else if c = '>' then scan.bracket
    else if separates c then scan.space
    else scan.other c

def atEnd (scan : TagScan) : TagStep :=
  match scan.state with
  | .name => scan.named .finished
  | .quoted _ => .ordinary
  | _ => .finished scan

/-- The tag that begins after an angle bracket, and how many characters it takes up; the
outcome is never `goOn`. -/
def run (scan : TagScan) (used : Nat) : List Char → TagStep × Nat
  | [] => (scan.atEnd, used)
  | c :: rest =>
    match scan.step c with
    | .goOn scan => run scan (used + 1) rest
    | outcome => (outcome, used + 1)

end TagScan

end AssetCatalog.Markup
