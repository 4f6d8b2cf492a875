import AssetCatalog.Terminal.Width
import AssetCatalog.Terminal.Pen
import AssetCatalog.Text.Split
/-! # Tables

A table has a head and rows of cells, drawn with rules around and between all of them.  A cell
may have several lines; its row is as high as the cell with the most.  A column is as wide as
its widest line, with a space on either side.

A row may have fewer cells than the table has columns.  The place of the cells that it lacks is
a blank area without rules inside, and it goes on downward through the rows that have no cell
there.  A rule has a crossing where a piece of the row above or of the row below begins, and it
is interrupted by the blank areas that go on. -/

set_option autoImplicit false

namespace AssetCatalog.Terminal

/-- A table; one with an empty head has no head. -/
structure Table where
  head : List String
  rows : List (List String)

structure Rule where
  left : Char
  cross : Char
  right : Char

structure Border where
  top : Rule
  between : Rule
  bottom : Rule
  horizontal : Char
  vertical : Char

def Border.lines : Border :=
  ⟨⟨'┌', '┬', '┐'⟩, ⟨'├', '┼', '┤'⟩, ⟨'└', '┴', '┘'⟩, '─', '│'⟩

def Border.ascii : Border := ⟨⟨'+', '+', '+'⟩, ⟨'+', '+', '+'⟩, ⟨'+', '+', '+'⟩, '-', '|'⟩

def dumbTerminal : String := "dumb"

/-- Nothing is known about the terminal, or that it cannot draw lines. -/
def isPlain (kind : Option String) : Bool :=
  match kind with
  | none => true
  | some kind => kind = "" || kind = dumbTerminal

def Border.forTerminal (kind : Option String) : Border :=
  if isPlain kind then .ascii else .lines

/-- What is drawn between two edges of a row: a cell, or a blank area, which has no lines. -/
structure Piece where
  lines : List String
  columns : Nat
  /-- It is a blank area that has begun in a row above. -/
  continued : Bool

structure Part where
  begins : Bool
  continued : Bool

namespace Piece

def cell (text : String) : Piece := ⟨Pen.carried (Text.lines text), 1, false⟩

def parts (piece : Piece) : List Part :=
  ⟨true, piece.continued⟩ :: List.replicate (piece.columns - 1) ⟨false, piece.continued⟩

def blanks (columns : Nat) : List (Nat × Bool) → List Piece
  | [] => []
  | (start, continued) :: rest =>
    let stop := (rest.head?.map (·.1)).getD columns
    ⟨[], stop - start, continued⟩ :: blanks columns rest

end Piece

namespace Table

def spaces (count : Nat) : String := String.ofList (List.replicate count ' ')

def fill (cells : Nat) (s : String) : String := s ++ spaces (cells - width s)

def allRows (table : Table) : List (List String) :=
  if table.head.isEmpty then table.rows else table.head :: table.rows

def columnCount (table : Table) : Nat :=
  (table.allRows.map List.length).foldl max 0

def cellLines (row : List String) (column : Nat) : List String :=
  Text.lines (row[column]?.getD "")

def widest (lines : List String) : Nat := (lines.map width).foldl max 0

def columnWidth (table : Table) (column : Nat) : Nat :=
  (table.allRows.map fun row => widest (cellLines row column)).foldl max 0

def columnWidths (table : Table) : List Nat :=
  (List.range table.columnCount).map table.columnWidth

/-! ## Pieces -/

/-- The pieces of rows; `blank` holds the columns where the blank areas of the row above begin.
Those that begin behind the cells of a row go on in it. -/
def piecesFrom (columns : Nat) (blank : List Nat) : List (List String) → List (List Piece)
  | [] => []
  | row :: rest =>
    let continued := blank.filter (row.length ≤ ·)
    let fresh := if row.length < continued.head?.getD columns then [row.length] else []
    let starts := fresh.map (·, false) ++ continued.map (·, true)
    (row.map Piece.cell ++ Piece.blanks columns starts) :: piecesFrom columns (fresh ++ continued) rest

def pieces (table : Table) : List (List Piece) :=
  piecesFrom table.columnCount [] table.allRows

/-! ## Drawing -/

/-- The part of a rule at an edge between two columns, of which one may begin above the rule and
one below it. -/
def crossing (border : Border) (above below : Bool) : Char :=
  match above, below with
  | true, true => border.between.cross
  | false, true => border.top.cross
  | true, false => border.bottom.cross
  | false, false => border.horizontal

/-- The character of a rule before a column.  `left` is the part on the left below the rule; it
is missing before the first column. -/
def markBefore (border : Border) (rule : Rule) (left : Option Part) (above below : Part) : Char :=
  if below.continued then
    if !below.begins then ' '
    else if left.all (·.continued) then border.vertical
    else border.between.right
  else if left.isNone then rule.left
  else crossing border above.begins below.begins

def ruleParts (border : Border) (rule : Rule) (left : Option Part) :
    List Nat → List Part → List Part → List Char
  | cells :: widths, above :: aboves, below :: belows =>
    markBefore border rule left above below
      :: List.replicate (cells + 2) (if below.continued then ' ' else border.horizontal)
      ++ ruleParts border rule (some below) widths aboves belows
  | _, _, _ =>
    [if left.any (·.continued) then border.vertical else rule.right]

def ruleLine (border : Border) (rule : Rule) (widths : List Nat) (above below : List Part) :
    String :=
  String.ofList (ruleParts border rule none widths above below)

def lineParts (border : Border) (line : Nat) : List Nat → List Piece → String
  | _, [] => ""
  | widths, piece :: rest =>
    let room := (widths.take piece.columns).sum + 3 * (piece.columns - 1)
    String.singleton border.vertical ++ " " ++ fill room (piece.lines[line]?.getD "") ++ " "
      ++ lineParts border line (widths.drop piece.columns) rest

def rowLine (border : Border) (widths : List Nat) (row : List Piece) (line : Nat) : String :=
  lineParts border line widths row ++ String.singleton border.vertical

def rowHeight (row : List Piece) : Nat := (row.map (·.lines.length)).foldl max 1

def rowLines (border : Border) (widths : List Nat) (row : List Piece) : List String :=
  (List.range (rowHeight row)).map (rowLine border widths row)

/-- Nothing begins in any of the columns: what is beyond the first and the last rule. -/
def outside (widths : List Nat) : List Part := widths.map fun _ => ⟨false, false⟩

def linesFrom (border : Border) (widths : List Nat) (rule : Rule) (above : List Part) :
    List (List Piece) → List String
  | [] => [ruleLine border border.bottom widths above (outside widths)]
  | row :: rest =>
    let parts := row.flatMap Piece.parts
    ruleLine border rule widths above parts
      :: (rowLines border widths row ++ linesFrom border widths border.between parts rest)

def render (border : Border) (table : Table) : List String :=
  let widths := table.columnWidths
  if widths.isEmpty then [] else linesFrom border widths border.top (outside widths) table.pieces

def text (border : Border) (table : Table) : String := "\n".intercalate (table.render border)

end Table

end AssetCatalog.Terminal
