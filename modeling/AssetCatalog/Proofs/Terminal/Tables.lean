import AssetCatalog.Terminal.Table
import AssetCatalog.Proofs.Text.Pieces
/-! # What a table shows

The lines of a table whose rows have equally many cells go through its rows from the first to the
last: above each row there is a rule, and one below them all (`ShowsRows`).  A line of a row shows
the lines of its cells side by side, each filled with spaces.  A row of cells that have one line
each, and no styles, is one line that shows them as they are. -/

set_option autoImplicit false

namespace AssetCatalog.Terminal

def cellLine (number : Nat) (cell : String) : String :=
  (Pen.carried (Text.lines cell))[number]?.getD ""

/-- The text has one line, and nothing in it could be a style code. -/
def IsSimple (text : String) : Prop := '\n' ∉ text.toList ∧ Sequence.escape ∉ text.toList

/-- The line shows texts from left to right, with an edge before each of them and behind the
last. -/
inductive SideBySide (edge : Char) : List String → String → Prop where
  | nothing : SideBySide edge [] (String.singleton edge)
  | text {first line : String} {rest : List String} (room : Nat)
      (others : SideBySide edge rest line) :
      SideBySide edge (first :: rest)
        (String.singleton edge ++ " " ++ (first ++ Table.spaces room) ++ " " ++ line)

structure ShowsRow (edge : Char) (cells lines : List String) : Prop where
  whole : ∀ cell ∈ cells, (Text.lines cell).length ≤ lines.length
  each : ∀ number line, lines[number]? = some line →
    SideBySide edge (cells.map (cellLine number)) line
  simple : (∀ cell ∈ cells, IsSimple cell) → ∃ line, lines = [line] ∧ SideBySide edge cells line

inductive ShowsRows (edge : Char) : List (List String) → List String → Prop where
  | ends (rule : String) : ShowsRows edge [] [rule]
  | row {cells lines others : List String} {rows : List (List String)} (rule : String)
      (first : ShowsRow edge cells lines) (rest : ShowsRows edge rows others) :
      ShowsRows edge (cells :: rows) (rule :: (lines ++ others))

/-! ## Lines of cells -/

theorem styles_of_not_mem {cs : List Char} (free : Sequence.escape ∉ cs) :
    Sequence.styles cs = [] := by
  induction cs with
  | nil => rfl
  | cons c rest ih =>
      obtain ⟨differ, others⟩ := not_or.mp (mt List.mem_cons.mpr free)
      have unstyled : Sequence.style? (c :: rest) = none := by
        unfold Sequence.style?
        split
        · next first rest' same =>
          cases same
          exact if_neg fun opens => differ opens.1.symm
        · rfl
      rw [Sequence.styles, unstyled, ih others]
      rfl

theorem length_carriedFrom (pen : Pen) (lines : List String) :
    (Pen.carriedFrom pen lines).length = lines.length := by
  induction lines generalizing pen with
  | nil => rfl
  | cons line rest ih => simp [Pen.carriedFrom, ih]

theorem carried_of_isSimple {cell : String} (simple : IsSimple cell) :
    Pen.carried (Text.lines cell) = [cell] := by
  have plain : Pen.after cell = {} := by
    rw [Pen.after, styles_of_not_mem simple.2]
    rfl
  have blank : Pen.putOn {} ++ cell = cell := String.empty_append
  rw [Text.lines_of_not_mem simple.1, Pen.carried, Pen.carriedFrom, blank, plain,
    Pen.takenOff_empty, String.append_empty]
  rfl

/-! ## Sizes -/

theorem foldl_max_of_le {sizes : List Nat} {most : Nat} (each : ∀ size ∈ sizes, size ≤ most) :
    sizes.foldl max most = most := by
  induction sizes with
  | nil => rfl
  | cons size rest ih =>
      obtain ⟨first, others⟩ := List.forall_mem_cons.mp each
      rw [List.foldl_cons, Nat.max_eq_left first, ih others]

theorem le_foldl_max {sizes : List Nat} {start size : Nat} (low : size ≤ start ∨ size ∈ sizes) :
    size ≤ sizes.foldl max start := by
  induction sizes generalizing start with
  | nil => exact low.resolve_right List.not_mem_nil
  | cons first rest ih =>
      rw [List.foldl_cons]
      apply ih
      rcases low with low | member
      · exact Or.inl (Nat.le_trans low (Nat.le_max_left start first))
      · rcases List.mem_cons.mp member with rfl | member
        · exact Or.inl (Nat.le_max_right start size)
        · exact Or.inr member

namespace Table

section

variable {border : Border} {columns : Nat}

theorem columnCount_eq {table : Table} {row : List String} {rest : List (List String)}
    (rows : table.allRows = row :: rest) (even : ∀ row ∈ table.allRows, row.length = columns) :
    table.columnCount = columns := by
  rw [rows] at even
  obtain ⟨first, others⟩ := List.forall_mem_cons.mp even
  rw [columnCount, rows, List.map_cons, List.foldl_cons, first, Nat.zero_max]
  apply foldl_max_of_le
  intro size member
  obtain ⟨row, inside, rfl⟩ := List.mem_map.mp member
  exact Nat.le_of_eq (others row inside)

theorem piecesFrom_of_even {rows : List (List String)}
    (even : ∀ row ∈ rows, row.length = columns) :
    piecesFrom columns [] rows = rows.map fun row => row.map Piece.cell := by
  induction rows with
  | nil => rfl
  | cons row rest ih =>
      obtain ⟨first, others⟩ := List.forall_mem_cons.mp even
      simp [piecesFrom, Piece.blanks, first, ih others]

theorem lineParts_nil (number : Nat) (widths : List Nat) :
    lineParts border number widths [] = "" := rfl

theorem exists_lineParts_cons (number : Nat) (widths : List Nat) (cell : String)
    (rest : List Piece) :
    ∃ room, lineParts border number widths (Piece.cell cell :: rest)
      = String.singleton border.vertical ++ " " ++ (cellLine number cell ++ spaces room) ++ " "
        ++ lineParts border number (widths.drop 1) rest := ⟨_, rfl⟩

theorem sideBySide_lineParts (number : Nat) (widths : List Nat) (row : List String) :
    SideBySide border.vertical (row.map (cellLine number))
      (lineParts border number widths (row.map Piece.cell)
        ++ String.singleton border.vertical) := by
  induction row generalizing widths with
  | nil =>
      rw [List.map_nil, List.map_nil, lineParts_nil, String.empty_append]
      exact .nothing
  | cons cell rest ih =>
      obtain ⟨room, parts⟩ :=
        @exists_lineParts_cons border number widths cell (rest.map Piece.cell)
      rw [List.map_cons, List.map_cons, parts, String.append_assoc]
      exact .text room (ih _)

theorem showsRow_rowLines (widths : List Nat) (row : List String) :
    ShowsRow border.vertical row (rowLines border widths (row.map Piece.cell)) := by
  have heights : (row.map Piece.cell).map (·.lines.length)
      = row.map fun cell => (Text.lines cell).length := by
    simp [Piece.cell, Pen.carried, length_carriedFrom]
  have height : (rowLines border widths (row.map Piece.cell)).length
      = (row.map fun cell => (Text.lines cell).length).foldl max 1 := by
    rw [rowLines, List.length_map, List.length_range, rowHeight, heights]
  refine ⟨?_, ?_, ?_⟩
  · intro cell member
    rw [height]
    exact le_foldl_max (Or.inr (List.mem_map.mpr ⟨cell, member, rfl⟩))
  · intro number line there
    obtain ⟨_, rfl⟩ : number < rowHeight (row.map Piece.cell) ∧
        rowLine border widths (row.map Piece.cell) number = line := by
      simpa [rowLines, List.getElem?_eq_some_iff] using there
    exact sideBySide_lineParts number widths row
  · intro simple
    have one : rowHeight (row.map Piece.cell) = 1 := by
      rw [rowHeight, heights]
      apply foldl_max_of_le
      intro size member
      obtain ⟨cell, inside, rfl⟩ := List.mem_map.mp member
      rw [Text.lines_of_not_mem (simple cell inside).1]
      exact Nat.le_refl 1
    have asTheyAre : row.map (cellLine 0) = row := by
      rw [List.map_congr_left (g := id), List.map_id]
      intro cell inside
      rw [cellLine, carried_of_isSimple (simple cell inside)]
      rfl
    refine ⟨rowLine border widths (row.map Piece.cell) 0, ?_, ?_⟩
    · rw [rowLines, one]
      rfl
    · have shows := @sideBySide_lineParts border 0 widths row
      rw [asTheyAre] at shows
      exact shows

theorem showsRows_linesFrom (widths : List Nat) (rule : Rule) (above : List Part)
    (rows : List (List String)) : ShowsRows border.vertical rows
      (linesFrom border widths rule above (rows.map fun row => row.map Piece.cell)) := by
  induction rows generalizing rule above with
  | nil => exact .ends _
  | cons row rest ih => exact .row _ (showsRow_rowLines widths row) (ih _ _)

/-- A table of rows with equally many cells shows them all, in order. -/
theorem showsRows_render {table : Table} {row : List String} {rest : List (List String)}
    (rows : table.allRows = row :: rest) (even : ∀ row ∈ table.allRows, row.length = columns)
    (wide : 0 < columns) : ShowsRows border.vertical table.allRows (table.render border) := by
  have count := columnCount_eq rows even
  have drawn : table.columnWidths ≠ [] := by
    intro nothing
    have length := congrArg List.length nothing
    rw [columnWidths, List.length_map, List.length_range, count, List.length_nil] at length
    omega
  rw [render, if_neg (by simpa using drawn), pieces, count, piecesFrom_of_even even]
  exact showsRows_linesFrom _ _ _ _

end

end Table

end AssetCatalog.Terminal
