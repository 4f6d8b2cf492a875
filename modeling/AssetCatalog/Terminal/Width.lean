import AssetCatalog.Terminal.Emoji
import AssetCatalog.Terminal.Sequence
/-! # The width of text on a terminal

A terminal shows text in cells.  Control sequences are not shown; control characters and
combining marks take no cell, wide characters and emoji take two, and all others one. -/

set_option autoImplicit false

namespace AssetCatalog.Terminal

open AssetCatalog.Text (inRanges)

/-! ## Classes of characters -/

def controlRanges : List (Nat × Nat) := [(0x00, 0x1F), (0x7F, 0x9F)]

def combiningRanges : List (Nat × Nat) := [(0x300, 0x36F)]

def wideRanges : List (Nat × Nat) :=
  [(0x1100, 0x115F), (0x2329, 0x232A), (0x2E80, 0x303E), (0x3040, 0x3247), (0x3250, 0x4DBF),
    (0x4E00, 0xA4C6), (0xA960, 0xA97C), (0xAC00, 0xD7A3), (0xF900, 0xFAFF), (0xFE10, 0xFE19),
    (0xFE30, 0xFE6B), (0xFF01, 0xFF60), (0xFFE0, 0xFFE6), (0x1B000, 0x1B001),
    (0x1F200, 0x1F251), (0x20000, 0x3FFFD)]

/-! ## Cells -/

def plainCells (code : Nat) : Nat :=
  if inRanges controlRanges code || inRanges combiningRanges code then 0
  else if inRanges wideRanges code then 2 else 1

/-- The cells of characters, the first `skip` of which belong to an emoji that is counted. -/
def cellsFrom (skip : Nat) : List Char → Nat
  | [] => 0
  | c :: rest =>
    match skip with
    | more + 1 => cellsFrom more rest
    | 0 =>
      match Emoji.lengthAt (c :: rest) with
      | 0 => plainCells c.toNat + cellsFrom 0 rest
      | more + 1 => 2 + cellsFrom more rest

def width (s : String) : Nat := cellsFrom 0 (Sequence.shown s.toList)

example : width "日本_語" = 7 := by decide +kernel
example : width "e\u0301😀" = 3 := by decide +kernel
example : width "\x1b[1mbold\x1b[22m" = 4 := by decide +kernel

end AssetCatalog.Terminal
