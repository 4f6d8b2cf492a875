/-! # White space and line ends

`isBlank` is the one set of white space used throughout: the Unicode space separators, the
control characters from tab to carriage return, the two Unicode line separators and the byte
order mark.  Neither U+0085 nor U+200B is in it.  `endsLine` holds the four characters that
end a line of a text.  Trimming takes blanks off both ends and nothing else. -/

set_option autoImplicit false

namespace AssetCatalog.Text

def blankRanges : List (Nat × Nat) :=
  [(0x09, 0x0D), (0x20, 0x20), (0xA0, 0xA0), (0x1680, 0x1680), (0x2000, 0x200A),
    (0x2028, 0x2029), (0x202F, 0x202F), (0x205F, 0x205F), (0x3000, 0x3000), (0xFEFF, 0xFEFF)]

def inRanges (ranges : List (Nat × Nat)) (code : Nat) : Bool :=
  ranges.any fun range => decide (range.1 ≤ code) && decide (code ≤ range.2)

def isBlank (c : Char) : Bool := inRanges blankRanges c.toNat

/-- Line feed, carriage return and the two Unicode separators end a line. -/
def endsLine (c : Char) : Bool :=
  c = '\n' || c = '\r' || c = '\u2028' || c = '\u2029'

def skipBlanks (cs : List Char) : List Char := cs.dropWhile isBlank

def trim (cs : List Char) : List Char :=
  (skipBlanks (skipBlanks cs).reverse).reverse

def trimmed (s : String) : String := String.ofList (trim s.toList)

theorem isBlank_of_endsLine {c : Char} (h : endsLine c = true) : isBlank c = true := by
  simp only [endsLine, Bool.or_eq_true, decide_eq_true_eq] at h
  rcases h with ((rfl | rfl) | rfl) | rfl <;> decide

end AssetCatalog.Text
