import AssetCatalog.Text.Blank
/-! # Control sequences

A control sequence begins with an escape character, or with the one character that stands for
an escape and a bracket, and is not shown.  Two forms are told apart: any sequence, and a style
code, which is an escape, a bracket, up to six numbers between semicolons, and an `m`.  Each
function on a form gives the length of what stands at the beginning of the characters. -/

set_option autoImplicit false

namespace AssetCatalog.Terminal.Sequence

def escape : Char := '\x1b'

def escapeBracket : Char := '\u009b'

def bell : Char := '\x07'

def isDigit (c : Char) : Bool := decide ('0' ≤ c) && decide (c ≤ '9')

def isLetter (c : Char) : Bool :=
  (decide ('a' ≤ c) && decide (c ≤ 'z')) || (decide ('A' ≤ c) && decide (c ≤ 'Z'))

def isIntroducer (c : Char) : Bool := "[]()#;?".toList.contains c

def isFinal (c : Char) : Bool :=
  isDigit c || (decide ('A' ≤ c) && decide (c ≤ 'P')) || (decide ('R' ≤ c) && decide (c ≤ 'T'))
    || (decide ('f' ≤ c) && decide (c ≤ 'n')) || "Zctqry=><~".toList.contains c

def isTextual (c : Char) : Bool :=
  isLetter c || isDigit c || "-/#&.:=?%@~_".toList.contains c

/-! ## Any sequence

The functions here give what follows a part of a sequence. -/

/-- What follows parts of a text, each behind a semicolon; `least` characters make a part. -/
def afterParts (least : Nat) (most : Nat) (cs : List Char) : List Char :=
  match most, cs with
  | more + 1, ';' :: rest =>
    if least ≤ (rest.takeWhile isTextual).length then
      afterParts least more (rest.dropWhile isTextual)
    else cs
  | _, _ => cs

def afterBell : List Char → Option (List Char)
  | [] => none
  | c :: rest => if c = bell then some rest else none

def afterText (cs : List Char) : Option (List Char) :=
  (afterBell (afterParts 1 cs.length cs)).or <|
    match cs.dropWhile fun c => isLetter c || isDigit c with
    | [] => none
    | rest =>
      if rest.length < cs.length then afterBell (afterParts 0 cs.length rest) else none

/-- What follows groups of up to four digits, each behind a semicolon, and the place behind the
last digit; `last` is that place so far. -/
def afterGroups (most : Nat) (last cs : List Char) : List Char × List Char :=
  match most, cs with
  | more + 1, ';' :: rest =>
    let digits := (rest.take 4).takeWhile isDigit
    let rest := rest.drop digits.length
    afterGroups more (if digits.isEmpty then last else rest) rest
  | _, _ => (cs, last)

/-- What follows numbers and the character that ends the sequence; without one, the last digit
ends it. -/
def afterNumbers (cs : List Char) : Option (List Char) :=
  match cs with
  | [] => none
  | c :: rest =>
    if isDigit c then
      let tail := cs.drop ((cs.take 4).takeWhile isDigit).length
      let (behind, last) := afterGroups cs.length tail tail
      match behind with
      | final :: others => some (if isFinal final then others else last)
      | [] => some last
    else if isFinal c then some rest
    else none

/-- What follows the part of a sequence behind its escape; as many introducing characters as
possible come first. -/
def afterEscape : List Char → Option (List Char)
  | [] => none
  | c :: rest =>
    ((if isIntroducer c then afterEscape rest else none).or (afterText (c :: rest))).or
      (afterNumbers (c :: rest))

def length? (cs : List Char) : Option Nat :=
  match cs with
  | [] => none
  | c :: rest =>
    if c = escape ∨ c = escapeBracket then
      (afterEscape rest).map fun tail => cs.length - tail.length
    else none

/-! ## Style codes -/

def mostSemicolons : Nat := 5

def style? : List Char → Option (List Char)
  | first :: '[' :: rest =>
    let numbers := rest.takeWhile fun c => isDigit c || c = ';'
    if first = escape ∧ (rest.drop numbers.length).head? = some 'm'
        ∧ numbers.count ';' ≤ mostSemicolons then some numbers
    else none
  | _ => none

def styleLength? (cs : List Char) : Option Nat := (style? cs).map fun numbers => numbers.length + 3

/-! ## Texts without sequences -/

/-- The characters without what is found among them, the first `skip` left out. -/
def without (find : List Char → Option Nat) (skip : Nat) : List Char → List Char
  | [] => []
  | c :: rest =>
    match skip with
    | more + 1 => without find more rest
    | 0 =>
      match find (c :: rest) with
      | some length => without find (length - 1) rest
      | none => c :: without find 0 rest

def shown (cs : List Char) : List Char := without length? 0 (without styleLength? 0 cs)

def styles : List Char → List (List Char)
  | [] => []
  | c :: rest => (style? (c :: rest)).toList ++ styles rest

example : shown "\x1b[31mred\x1b[39m".toList = "red".toList := by decide +kernel
example : shown "\x1b]8;;http://a\x07t\x1b]8;;\x07".toList = "t".toList := by decide +kernel
example : shown "\x1b[31".toList = [] := by decide +kernel
example : shown "\x1b[12345Kx\x1b[12345mx".toList = "Kxx".toList := by decide +kernel

end AssetCatalog.Terminal.Sequence
