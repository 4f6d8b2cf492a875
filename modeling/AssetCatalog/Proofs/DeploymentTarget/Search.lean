import AssetCatalog.Configuration
import AssetCatalog.Proofs.DeploymentTarget.Pattern
/-! # The search for assignments, line by line

An assignment may begin with blank lines and take up lines that follow it, but each has one line
on which the variable's name stands.  `assignedOn` is the value of the assignment whose name
stands on the first line of what is left of a text.  A search that goes on behind each assignment
passes over no other name, so it finds what is assigned on each line (`assignmentsFrom_eq`). -/

set_option autoImplicit false

namespace AssetCatalog.DeploymentTarget

open AssetCatalog.Text
open AssetCatalog.Configuration (targetIn)

def assignedOn (cs : List Char) : Option (List Char) :=
  if OneLine (cs.takeWhile isBlank) then (assignment cs).map Prod.fst else none

def Named (cs rest : List Char) : Prop :=
  ∃ indent, Blank indent ∧ OneLine indent ∧ cs = indent ++ variableName.toList ++ rest

/-- The first line has the name on it, with an equals sign and an opening quote behind. -/
def OpensOn (cs quoted : List Char) : Prop :=
  ∃ named assigned, Named cs named ∧ Follows ['='] named assigned ∧ Follows ['"'] assigned quoted

/-- The value is assigned where the name stands on the first line. -/
def Assigns (cs value : List Char) : Prop := ∃ quoted, OpensOn cs quoted ∧ Holds quoted value

/-! ## What is assigned on a line -/

theorem named_iff {cs rest : List Char} :
    Named cs rest ↔ Follows variableName.toList cs rest ∧ OneLine (cs.takeWhile isBlank) := by
  have taken : ∀ indent, Blank indent →
      (indent ++ variableName.toList ++ rest).takeWhile isBlank = indent := by
    intro indent blank
    rw [List.append_assoc, List.takeWhile_append_of_pos blank]
    exact List.append_nil indent
  constructor
  · rintro ⟨indent, blank, line, rfl⟩
    rw [taken indent blank]
    exact ⟨⟨indent, blank, rfl⟩, line⟩
  · rintro ⟨⟨indent, blank, rfl⟩, line⟩
    rw [taken indent blank] at line
    exact ⟨indent, blank, line, rfl⟩

theorem holds_iff {cs value : List Char} : Holds cs value ↔ ∃ reach, HoldsUpTo cs value reach := by
  constructor
  · rintro ⟨behind, split, line, closes, last⟩
    obtain ⟨reach, ends⟩ := exists_tail_iff.mpr closes
    exact ⟨_, behind, reach, split, line, ends, last, rfl⟩
  · rintro ⟨_, behind, reach, split, line, ends, last, _⟩
    exact ⟨behind, split, line, exists_tail_iff.mp ⟨reach, ends⟩, last⟩

theorem suffix_of_opens {cs quoted : List Char} (opens : Opens cs quoted) : quoted <:+ cs := by
  obtain ⟨named, assigned, name, equals, quote⟩ := opens
  exact (suffix_of_follows quote).trans ((suffix_of_follows equals).trans (suffix_of_follows name))

theorem exists_assignment_iff {cs value : List Char} :
    (∃ used, assignment cs = some (value, used)) ↔
      ∃ quoted, Opens cs quoted ∧ Holds quoted value := by
  constructor
  · rintro ⟨used, found⟩
    obtain ⟨quoted, reach, opens, held, _⟩ := assignment_eq_some_iff.mp found
    exact ⟨quoted, opens, holds_iff.mpr ⟨reach, held⟩⟩
  · rintro ⟨quoted, opens, holds⟩
    obtain ⟨reach, held⟩ := holds_iff.mp holds
    have within := (suffix_of_opens opens).length_le
    refine ⟨cs.length - quoted.length + reach,
      assignment_eq_some_iff.mpr ⟨quoted, reach, opens, held, ?_⟩⟩
    omega

theorem assignedOn_eq_some_iff {cs value : List Char} :
    assignedOn cs = some value ↔ Assigns cs value := by
  have opensOn : ∀ quoted,
      OpensOn cs quoted ↔ Opens cs quoted ∧ OneLine (cs.takeWhile isBlank) := by
    intro quoted
    simp only [OpensOn, Opens, named_iff, and_right_comm (c := _ ∧ _), exists_and_right]
  simp only [assignedOn, Assigns, opensOn, and_right_comm, exists_and_right]
  rw [← exists_assignment_iff]
  by_cases line : OneLine (cs.takeWhile isBlank)
  · simp [line]
  · simp [line]

theorem assignedOn_eq_none_iff {cs : List Char} :
    assignedOn cs = none ↔ ∀ value, ¬ Assigns cs value := by
  rw [Option.eq_none_iff_forall_ne_some]
  exact forall_congr' fun value => not_congr assignedOn_eq_some_iff

theorem assignment_of_other {gap rest : List Char} {d : Char} (blank : Blank gap)
    (solid : isBlank d = false) (other : d ≠ 'm') : assignment (gap ++ d :: rest) = none := by
  rw [Option.eq_none_iff_forall_ne_some]
  rintro ⟨value, used⟩ found
  obtain ⟨quoted, _, ⟨named, _, name, _⟩, _⟩ := assignment_eq_some_iff.mp found
  have first := follows_name_iff.mp name
  rw [List.dropWhile_append_of_pos blank, variableName_eq] at first
  simp [solid, other] at first

/-! ## Lines that an assignment takes up -/

theorem assignedOn_cons_blank {c : Char} {cs : List Char} (blank : isBlank c = true)
    (goesOn : endsLine c = false) : assignedOn (c :: cs) = assignedOn cs := by
  have named : ∀ rest, Named (c :: cs) rest ↔ Named cs rest := by
    intro rest
    rw [named_iff, named_iff, List.takeWhile_cons_of_pos blank, oneLine_cons, follows_name_iff,
      follows_name_iff, List.dropWhile_cons_of_pos blank]
    simp [goesOn]
  ext value
  simp only [assignedOn_eq_some_iff, Assigns, OpensOn, named]

theorem assignedOn_cons_lineEnd {c : Char} {cs : List Char} (ends : endsLine c = true) :
    assignedOn (c :: cs) = none := by
  unfold assignedOn
  rw [List.takeWhile_cons_of_pos (isBlank_of_endsLine ends)]
  simp [ends]

theorem filterMap_lineStarts_gap {gap : List Char} (blank : Blank gap) (cs : List Char) :
    (lineStarts (gap ++ cs)).filterMap assignedOn = (lineStarts cs).filterMap assignedOn := by
  induction gap with
  | nil => rfl
  | cons c gap ih =>
      obtain ⟨blank, blankRest⟩ := blank_cons.mp blank
      rw [← ih blankRest]
      cases ends : endsLine c with
      | true => simp [lineStarts, behindLineEnds, ends, assignedOn_cons_lineEnd ends]
      | false =>
          simp [lineStarts, behindLineEnds, ends, List.filterMap_cons,
            assignedOn_cons_blank blank ends]

theorem endsLine_of_solid {c : Char} (solid : isBlank c = false) : endsLine c = false := by
  cases ends : endsLine c with
  | false => rfl
  | true =>
      rw [isBlank_of_endsLine ends] at solid
      cases solid

/-- Nothing is assigned on the lines before a mark that is not the name. -/
theorem filterMap_behindLineEnds_of_follows {d : Char} {cs rest : List Char}
    (solid : isBlank d = false) (other : d ≠ 'm') (follows : Follows [d] cs rest) :
    (behindLineEnds cs).filterMap assignedOn = (behindLineEnds rest).filterMap assignedOn := by
  obtain ⟨gap, blank, rfl⟩ := follows
  have none : ∀ gap, Blank gap → assignedOn (gap ++ d :: rest) = none := by
    intro gap blank
    simp [assignedOn, assignment_of_other blank solid other]
  have here : assignedOn (d :: rest) = Option.none := none [] blank_nil
  have starts := filterMap_lineStarts_gap blank (d :: rest)
  rw [lineStarts, lineStarts, List.filterMap_cons_none (none gap blank),
    List.filterMap_cons_none here] at starts
  simpa [behindLineEnds, endsLine_of_solid solid] using starts

theorem drop_eq_of_suffix {cs rest : List Char} {n : Nat} (suffix : rest <:+ cs)
    (reaches : n + rest.length = cs.length) : cs.drop n = rest := by
  rw [show n = cs.length - rest.length by omega]
  exact (List.suffix_iff_eq_drop.mp suffix).symm

/-- Nothing is assigned in the comment behind a value, nor before it. -/
theorem filterMap_behindLineEnds_of_tail {behind : List Char} {used : Nat}
    (ends : tail behind = some used) : (behindLineEnds behind).filterMap assignedOn
      = (behindLineEnds (behind.drop used)).filterMap assignedOn := by
  rcases tail_eq_some_iff.mp ends with ⟨comment, follows, reaches⟩ | ⟨_, _, rfl⟩
  · obtain ⟨rest, whole, _⟩ := exists_firstLine comment
    have lengths := congrArg List.length whole
    rw [List.length_append] at lengths
    have within : rest <:+ behind :=
      (whole ▸ List.suffix_append _ _ : rest <:+ comment).trans (suffix_of_follows follows)
    rw [filterMap_behindLineEnds_of_follows hash_solid (by decide) follows,
      drop_eq_of_suffix within (by omega), whole, behindLineEnds_append (oneLine_firstLine comment)]
  · rfl

/-- An assignment takes up the line on which its name stands, with blank lines before it, and no
other line on which something is assigned. -/
theorem filterMap_lineStarts_of_assignment {cs value : List Char} {used : Nat}
    (found : assignment cs = some (value, used)) : (lineStarts cs).filterMap assignedOn
      = value :: (behindLineEnds (cs.drop used)).filterMap assignedOn := by
  obtain ⟨quoted, reach, opens, held, reaches⟩ := assignment_eq_some_iff.mp found
  have within := suffix_of_opens opens
  obtain ⟨named, assigned, ⟨gap, blank, rfl⟩, equals, quote⟩ := opens
  have here : assignedOn (variableName.toList ++ named) = some value :=
    assignedOn_eq_some_iff.mpr ⟨quoted, ⟨named, assigned, ⟨[], blank_nil, oneLine_nil, rfl⟩,
      equals, quote⟩, holds_iff.mpr ⟨reach, held⟩⟩
  have nameOnLine : OneLine variableName.toList := by decide
  obtain ⟨behind, more, rfl, line, ends, _, rfl⟩ := held
  have suffix : behind <:+ gap ++ variableName.toList ++ named :=
    ((List.suffix_cons _ _).trans (List.suffix_append _ _)).trans within
  have before := suffix.length_le
  have rest : (gap ++ variableName.toList ++ named).drop used = behind.drop more := by
    have lengths := @List.length_append _ value ('"' :: behind)
    rw [List.length_cons] at lengths
    rw [show used = (gap ++ variableName.toList ++ named).length - behind.length + more by omega,
      ← List.drop_drop, drop_eq_of_suffix suffix (by omega)]
  rw [rest, ← filterMap_behindLineEnds_of_tail ends, List.append_assoc,
    filterMap_lineStarts_gap blank, lineStarts, List.filterMap_cons_some here,
    behindLineEnds_append nameOnLine,
    filterMap_behindLineEnds_of_follows (by decide) (by decide) equals,
    filterMap_behindLineEnds_of_follows (by decide) (by decide) quote,
    behindLineEnds_append line]
  rfl

theorem used_pos {cs value : List Char} {used : Nat}
    (found : assignment cs = some (value, used)) : 0 < used := by
  obtain ⟨quoted, reach, opens, ⟨_, _, _, _, _, _, rfl⟩, reaches⟩ := assignment_eq_some_iff.mp found
  have within := (suffix_of_opens opens).length_le
  omega

/-! ## The whole search -/

theorem assignmentsFrom_skip (skip : Nat) (cs : List Char) :
    assignmentsFrom false skip cs = assignmentsFrom false 0 (cs.drop skip) := by
  induction cs generalizing skip with
  | nil => cases skip <;> rfl
  | cons c cs ih =>
      cases skip with
      | zero => rfl
      | succ skip => exact ih skip

theorem assignmentsFrom_cons (lineStart : Bool) (c : Char) (rest : List Char) :
    assignmentsFrom lineStart 0 (c :: rest)
      = match if lineStart then assignment (c :: rest) else none with
        | some (value, used) => value :: assignmentsFrom false (used - 1) rest
        | none => assignmentsFrom (endsLine c) 0 rest := rfl

/-- The search finds what is assigned on each line that begins in the characters. -/
theorem assignmentsFrom_eq (cs : List Char) :
    assignmentsFrom true 0 cs = (lineStarts cs).filterMap assignedOn ∧
      assignmentsFrom false 0 cs = (behindLineEnds cs).filterMap assignedOn := by
  -- the two states of the search together, on the length, since an assignment is left behind whole
  induction length : cs.length using Nat.strongRecOn generalizing cs with
  | _ n ih =>
    cases cs with
    | nil => exact ⟨rfl, rfl⟩
    | cons c rest =>
      have onward : assignmentsFrom (endsLine c) 0 rest
          = (behindLineEnds (c :: rest)).filterMap assignedOn := by
        obtain ⟨atStart, within⟩ := ih rest.length (by simp [← length]) rest rfl
        cases ends : endsLine c with
        | true => simpa [behindLineEnds, ends, lineStarts] using atStart
        | false => simpa [behindLineEnds, ends] using within
      refine ⟨?_, onward⟩
      rw [assignmentsFrom_cons, if_pos rfl]
      cases found : assignment (c :: rest) with
      | none =>
          have none : assignedOn (c :: rest) = none := by simp [assignedOn, found]
          rw [lineStarts, List.filterMap_cons_none none]
          exact onward
      | some taken =>
          obtain ⟨value, used⟩ := taken
          have some : 0 < used := used_pos found
          have behind : rest.drop (used - 1) = (c :: rest).drop used := by
            rw [← List.drop_succ_cons (a := c), Nat.sub_add_cancel some]
          have shorter : (rest.drop (used - 1)).length < n := by
            rw [List.length_drop, ← length, List.length_cons]
            omega
          have further : assignmentsFrom false (used - 1) rest
              = (behindLineEnds ((c :: rest).drop used)).filterMap assignedOn := by
            rw [assignmentsFrom_skip, (ih _ shorter _ rfl).2, behind]
          rw [filterMap_lineStarts_of_assignment found, ← further]

theorem assignments_eq (text : String) : assignments text
    = ((lineStarts text.toList).filterMap assignedOn).map String.ofList := by
  rw [assignments, (assignmentsFrom_eq text.toList).1]

/-! ## What comes of a configuration -/

/-- The cause is a failure of the configuration, which tells the number of assignments. -/
def Counts (cause : Cause) (source : String) (count : Nat) : Prop :=
  ∃ failure, cause.failure? = some failure ∧ failure.family = .configuration ∧
    failure.details = some [("source", .text source), ("matches", .ofInt count)]

theorem targetIn_eq_ok_iff {text source value : String} :
    targetIn text source = .ok value ↔ assignments text = [value] := by
  unfold targetIn extract
  split
  · next other found =>
      rw [found]
      simp [Except.mapError]
  · next none =>
      exact iff_of_false (fun found => nomatch found) (none value)

theorem exists_count {text source : String} (notOne : (assignments text).length ≠ 1) :
    ∃ cause, targetIn text source = .error cause ∧
      Counts cause source (assignments text).length := by
  unfold targetIn extract
  split
  · next value found =>
      rw [found] at notOne
      exact absurd rfl notOne
  · exact ⟨_, rfl, _, rfl, rfl, rfl⟩

end AssetCatalog.DeploymentTarget
