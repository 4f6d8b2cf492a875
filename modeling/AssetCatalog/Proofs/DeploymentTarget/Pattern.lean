import AssetCatalog.DeploymentTarget
import AssetCatalog.Proofs.Text.LineStarts
/-! # What an assignment is

An assignment is the variable's name, an equals sign and a quoted value, with blanks before each
(`Follows`).  The value goes on to the last quote of its line behind which the assignment may end
(`Holds`); `Unclosed` says of what is behind that quote that no further one will do.
`assignment_eq_some_iff` says that these are the assignments found, and how far they reach. -/

set_option autoImplicit false

namespace AssetCatalog.DeploymentTarget

open AssetCatalog.Text

def Follows (mark cs rest : List Char) : Prop := ∃ gap, Blank gap ∧ cs = gap ++ mark ++ rest

/-- The assignment may end before the characters: the line is over, or a comment follows. -/
def Closes (behind : List Char) : Prop := AtLineEnd behind ∨ ∃ comment, Follows ['#'] behind comment

/-- No quote on the line is one at which the value may end. -/
def Unclosed (cs : List Char) : Prop :=
  ∀ value behind, cs = value ++ '"' :: behind → OneLine value → ¬ Closes behind

/-- The characters begin with the value, up to the last quote at which it may end. -/
def Holds (cs value : List Char) : Prop :=
  ∃ behind, cs = value ++ '"' :: behind ∧ OneLine value ∧ Closes behind ∧ Unclosed behind

/-! ## Marks -/

theorem follows_cons_iff {d : Char} {more cs rest : List Char} (solid : isBlank d = false) :
    Follows (d :: more) cs rest ↔ cs.dropWhile isBlank = d :: (more ++ rest) := by
  constructor
  · rintro ⟨gap, blank, rfl⟩
    rw [List.append_assoc, List.dropWhile_append_of_pos blank]
    simp [solid]
  · intro dropped
    refine ⟨cs.takeWhile isBlank, List.all_eq_true.mp List.all_takeWhile, ?_⟩
    rw [List.append_assoc, List.cons_append, ← dropped, List.takeWhile_append_dropWhile]

theorem Follows.unique {d : Char} {more cs rest rest' : List Char} (solid : isBlank d = false)
    (first : Follows (d :: more) cs rest) (second : Follows (d :: more) cs rest') :
    rest = rest' := by
  rw [follows_cons_iff solid] at first second
  simpa using first.symm.trans second

theorem Follows.append {mark cs rest : List Char} (follows : Follows mark cs rest)
    (more : List Char) : Follows mark (cs ++ more) (rest ++ more) := by
  obtain ⟨gap, blank, rfl⟩ := follows
  exact ⟨gap, blank, by simp⟩

theorem not_blank_of_follows {d : Char} {more cs rest : List Char} (solid : isBlank d = false)
    (follows : Follows (d :: more) cs rest) : ¬ Blank cs := by
  obtain ⟨gap, _, rfl⟩ := follows
  intro blank
  have mark := blank d (by simp)
  rw [solid] at mark
  cases mark

theorem suffix_of_follows {mark cs rest : List Char} (follows : Follows mark cs rest) :
    rest <:+ cs := by
  obtain ⟨gap, _, rfl⟩ := follows
  exact List.suffix_append _ _

theorem drop_length_takeWhile (p : Char → Bool) (cs : List Char) :
    cs.drop (cs.takeWhile p).length = cs.dropWhile p := by
  have behind := @List.drop_append_length _ (cs.takeWhile p) (cs.dropWhile p)
  rwa [List.takeWhile_append_dropWhile] at behind

theorem expect_eq_some_iff {d : Char} {more cs rest : List Char} {taken reached : Nat}
    (solid : isBlank d = false) : expect (d :: more) taken cs = some (rest, reached) ↔
      Follows (d :: more) cs rest ∧ reached + rest.length = taken + cs.length := by
  have lengths := congrArg List.length (List.takeWhile_append_dropWhile (p := isBlank) (l := cs))
  rw [List.length_append] at lengths
  simp only [expect, drop_length_takeWhile, Option.map_eq_some_iff,
    List.isPrefixOf?_eq_some_iff_append_eq, Prod.mk.injEq, follows_cons_iff solid]
  constructor
  · rintro ⟨found, split, rfl, rfl⟩
    refine ⟨split.symm, ?_⟩
    rw [← split, List.length_append] at lengths
    omega
  · rintro ⟨split, reaches⟩
    refine ⟨rest, split.symm, rfl, ?_⟩
    rw [split] at lengths
    simp only [List.length_cons, List.length_append] at lengths ⊢
    omega

/-! ## Where an assignment may end -/

theorem hash_solid : isBlank '#' = false := by decide

/-- Behind the closing quote there is a comment, which is taken up, or the end of the line. -/
theorem tail_eq_some_iff {behind : List Char} {used : Nat} : tail behind = some used ↔
    (∃ comment, Follows ['#'] behind comment ∧
      used + comment.length = behind.length + (firstLine comment).length) ∨
    ((∀ comment, ¬ Follows ['#'] behind comment) ∧ AtLineEnd behind ∧ used = 0) := by
  have lengths :=
    congrArg List.length (List.takeWhile_append_dropWhile (p := isBlank) (l := behind))
  rw [List.length_append] at lengths
  simp only [tail, drop_length_takeWhile, follows_cons_iff hash_solid, List.nil_append]
  split
  · next comment split =>
      rw [split, List.length_cons] at lengths
      simp only [split, Option.some.injEq, List.cons.injEq, true_and]
      constructor
      · rintro rfl
        refine Or.inl ⟨comment, rfl, ?_⟩
        unfold firstLine
        omega
      · rintro (⟨_, rfl, reaches⟩ | ⟨none, _⟩)
        · unfold firstLine at reaches
          omega
        · exact absurd rfl (none comment)
  · next noComment =>
      constructor
      · rintro ⟨⟩
        exact Or.inr ⟨fun comment split => (nomatch split), atLineEnd_nil, rfl⟩
      · rintro (⟨comment, split, _⟩ | ⟨_, _, rfl⟩)
        · cases split
        · rfl
  · next c rest noComment =>
      have none : ∀ comment, (c :: rest).dropWhile isBlank ≠ '#' :: comment := noComment
      cases ends : endsLine c with
      | true => simp [none, ends, eq_comm (a := 0)]
      | false => simp [none, ends]

theorem exists_tail_iff {behind : List Char} :
    (∃ used, tail behind = some used) ↔ Closes behind := by
  constructor
  · rintro ⟨used, ends⟩
    rcases tail_eq_some_iff.mp ends with ⟨comment, follows, _⟩ | ⟨_, ended, _⟩
    · exact Or.inr ⟨comment, follows⟩
    · exact Or.inl ended
  · intro closes
    by_cases commented : ∃ comment, Follows ['#'] behind comment
    · obtain ⟨comment, follows⟩ := commented
      have within := (suffix_of_follows follows).length_le
      refine ⟨behind.length - comment.length + (firstLine comment).length,
        tail_eq_some_iff.mpr (Or.inl ⟨comment, follows, ?_⟩)⟩
      omega
    · have ended := closes.resolve_right commented
      exact ⟨0, tail_eq_some_iff.mpr (Or.inr ⟨not_exists.mp commented, ended, rfl⟩)⟩

/-! ## Values -/

theorem unclosed_of_atLineEnd {cs : List Char} (ended : AtLineEnd cs) : Unclosed cs := by
  rintro value behind rfl line _
  cases value with
  | nil => exact not_atLineEnd_cons (by decide) ended
  | cons c value => exact not_atLineEnd_cons (oneLine_cons.mp line).1 ended

theorem unclosed_cons_iff {c : Char} {cs : List Char} (goesOn : endsLine c = false) :
    Unclosed (c :: cs) ↔ (c = '"' → ¬ Closes cs) ∧ Unclosed cs := by
  constructor
  · intro unclosed
    refine ⟨?_, ?_⟩
    · rintro rfl
      exact unclosed [] cs rfl oneLine_nil
    · rintro value behind rfl line
      exact unclosed (c :: value) behind rfl (oneLine_cons.mpr ⟨goesOn, line⟩)
  · rintro ⟨here, later⟩ value behind split line
    cases value with
    | nil =>
        cases split
        exact here rfl
    | cons first value =>
        cases split
        exact later value behind rfl (oneLine_cons.mp line).2

section

variable {line behind : List Char}

theorem closeValue_cons (c : Char) : closeValue (c :: line) behind
    = match closeValue line behind with
      | some (value, used) => some (c :: value, used + 1)
      | none => if c = '"' then (tail (line ++ behind)).map fun used => ([], used + 1) else none :=
  rfl

theorem closeValue_eq_none_iff (isLine : OneLine line) (ended : AtLineEnd behind) :
    closeValue line behind = none ↔ Unclosed (line ++ behind) := by
  induction line with
  | nil => exact iff_of_true rfl (unclosed_of_atLineEnd ended)
  | cons c line ih =>
      obtain ⟨goesOn, isLine⟩ := oneLine_cons.mp isLine
      rw [List.cons_append, unclosed_cons_iff goesOn, ← ih isLine, closeValue_cons,
        ← exists_tail_iff]
      cases closeValue line behind with
      | some found => simp
      | none =>
          by_cases quote : c = '"'
          · simp [quote, Option.eq_none_iff_forall_ne_some]
          · simp [quote]

/-- The characters begin with the value that they hold, and so many are taken up with it. -/
def HoldsUpTo (cs value : List Char) (used : Nat) : Prop :=
  ∃ behind reach, cs = value ++ '"' :: behind ∧ OneLine value ∧ tail behind = some reach ∧
    Unclosed behind ∧ used = value.length + 1 + reach

theorem holdsUpTo_cons_iff {c : Char} {cs value : List Char} {used : Nat}
    (goesOn : endsLine c = false) : HoldsUpTo (c :: cs) value used ↔
      (c = '"' ∧ value = [] ∧ Unclosed cs ∧ ∃ reach, tail cs = some reach ∧ used = reach + 1) ∨
      ∃ value' used', value = c :: value' ∧ used = used' + 1 ∧ HoldsUpTo cs value' used' := by
  constructor
  · rintro ⟨behind, reach, split, inLine, ends, last, rfl⟩
    cases value with
    | nil =>
        obtain ⟨rfl, rfl⟩ := List.cons.inj split
        exact Or.inl ⟨rfl, rfl, last, reach, ends, by simp [Nat.add_comm]⟩
    | cons first value =>
        obtain ⟨rfl, rest⟩ := List.cons.inj split
        refine Or.inr ⟨value, value.length + 1 + reach, rfl, ?_, behind, reach, rest,
          (oneLine_cons.mp inLine).2, ends, last, rfl⟩
        rw [List.length_cons]
        omega
  · rintro (⟨rfl, rfl, last, reach, ends, rfl⟩ | ⟨value, used, rfl, rfl, further⟩)
    · exact ⟨cs, reach, rfl, oneLine_nil, ends, last, by simp [Nat.add_comm]⟩
    · obtain ⟨behind, reach, rfl, inLine, ends, last, rfl⟩ := further
      refine ⟨behind, reach, rfl, oneLine_cons.mpr ⟨goesOn, inLine⟩, ends, last, ?_⟩
      rw [List.length_cons]
      omega

theorem closeValue_eq_some_iff (isLine : OneLine line) (ended : AtLineEnd behind)
    {value : List Char} {used : Nat} :
    closeValue line behind = some (value, used) ↔ HoldsUpTo (line ++ behind) value used := by
  induction line generalizing value used with
  | nil =>
      refine iff_of_false (fun found => nomatch found) ?_
      rintro ⟨rest, reach, split, inLine, ends, _⟩
      exact unclosed_of_atLineEnd ended value rest split inLine (exists_tail_iff.mp ⟨reach, ends⟩)
  | cons c line ih =>
      obtain ⟨goesOn, isLine⟩ := oneLine_cons.mp isLine
      have none := closeValue_eq_none_iff isLine ended
      rw [List.cons_append, holdsUpTo_cons_iff goesOn, closeValue_cons, ← none]
      simp only [← ih isLine]
      cases closeValue line behind with
      | some found => simp [Prod.ext_iff, eq_comm]
      | none =>
          by_cases quote : c = '"'
          · cases tail (line ++ behind) with
            | none => simp [quote]
            | some reach => simp [quote, eq_comm]
          · simp [quote]

end

/-! ## Assignments -/

/-- The variable's name, an equals sign and an opening quote, each behind blanks. -/
def Opens (cs quoted : List Char) : Prop :=
  ∃ named assigned, Follows variableName.toList cs named ∧ Follows ['='] named assigned ∧
    Follows ['"'] assigned quoted

theorem variableName_eq : variableName.toList = 'm' :: "ac_deployment_target".toList := by decide

theorem follows_name_iff {cs rest : List Char} :
    Follows variableName.toList cs rest ↔ cs.dropWhile isBlank = variableName.toList ++ rest := by
  rw [variableName_eq]
  exact follows_cons_iff (by decide)

theorem expect_name_eq_some_iff {cs rest : List Char} {taken reached : Nat} :
    expect variableName.toList taken cs = some (rest, reached) ↔
      Follows variableName.toList cs rest ∧ reached + rest.length = taken + cs.length := by
  rw [variableName_eq]
  exact expect_eq_some_iff (by decide)

/-- An assignment is an opening and the value that follows; the rest of its length is the value
and what belongs to it. -/
theorem assignment_eq_some_iff {cs value : List Char} {used : Nat} :
    assignment cs = some (value, used) ↔ ∃ quoted reach, Opens cs quoted ∧
      HoldsUpTo quoted value reach ∧ used + quoted.length = cs.length + reach := by
  have held : ∀ quoted value reach, closeValue (quoted.takeWhile fun c => !endsLine c)
      (quoted.drop (quoted.takeWhile fun c => !endsLine c).length) = some (value, reach)
        ↔ HoldsUpTo quoted value reach := by
    intro quoted value reach
    have cut := @closeValue_eq_some_iff _ _ (oneLine_firstLine quoted)
      (atLineEnd_dropWhile quoted) value reach
    rw [firstLine, List.takeWhile_append_dropWhile] at cut
    rwa [drop_length_takeWhile]
  simp only [assignment, Option.bind_eq_bind, Option.bind_eq_some_iff, Prod.exists,
    expect_name_eq_some_iff, expect_eq_some_iff (show isBlank '=' = false by decide),
    expect_eq_some_iff (show isBlank '"' = false by decide), held]
  constructor
  · rintro ⟨named, n, ⟨name, nameEnds⟩, assigned, m, ⟨equals, equalsEnd⟩, quoted, k,
      ⟨quote, quoteEnds⟩, found, reach, holds, same⟩
    cases same
    refine ⟨quoted, reach, ⟨named, assigned, name, equals, quote⟩, holds, ?_⟩
    omega
  · rintro ⟨quoted, reach, ⟨named, assigned, name, equals, quote⟩, holds, reaches⟩
    have toName := (suffix_of_follows name).length_le
    have toEquals := (suffix_of_follows equals).length_le
    have toQuote := (suffix_of_follows quote).length_le
    refine ⟨named, cs.length - named.length, ⟨name, ?_⟩, assigned, cs.length - assigned.length,
      ⟨equals, ?_⟩, quoted, cs.length - quoted.length, ⟨quote, ?_⟩, value, reach, holds, ?_⟩
    · omega
    · omega
    · omega
    · rw [show used = cs.length - quoted.length + reach by omega]
      rfl

end AssetCatalog.DeploymentTarget
