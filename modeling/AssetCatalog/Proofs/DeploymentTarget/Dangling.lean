import AssetCatalog.Proofs.DeploymentTarget.Search
/-! # Lines that are left dangling

What is assigned on a line depends on the line and on what follows it.  It depends on what follows
only if the line breaks off within an assignment, or has blanks at its end behind a quote
(`Dangling`): then the next lines may go on with the assignment, or close the value with a comment
(`dangling_iff`).  Lines of the usual forms are not left dangling. -/

set_option autoImplicit false

namespace AssetCatalog.DeploymentTarget

open AssetCatalog.Text

/-- The line breaks off where an assignment may go on. -/
inductive Dangling (line : List Char) : Prop
  | name {named : List Char} (begins : Named line named) (blank : Blank named) : Dangling line
  | equals {named assigned : List Char} (begins : Named line named)
      (equals : Follows ['='] named assigned) (blank : Blank assigned) : Dangling line
  | quote {value trailing : List Char} (opens : OpensOn line (value ++ '"' :: trailing))
      (some : trailing ≠ []) (blank : Blank trailing) : Dangling line

/-! ## Lines with something behind them -/

section

variable {line rest : List Char}

theorem named_append_iff (ended : AtLineEnd rest) {named : List Char} :
    Named (line ++ rest) named ↔ ∃ more, Named line more ∧ named = more ++ rest := by
  constructor
  · rintro ⟨indent, blank, inLine, split⟩
    have onLine : OneLine (indent ++ variableName.toList) :=
      oneLine_append.mpr ⟨inLine, by decide⟩
    obtain ⟨more, rfl, rfl⟩ := split_of_oneLine split.symm onLine ended
    exact ⟨more, ⟨indent, blank, inLine, rfl⟩, rfl⟩
  · rintro ⟨more, ⟨indent, blank, inLine, rfl⟩, rfl⟩
    exact ⟨indent, blank, inLine, List.append_assoc _ _ _⟩

theorem follows_append_iff {d : Char} {behind : List Char} (notBlank : ¬ Blank line) :
    Follows [d] (line ++ rest) behind ↔ ∃ more, Follows [d] line more ∧ behind = more ++ rest := by
  constructor
  · rintro ⟨gap, blank, split⟩
    rw [List.append_assoc, List.singleton_append] at split
    rcases List.append_eq_append_iff.mp split with ⟨more, rfl, _⟩ | ⟨more, rfl, behindGap⟩
    · exact absurd (blank_append.mp blank).1 notBlank
    · cases more with
      | nil => exact absurd (by simpa using blank) notBlank
      | cons first more =>
          obtain ⟨rfl, rfl⟩ := List.cons.inj behindGap
          exact ⟨more, ⟨gap, blank, by simp⟩, rfl⟩
  · rintro ⟨more, follows, rfl⟩
    exact follows.append rest

theorem closes_append_iff (ended : AtLineEnd rest)
    (settled : Blank line → line = []) : Closes (line ++ rest) ↔ Closes line := by
  cases line with
  | nil => exact iff_of_true (Or.inl ended) (Or.inl atLineEnd_nil)
  | cons c line =>
      have notBlank : ¬ Blank (c :: line) := fun blank => nomatch settled blank
      have sameStart : AtLineEnd (c :: line ++ rest) ↔ AtLineEnd (c :: line) := Iff.rfl
      simp only [Closes, sameStart, follows_append_iff notBlank]
      simp

/-- No quote of the line has only blanks behind it, other than at the end. -/
def Settled (line : List Char) : Prop :=
  ∀ value trailing, line = value ++ '"' :: trailing → Blank trailing → trailing = []

theorem Settled.behind {value behind : List Char} (settled : Settled (value ++ '"' :: behind)) :
    Settled behind := by
  rintro later trailing rfl blank
  exact settled (value ++ '"' :: later) trailing (by simp) blank

theorem unclosed_append_iff (ended : AtLineEnd rest)
    (settled : Settled line) : Unclosed (line ++ rest) ↔ Unclosed line := by
  constructor
  · rintro unclosed value behind rfl valueOnLine
    rw [← closes_append_iff ended (settled value behind rfl)]
    exact unclosed value (behind ++ rest) (by simp) valueOnLine
  · intro unclosed value behind split valueOnLine
    obtain ⟨more, rfl, rfl⟩ := split_of_oneLine_cons split valueOnLine (by decide) ended
    rw [closes_append_iff ended (settled value more rfl)]
    exact unclosed value more rfl valueOnLine

theorem holds_append_iff (ended : AtLineEnd rest) (settled : Settled line) {value : List Char} :
    Holds (line ++ rest) value ↔ Holds line value := by
  constructor
  · rintro ⟨behind, split, onLine, closes, last⟩
    obtain ⟨more, rfl, rfl⟩ := split_of_oneLine_cons split onLine (by decide) ended
    rw [closes_append_iff ended (settled value more rfl)] at closes
    rw [unclosed_append_iff ended settled.behind] at last
    exact ⟨more, rfl, onLine, closes, last⟩
  · rintro ⟨behind, rfl, onLine, closes, last⟩
    rw [← closes_append_iff ended (settled value behind rfl)] at closes
    rw [← unclosed_append_iff ended settled.behind] at last
    exact ⟨behind ++ rest, by simp, onLine, closes, last⟩

theorem opensOn_of_gaps {indent gap gap' quoted : List Char} (blank : Blank (indent ++ gap ++ gap'))
    (inLine : OneLine indent) : OpensOn
      (indent ++ variableName.toList ++ (gap ++ '=' :: (gap' ++ '"' :: quoted))) quoted := by
  rw [blank_append, blank_append] at blank
  exact ⟨gap ++ '=' :: (gap' ++ '"' :: quoted), gap' ++ '"' :: quoted,
    ⟨indent, blank.1.1, inLine, rfl⟩, ⟨gap, blank.1.2, by simp⟩, ⟨gap', blank.2, by simp⟩⟩

theorem OpensOn.append {quoted : List Char} (opens : OpensOn line quoted) (ended : AtLineEnd rest) :
    OpensOn (line ++ rest) (quoted ++ rest) := by
  obtain ⟨named, assigned, name, equals, quote⟩ := opens
  exact ⟨named ++ rest, assigned ++ rest, (named_append_iff ended).mpr ⟨named, name, rfl⟩,
    equals.append rest, quote.append rest⟩

theorem opensOn_append_iff (ended : AtLineEnd rest) (whole : ¬ Dangling line) {quoted : List Char} :
    OpensOn (line ++ rest) quoted ↔ ∃ more, OpensOn line more ∧ quoted = more ++ rest := by
  constructor
  · rintro ⟨named, assigned, name, equals, quote⟩
    obtain ⟨named, nameThere, rfl⟩ := (named_append_iff ended).mp name
    have goesOn : ¬ Blank named := fun blank => whole (.name nameThere blank)
    obtain ⟨assigned, equalsThere, rfl⟩ := (follows_append_iff goesOn).mp equals
    have goesOn : ¬ Blank assigned := fun blank => whole (.equals nameThere equalsThere blank)
    obtain ⟨more, quoteThere, rfl⟩ := (follows_append_iff goesOn).mp quote
    exact ⟨more, ⟨named, assigned, nameThere, equalsThere, quoteThere⟩, rfl⟩
  · rintro ⟨more, opens, rfl⟩
    exact opens.append ended

theorem settled_of_opensOn (whole : ¬ Dangling line) {quoted : List Char}
    (opens : OpensOn line quoted) : Settled quoted := by
  rintro value trailing rfl blank
  by_contra some
  exact whole (.quote opens some blank)

/-- A line that is not left dangling assigns the same, whatever lines follow it. -/
theorem assignedOn_append (ended : AtLineEnd rest) (whole : ¬ Dangling line) :
    assignedOn (line ++ rest) = assignedOn line := by
  ext value
  rw [assignedOn_eq_some_iff, assignedOn_eq_some_iff]
  constructor
  · rintro ⟨quoted, opens, holds⟩
    obtain ⟨more, there, rfl⟩ := (opensOn_append_iff ended whole).mp opens
    exact ⟨more, there, (holds_append_iff ended (settled_of_opensOn whole there)).mp holds⟩
  · rintro ⟨quoted, opens, holds⟩
    exact ⟨quoted ++ rest, (opensOn_append_iff ended whole).mpr ⟨quoted, opens, rfl⟩,
      (holds_append_iff ended (settled_of_opensOn whole opens)).mpr holds⟩

/-! ## Lines that are left dangling -/

theorem Named.unique {named named' : List Char} (first : Named line named)
    (second : Named line named') : named = named' := by
  have same := follows_name_iff.mp (named_iff.mp first).1
  rw [follows_name_iff.mp (named_iff.mp second).1] at same
  exact (List.append_cancel_left same).symm

theorem OpensOn.unique {quoted quoted' : List Char} (first : OpensOn line quoted)
    (second : OpensOn line quoted') : quoted = quoted' := by
  obtain ⟨named, assigned, name, equals, quote⟩ := first
  obtain ⟨named', assigned', name', equals', quote'⟩ := second
  obtain rfl := name.unique name'
  obtain rfl := equals.unique (by decide) equals'
  exact quote.unique (by decide) quote'

/-- No value begins on a line that breaks off behind the name. -/
theorem Named.not_opensOn {named quoted : List Char} (begins : Named line named)
    (blank : Blank named) : ¬ OpensOn line quoted := by
  rintro ⟨_, _, name, equals, _⟩
  obtain rfl := begins.unique name
  exact not_blank_of_follows (by decide) equals blank

theorem Named.not_opensOn_of_equals {named assigned quoted : List Char} (begins : Named line named)
    (equals : Follows ['='] named assigned) (blank : Blank assigned) : ¬ OpensOn line quoted := by
  rintro ⟨_, _, name, equals', quote⟩
  obtain rfl := begins.unique name
  obtain rfl := equals.unique (by decide) equals'
  exact not_blank_of_follows (by decide) quote blank

theorem suffix_of_opensOn {quoted : List Char} (opens : OpensOn line quoted) : quoted <:+ line := by
  obtain ⟨named, assigned, name, equals, quote⟩ := opens
  exact suffix_of_opens ⟨named, assigned, (named_iff.mp name).1, equals, quote⟩

theorem holds_empty : Holds ['"'] [] := by
  refine ⟨[], rfl, oneLine_nil, Or.inl atLineEnd_nil, unclosed_of_atLineEnd atLineEnd_nil⟩

theorem unclosed_of_not_mem {cs : List Char} (noQuote : '"' ∉ cs) : Unclosed cs := by
  rintro value behind rfl
  exact absurd (by simp) noQuote

theorem not_closes_of_blank {cs : List Char} (inLine : OneLine cs) (blank : Blank cs)
    (some : cs ≠ []) : ¬ Closes cs := by
  rintro (ended | ⟨comment, follows⟩)
  · exact some (eq_nil_of_oneLine_of_atLineEnd inLine ended)
  · exact not_blank_of_follows hash_solid follows blank

/-- The next line may go on where the line breaks off. -/
theorem exists_assigns_of_dangling (inLine : OneLine line) (dangling : Dangling line) :
    ∃ following value, Assigns (line ++ '\n' :: following) value ∧ ¬ Assigns line value := by
  have ended : ∀ following, AtLineEnd ('\n' :: following) := fun following =>
    atLineEnd_cons.mpr (by decide)
  have feed : isBlank '\n' = true := by decide
  cases dangling with
  | @name named begins blank =>
      refine ⟨['=', '"', '"'], [], ⟨['"'], ⟨named ++ '\n' :: ['=', '"', '"'], ['"', '"'],
        (named_append_iff (ended _)).mpr ⟨named, begins, rfl⟩, ?_, ⟨[], blank_nil, rfl⟩⟩,
        holds_empty⟩, ?_⟩
      · exact ⟨named ++ ['\n'], by simp [blank, feed], by simp⟩
      · rintro ⟨_, opens, _⟩
        exact begins.not_opensOn blank opens
  | @equals named assigned begins equals blank =>
      refine ⟨['"', '"'], [], ⟨['"'], ⟨named ++ '\n' :: ['"', '"'], assigned ++ '\n' :: ['"', '"'],
        (named_append_iff (ended _)).mpr ⟨named, begins, rfl⟩, equals.append _, ?_⟩,
        holds_empty⟩, ?_⟩
      · exact ⟨assigned ++ ['\n'], by simp [blank, feed], by simp⟩
      · rintro ⟨_, opens, _⟩
        exact begins.not_opensOn_of_equals equals blank opens
  | @quote value trailing opens some blank =>
      have onLine := oneLine_of_suffix (suffix_of_opensOn opens) inLine
      obtain ⟨valueOnLine, behindOnLine⟩ := oneLine_append.mp onLine
      have noQuote : '"' ∉ trailing ++ '\n' :: ['#'] := by
        intro member
        have inTrailing : '"' ∈ trailing := by simpa using member
        exact absurd (blank _ inTrailing) (by decide)
      refine ⟨['#'], value, ⟨_, opens.append (ended _), trailing ++ '\n' :: ['#'], by simp,
        valueOnLine, Or.inr ⟨[], ?_⟩, unclosed_of_not_mem noQuote⟩, ?_⟩
      · exact ⟨trailing ++ ['\n'], by simp [blank, feed], by simp⟩
      · rintro ⟨_, opens', behind, rfl, _, closes, _⟩
        obtain rfl : behind = trailing := by simpa using opens'.unique opens
        exact not_closes_of_blank (oneLine_cons.mp behindOnLine).2 blank some closes

theorem dangling_iff (inLine : OneLine line) :
    Dangling line ↔ ∃ following, assignedOn (line ++ '\n' :: following) ≠ assignedOn line := by
  constructor
  · intro dangling
    obtain ⟨following, value, there, notAlone⟩ := exists_assigns_of_dangling inLine dangling
    refine ⟨following, fun same => notAlone ?_⟩
    rw [assignedOn_eq_some_iff.mpr there] at same
    exact assignedOn_eq_some_iff.mp same.symm
  · rintro ⟨following, changed⟩
    by_contra whole
    exact changed (assignedOn_append (atLineEnd_cons.mpr (by decide)) whole)

/-! ## Lines of the usual forms -/

/-- The line assigns a value without quotes; there may be a comment without quotes behind it. -/
def AssignmentLine (line value : List Char) : Prop :=
  ∃ ending, OpensOn line (value ++ '"' :: ending) ∧ '"' ∉ value ∧
    (ending = [] ∨ ∃ comment, Follows ['#'] ending comment ∧ '"' ∉ comment)

/-- The line does not begin with the name and, behind it, an equals sign or the end of the line. -/
def OtherLine (line : List Char) : Prop :=
  ∀ named, Named line named → ¬ Blank named ∧ ∀ assigned, ¬ Follows ['='] named assigned

theorem otherLine_of_first (first : (line.dropWhile isBlank).head? ≠ some 'm') :
    OtherLine line := by
  intro named name
  have split := follows_name_iff.mp (named_iff.mp name).1
  rw [split, variableName_eq] at first
  exact absurd rfl first

theorem Named.otherLine {named : List Char} (name : Named line named) (goesOn : ¬ Blank named)
    (first : (named.dropWhile isBlank).head? ≠ some '=') : OtherLine line := by
  intro named' name'
  obtain rfl := name.unique name'
  refine ⟨goesOn, fun assigned equals => first ?_⟩
  rw [(follows_cons_iff (by decide)).mp equals]
  rfl

theorem quote_not_mem_of_blank {cs : List Char} (blank : Blank cs) : '"' ∉ cs :=
  fun member => absurd (blank _ member) (by decide)

theorem quote_not_mem_ending {ending : List Char}
    (ends : ending = [] ∨ ∃ comment, Follows ['#'] ending comment ∧ '"' ∉ comment) :
    '"' ∉ ending := by
  rcases ends with rfl | ⟨comment, ⟨gap, blank, rfl⟩, noQuote⟩
  · exact List.not_mem_nil
  · simp [quote_not_mem_of_blank blank, noQuote]

theorem AssignmentLine.assignedOn {value : List Char} (form : AssignmentLine line value)
    (inLine : OneLine line) : assignedOn line = some value := by
  obtain ⟨ending, opens, _, ends⟩ := form
  have onLine := oneLine_of_suffix (suffix_of_opensOn opens) inLine
  refine assignedOn_eq_some_iff.mpr ⟨_, opens, ending, rfl, (oneLine_append.mp onLine).1, ?_,
    unclosed_of_not_mem (quote_not_mem_ending ends)⟩
  rcases ends with rfl | ⟨comment, follows, _⟩
  · exact Or.inl atLineEnd_nil
  · exact Or.inr ⟨comment, follows⟩

theorem AssignmentLine.whole {value : List Char} (form : AssignmentLine line value) :
    ¬ Dangling line := by
  obtain ⟨ending, there, noQuote, ends⟩ := form
  intro dangling
  cases dangling with
  | name begins blank => exact begins.not_opensOn blank there
  | equals begins equals blank => exact begins.not_opensOn_of_equals equals blank there
  | quote opens some blank =>
      have same := opens.unique there
      obtain ⟨rfl, _, rfl⟩ :=
        (List.append_cons_inj_of_notMem noQuote (quote_not_mem_ending ends)).mp same.symm
      rcases ends with rfl | ⟨comment, follows, _⟩
      · exact some rfl
      · exact not_blank_of_follows hash_solid follows blank

theorem OtherLine.assignedOn (form : OtherLine line) : assignedOn line = none := by
  rw [assignedOn_eq_none_iff]
  rintro value ⟨_, ⟨named, assigned, name, equals, _⟩, _⟩
  exact (form named name).2 assigned equals

theorem OtherLine.whole (form : OtherLine line) : ¬ Dangling line := by
  intro dangling
  cases dangling with
  | name begins blank => exact (form _ begins).1 blank
  | equals begins equals _ => exact (form _ begins).2 _ equals
  | quote opens _ _ =>
      obtain ⟨named, assigned, name, equals, _⟩ := opens
      exact (form named name).2 assigned equals

end

end AssetCatalog.DeploymentTarget
