import AssetCatalog.Proofs.Compile.Categories
import AssetCatalog.Proofs.Version.Denotation
/-! # What the version gate decides

The gate accepts a process that has ended well and has written a dictionary in which the version
of the compiler is a text that denotes numbers (`Reported`), provided that these numbers are not
before the required ones.  The numbers are exact, however many digits they have.  In every other
case the gate refuses, and the refusal shows the two versions exactly when it is their order that
it is for (`verify_decides`). -/

set_option autoImplicit false

namespace AssetCatalog

/-! ## The version in a reply -/

namespace CompilerVersion

def Holds (value : Value) (reported : String) : Prop :=
  ∃ entries version, value = .dict entries ∧
    Dictionary.get? entries Shape.versionKey = some (.dict version) ∧
    Dictionary.get? version Shape.shortVersionKey = some (.text reported) ∧
    ∀ build, Dictionary.get? version Shape.bundleVersionKey = some build →
      ∃ content, build = .text content

theorem eq_dict_of_get? {value found : Value} {entries : List (String × Value)} {key : String}
    (same : Shape.entries? value = some entries)
    (present : Dictionary.get? entries key = some found) : value = .dict entries := by
  cases value with
  | dict own =>
      cases same
      rfl
  | data octets =>
      cases same
      cases present
  | _ => cases same

theorem version_eq_nil_iff {value : Value} :
    Shape.version value = [] ↔ ∃ reported, Holds value reported := by
  simp only [Shape.version, Shape.dict_eq_nil_iff, List.forall_mem_cons, List.not_mem_nil,
    false_implies, implies_true, and_true, Shape.required_eq_nil_iff, Shape.optional_eq_nil_iff,
    Shape.text_eq_nil_iff]
  constructor
  · rintro ⟨entries, isReply, version, there, fields, isVersion, ⟨_, short, reported, rfl⟩, build⟩
    cases eq_dict_of_get? isReply there
    cases eq_dict_of_get? isVersion short
    exact ⟨reported, entries, fields, rfl, there, short, build⟩
  · rintro ⟨reported, entries, version, rfl, there, short, build⟩
    exact ⟨entries, rfl, .dict version, there, version, rfl, ⟨_, short, reported, rfl⟩, build⟩

theorem ofValue_of_holds {value : Value} {reported : String} (holds : Holds value reported) :
    ofValue value = reported := by
  obtain ⟨entries, version, rfl, there, short, _⟩ := holds
  simp [ofValue, entriesOf, Shape.entries?, there, short, Shape.text?]

theorem read_eq_ok_iff {output : List UInt8} {reported : String} :
    read output = .ok reported ↔
      ∃ value, PropertyList.read output = .ok value ∧ Holds value reported := by
  unfold read readShaped
  cases PropertyList.read output with
  | error fault => simp [Except.map]
  | ok value =>
      simp only [Except.ok.injEq, exists_eq_left']
      cases issues : Shape.version value with
      | nil =>
          obtain ⟨held, holds⟩ := version_eq_nil_iff.mp issues
          simp only [Except.map, Except.ok.injEq]
          constructor
          · rintro rfl
            rwa [ofValue_of_holds holds]
          · exact ofValue_of_holds
      | cons issue others =>
          have misshapen : ¬ ∃ reported, Holds value reported := by
            rw [← version_eq_nil_iff, issues]
            exact List.cons_ne_nil _ _
          simp only [Except.map, reduceCtorEq, false_iff]
          exact fun holds => misshapen ⟨_, holds⟩

end CompilerVersion

namespace Gate

/-- The process has ended well, and the version that it has written denotes these numbers. -/
def Reported (outcome : ProcessOutcome) (numbers : List Nat) : Prop :=
  outcome.exitCode = 0 ∧ ∃ value reported, PropertyList.read outcome.output = .ok value ∧
    CompilerVersion.Holds value reported ∧ Version.Denotes reported numbers

/-- The gate detects exactly the versions that are reported, up to rounding. -/
theorem detect_eq_ok_iff {outcome : ProcessOutcome} {version : Version} :
    detect outcome = .ok version ↔
      ∃ numbers, Reported outcome numbers ∧ version = .ofNats numbers := by
  have parsed : detect outcome = .ok version ↔ outcome.exitCode = 0 ∧
      ∃ reported, CompilerVersion.read outcome.output = .ok reported ∧
        Version.parse reported = some version := by
    unfold detect
    by_cases ended : outcome.exitCode = 0
    · rw [if_neg (not_not_intro ended)]
      cases CompilerVersion.read outcome.output with
      | error fault => cases fault <;> simp
      | ok reported => cases parsed : Version.parse reported <;> simp [ended, parsed]
    · simp [ended]
  rw [parsed]
  simp only [CompilerVersion.read_eq_ok_iff, Version.parse_eq_some_iff]
  constructor
  · rintro ⟨ended, reported, ⟨value, read, holds⟩, numbers, denoted, rfl⟩
    exact ⟨numbers, ⟨ended, value, reported, read, holds, denoted⟩, rfl⟩
  · rintro ⟨numbers, ⟨ended, value, reported, read, holds, denoted⟩, rfl⟩
    exact ⟨ended, reported, ⟨value, read, holds⟩, numbers, denoted, rfl⟩

theorem Reported.unique {outcome : ProcessOutcome} {numbers others : List Nat}
    (reported : Reported outcome numbers) (again : Reported outcome others) : numbers = others := by
  obtain ⟨_, value, text, read, holds, denoted⟩ := reported
  obtain ⟨_, value', text', read', holds', denoted'⟩ := again
  cases read.symm.trans read'
  cases (CompilerVersion.ofValue_of_holds holds).symm.trans
    (CompilerVersion.ofValue_of_holds holds')
  exact denoted.unique denoted'

/-! ## The decision -/

/-- The failure shows this version as the detected one and that one as the required one. -/
def ShowsVersions (failure : Failure) (detected required : String) : Prop :=
  failure.details = some [("detected", .text detected), ("required", .text required)]

theorem failure_of_capability {cause : Cause} (capability : cause.category? = some .capability) :
    cause.failure?
      = some ⟨.capability, .capability, cause.message, cause.details, cause.report?⟩ := by
  simp [Cause.failure?, capability, Cause.familyOf]

theorem details_of_detect {outcome : ProcessOutcome} {cause : Cause}
    (undetected : detect outcome = .error cause) (detected required : String) :
    cause.details ≠ some [("detected", .text detected), ("required", .text required)] := by
  unfold detect at undetected
  split at undetected
  · cases undetected
    simp [Cause.details, Cause.outcomeDetails]
  · split at undetected
    · cases undetected
      simp [Cause.details]
    · cases undetected
      simp [Cause.details]
    · split at undetected
      · cases undetected
      · cases undetected
        simp [Cause.details]

/-- What the gate refuses an outcome with: two versions are shown if one is reported, and then
these two. -/
structure Refusal (outcome : ProcessOutcome) (required : List Nat) (failure : Failure) : Prop where
  family : failure.family = .capability
  category : failure.category = .capability
  shows_iff : ∀ detected least, ShowsVersions failure detected least ↔
    ∃ numbers, Reported outcome numbers ∧ detected = (Version.ofNats numbers).text ∧
      least = (Version.ofNats required).text
  message : ∀ numbers, Reported outcome numbers → failure.message
    = "actool is too old; it is version " ++ (Version.ofNats numbers).text
      ++ " but at least version " ++ (Version.ofNats required).text ++ " is required"

theorem refusal_of_undetected {outcome : ProcessOutcome} {cause : Cause} (required : List Nat)
    (undetected : detect outcome = .error cause) :
    ∃ failure, cause.failure? = some failure ∧ Refusal outcome required failure := by
  have unreported : ∀ numbers, ¬ Reported outcome numbers := by
    intro numbers reported
    cases undetected.symm.trans (detect_eq_ok_iff.mpr ⟨numbers, reported, rfl⟩)
  refine ⟨_, failure_of_capability (category_of_detect undetected), rfl, rfl, ?_, ?_⟩
  · intro detected least
    exact iff_of_false (details_of_detect undetected detected least) (by simp [unreported])
  · exact fun numbers reported => absurd reported (unreported numbers)

theorem refusal_of_reported {outcome : ProcessOutcome} {numbers : List Nat} (required : List Nat)
    (reported : Reported outcome numbers) :
    ∃ failure, (Cause.tooOld (.ofNats numbers) (.ofNats required)).failure? = some failure ∧
      Refusal outcome required failure := by
  refine ⟨_, failure_of_capability rfl, rfl, rfl, ?_, ?_⟩
  · intro detected least
    constructor
    · intro shown
      cases shown
      exact ⟨numbers, reported, rfl, rfl⟩
    · rintro ⟨others, again, rfl, rfl⟩
      cases reported.unique again
      rfl
  · intro others again
    cases reported.unique again
    rfl

/-- The gate asks once and decides by the exact numbers that the answer denotes. -/
theorem verify_decides (setting : Setting) (state : RunState) (outcome : ProcessOutcome)
    (required : List Nat) (held : ∀ n ∈ required, n < 2 ^ 53)
    (answered :
      (setting.runner.respond (state.calls ++ [query state.tree])).outcome = .ok outcome) :
    (verify setting (.ofNats required) state).2.calls = state.calls ++ [query state.tree] ∧
    (∀ version, (verify setting (.ofNats required) state).1 = .ok version ↔
      ∃ numbers, Reported outcome numbers ∧ required ≤ numbers ∧ version = .ofNats numbers) ∧
    ((¬ ∃ numbers, Reported outcome numbers ∧ required ≤ numbers) →
      ∃ cause failure, (verify setting (.ofNats required) state).1 = .error cause ∧
        cause.failure? = some failure ∧ Refusal outcome required failure) := by
  obtain ⟨asked, decided⟩ := verify_eq setting (.ofNats required) state
  rw [answered] at decided
  dsimp only at decided
  refine ⟨by rw [asked], ?_⟩
  cases found : detect outcome with
  | error cause =>
      have refused : (verify setting (.ofNats required) state).1 = .error cause := by
        rw [decided, found]
      obtain ⟨failure, made, refusal⟩ := refusal_of_undetected required found
      rw [refused]
      refine ⟨?_, fun _ => ⟨cause, failure, rfl, made, refusal⟩⟩
      intro version
      refine iff_of_false (by simp) ?_
      rintro ⟨numbers, reported, _⟩
      cases found.symm.trans (detect_eq_ok_iff.mpr ⟨numbers, reported, rfl⟩)
  | ok detected =>
      obtain ⟨numbers, reported, rfl⟩ := detect_eq_ok_iff.mp found
      have decides := Version.atLeast_ofNats_iff numbers held
      by_cases recent : required ≤ numbers
      · have accepted : (verify setting (.ofNats required) state).1 = .ok (.ofNats numbers) := by
          rw [decided, found]
          exact if_pos (decides.mpr recent)
        rw [accepted]
        refine ⟨?_, fun refused => absurd ⟨numbers, reported, recent⟩ refused⟩
        intro version
        constructor
        · rintro ⟨⟩
          exact ⟨numbers, reported, recent, rfl⟩
        · rintro ⟨others, again, _, rfl⟩
          rw [reported.unique again]
      · have refused : (verify setting (.ofNats required) state).1
            = .error (.tooOld (.ofNats numbers) (.ofNats required)) := by
          rw [decided, found]
          exact if_neg fun least => recent (decides.mp least)
        obtain ⟨failure, made, refusal⟩ := refusal_of_reported required reported
        rw [refused]
        refine ⟨?_, fun _ => ⟨_, failure, rfl, made, refusal⟩⟩
        intro version
        refine iff_of_false (by simp) ?_
        rintro ⟨others, again, later, _⟩
        exact recent (reported.unique again ▸ later)

namespace Sample

/-- The second component of the version that is written lies between two numbers of double
precision. -/
def outcome : ProcessOutcome where
  exitCode := 0
  output := Text.Utf8.encode ("<plist><dict><key>com.apple.actool.version</key><dict>"
    ++ "<key>short-bundle-version</key><string> 26.9007199254740993</string></dict></dict></plist>")
  errorOutput := ""

def setting : Setting where
  directory := .root
  temporary := .root
  suffix n := toString n
  runner := ⟨"xcrun", fun _ => ⟨.ok outcome, none⟩⟩
  handlers := []

def required : List Nat := [26, 9007199254740991, 7]

def result : Except Cause Version := (verify setting (.ofNats required) (.start ⟨[]⟩)).1

theorem large_version_decides : (∀ n ∈ required, n < 2 ^ 53) ∧
    (setting.runner.respond [query ⟨[]⟩]).outcome = .ok outcome ∧
    ∃ numbers, Reported outcome numbers ∧ required ≤ numbers ∧ result = .ok (.ofNats numbers) := by
  have held : ∀ n ∈ required, n < 2 ^ 53 := by decide
  have accepted : result.isOk = true := by decide +kernel
  refine ⟨held, rfl, ?_⟩
  cases decided : result with
  | error cause =>
      rw [decided] at accepted
      cases accepted
  | ok version =>
      obtain ⟨numbers, reported, later, rfl⟩ :=
        ((verify_decides setting (.start ⟨[]⟩) outcome required held rfl).2.1 version).mp decided
      exact ⟨numbers, reported, later, rfl⟩

end Sample

end Gate

end AssetCatalog
