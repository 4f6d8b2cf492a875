import AssetCatalog.Proofs.Compile.Judgement
import Mathlib.Logic.Function.Basic
/-! # The reasons of a report

A reply is judged by its return code and by the diagnostics of its six collections, where a
document warning of the one allowed type counts as if it were not there.  `Violates` says of each
reason by itself whether it speaks against a reply, and `Carries` what is then reported for it.

`judgement_exact` puts this together: which replies are clean, what the report of any other one
holds, and how the judgement changes with the reply.  Allowed document warnings and the error
output do not count, and every other diagnostic does, wherever it is filed. -/

set_option autoImplicit false

namespace AssetCatalog

def Diagnostic.Allowed (diagnostic : Diagnostic) : Prop :=
  diagnostic.field? "type" = some (.text "Ambiguous Content")

theorem Diagnostic.hasType_iff {diagnostic : Diagnostic} :
    diagnostic.hasType allowedDocumentWarning = true ↔ diagnostic.Allowed := by
  unfold hasType Allowed typeField allowedDocumentWarning
  split
  · next content found => simp [found]
  · next other =>
    constructor
    · rintro ⟨⟩
    · intro found
      exact absurd found (other _)

instance : DecidablePred Diagnostic.Allowed := fun _ => decidable_of_iff _ Diagnostic.hasType_iff

namespace Reply

variable {reply : Reply} {reason : Reason} {collection : Collection} {detail : Detail}

/-- Something that the reason is about speaks against the reply. -/
def Violates (reply : Reply) : Reason → Prop
  | .returnCode => reply.returnCode ≠ 0
  | .collection .documentWarnings =>
    ∃ diagnostic ∈ reply.diagnostics .documentWarnings, ¬ diagnostic.Allowed
  | .collection collection => reply.diagnostics collection ≠ []

/-- What is reported for a reason: the return code as a text, or the collection as it is, less
the document warnings that are allowed. -/
def Carries (reply : Reply) : Reason → Detail → Prop
  | .returnCode, detail => detail = .text (toString reply.returnCode)
  | .collection .documentWarnings, detail =>
    detail = .diagnostics ((reply.diagnostics .documentWarnings).filter (¬ ·.Allowed))
  | .collection collection, detail => detail = .diagnostics (reply.diagnostics collection)

theorem remaining_documentWarnings (reply : Reply) : reply.remaining .documentWarnings
    = (reply.diagnostics .documentWarnings).filter (¬ ·.Allowed) := by
  apply List.filter_congr
  intro diagnostic _
  by_cases allowed : diagnostic.Allowed
  · simp [allowed, Diagnostic.hasType_iff.mpr allowed]
  · simp [allowed, mt Diagnostic.hasType_iff.mp allowed]

theorem violates_collection_iff :
    reply.Violates (.collection collection) ↔ reply.remaining collection ≠ [] := by
  cases collection with
  | documentWarnings =>
      rw [remaining_documentWarnings, Ne, List.filter_eq_nil_iff]
      simp [Violates]
  | _ => exact Iff.rfl

theorem carries_collection_iff : reply.Carries (.collection collection) detail
    ↔ detail = .diagnostics (reply.remaining collection) := by
  cases collection with
  | documentWarnings => rw [remaining_documentWarnings, Carries]
  | _ => exact Iff.rfl

theorem complaint_collection (reply : Reply) (collection : Collection) :
    reply.complaint (.collection collection)
      = if reply.remaining collection = [] then none
        else some (.diagnostics (reply.remaining collection)) := by
  unfold complaint
  dsimp only
  split
  · next none => rw [if_pos none]
  · next found => rw [if_neg found]

theorem complaint_eq_some_iff :
    reply.complaint reason = some detail ↔ reply.Violates reason ∧ reply.Carries reason detail := by
  cases reason with
  | returnCode =>
      unfold complaint Violates Carries
      by_cases ended : reply.returnCode = 0
      · simp [ended]
      · simp [ended, eq_comm]
  | collection collection =>
      rw [complaint_collection, violates_collection_iff, carries_collection_iff]
      by_cases none : reply.remaining collection = []
      · simp [none]
      · simp [none, eq_comm]

theorem complaint_isSome_iff : (reply.complaint reason).isSome = true ↔ reply.Violates reason := by
  rw [Option.isSome_iff_exists]
  constructor
  · rintro ⟨detail, found⟩
    exact (complaint_eq_some_iff.mp found).1
  · intro violated
    cases reason with
    | returnCode => exact ⟨_, complaint_eq_some_iff.mpr ⟨violated, rfl⟩⟩
    | collection collection =>
        exact ⟨_, complaint_eq_some_iff.mpr ⟨violated, carries_collection_iff.mpr rfl⟩⟩

instance : DecidablePred reply.Violates := fun _ => decidable_of_iff _ complaint_isSome_iff

theorem mem_complaints_iff :
    (reason, detail) ∈ reply.complaints ↔ reply.Violates reason ∧ reply.Carries reason detail := by
  rw [← complaint_eq_some_iff]
  simp [complaints, reason.mem_all]

/-- The reasons stand in their fixed order, each of them once. -/
theorem map_fst_complaints (reply : Reply) :
    reply.complaints.map Prod.fst = Reason.all.filter reply.Violates := by
  have general : ∀ reasons : List Reason,
      (reasons.filterMap fun reason => (reply.complaint reason).map fun detail =>
        (reason, detail)).map Prod.fst = reasons.filter reply.Violates := by
    intro reasons
    induction reasons with
    | nil => rfl
    | cons reason rest ih =>
        rw [List.filterMap_cons]
        cases found : reply.complaint reason with
        | none =>
            have quiet : ¬ reply.Violates reason := by
              rw [← complaint_isSome_iff, found]
              exact Bool.false_ne_true
            simpa [quiet] using ih
        | some detail =>
            have violated := (complaint_eq_some_iff.mp found).1
            simpa [violated] using ih
  exact general Reason.all

theorem mem_remaining_iff {diagnostic : Diagnostic} : diagnostic ∈ reply.remaining collection ↔
    diagnostic ∈ reply.diagnostics collection ∧
      (collection = .documentWarnings → ¬ diagnostic.Allowed) := by
  cases collection with
  | documentWarnings => simp [remaining_documentWarnings]
  | _ => simp [remaining]

/-! ## Other diagnostics -/

def refiled (reply : Reply) (collection : Collection) (diagnostics : List Diagnostic) : Reply :=
  { reply with diagnostics := Function.update reply.diagnostics collection diagnostics }

theorem diagnostics_refiled (reply : Reply) (collection : Collection)
    (diagnostics : List Diagnostic) :
    (reply.refiled collection diagnostics).diagnostics collection = diagnostics :=
  Function.update_self ..

theorem remaining_refiled_of_ne {other : Collection} (reply : Reply)
    (diagnostics : List Diagnostic) (apart : other ≠ collection) :
    (reply.refiled collection diagnostics).remaining other = reply.remaining other := by
  have kept : (reply.refiled collection diagnostics).diagnostics other = reply.diagnostics other :=
    Function.update_of_ne apart ..
  cases other with
  | documentWarnings => rw [remaining_documentWarnings, remaining_documentWarnings, kept]
  | _ => exact kept

/-- A reply is judged by its return code and by what remains in its collections. -/
theorem complaint_congr {other : Reply} (sameCode : other.returnCode = reply.returnCode)
    (same : ∀ collection, reason = .collection collection →
      other.remaining collection = reply.remaining collection) :
    other.complaint reason = reply.complaint reason := by
  cases reason with
  | returnCode => rw [complaint, complaint, sameCode]
  | collection collection =>
      rw [complaint_collection, complaint_collection, same collection rfl]

end Reply

/-- The lists differ only in allowed diagnostics, which are put in or left out at any places. -/
inductive AllowedApart : List Diagnostic → List Diagnostic → Prop
  | nil : AllowedApart [] []
  | both {first second : List Diagnostic} (diagnostic : Diagnostic)
      (rest : AllowedApart first second) :
      AllowedApart (diagnostic :: first) (diagnostic :: second)
  | left {first second : List Diagnostic} {diagnostic : Diagnostic}
      (allowed : diagnostic.Allowed) (rest : AllowedApart first second) :
      AllowedApart (diagnostic :: first) second
  | right {first second : List Diagnostic} {diagnostic : Diagnostic}
      (allowed : diagnostic.Allowed) (rest : AllowedApart first second) :
      AllowedApart first (diagnostic :: second)

theorem AllowedApart.filter_eq {first second : List Diagnostic}
    (apart : AllowedApart first second) :
    first.filter (¬ ·.Allowed) = second.filter (¬ ·.Allowed) := by
  induction apart with
  | nil => rfl
  | both diagnostic _ ih => rw [List.filter_cons, List.filter_cons, ih]
  | left allowed _ ih => simpa [allowed] using ih
  | right allowed _ ih => simpa [allowed] using ih

namespace Report

variable {reply : Reply}

theorem ofReply?_eq (reply : Reply) : ofReply? reply
    = if reply.complaints = [] then none else some ⟨reply.complaints, some reply.errorOutput⟩ := by
  unfold ofReply?
  split
  · next none => rw [if_pos none]
  · next some => rw [if_neg some]

theorem ofReply?_congr {other : Reply} (sameOutput : other.errorOutput = reply.errorOutput)
    (same : ∀ reason, other.complaint reason = reply.complaint reason) :
    ofReply? other = ofReply? reply := by
  have complaints : other.complaints = reply.complaints := by
    simp only [Reply.complaints, same]
  rw [ofReply?_eq, ofReply?_eq, complaints, sameOutput]

/-- A single complaint makes a report of all of them. -/
theorem ofReply?_of_violates {reason : Reason} (violated : reply.Violates reason) :
    ofReply? reply = some ⟨reply.complaints, some reply.errorOutput⟩ := by
  rw [ofReply?_eq, if_neg]
  intro none
  have member : reason ∈ reply.complaints.map Prod.fst := by
    rw [Reply.map_fst_complaints]
    exact List.mem_filter.mpr ⟨reason.mem_all, decide_eq_true violated⟩
  rw [none] at member
  cases member

/-- The report gives every reason against the reply in the fixed order, what is carried for it,
and the error output. -/
structure Accounts (reply : Reply) (report : Report) : Prop where
  reasons : report.reasons.map Prod.fst = Reason.all.filter reply.Violates
  carries : ∀ reason detail, (reason, detail) ∈ report.reasons → reply.Carries reason detail
  notEmpty : ∀ reason items, (reason, Detail.diagnostics items) ∈ report.reasons → items ≠ []
  errorOutput : report.errorOutput = some reply.errorOutput

theorem accounts_of_ofReply? {report : Report} (found : ofReply? reply = some report) :
    Accounts reply report := by
  rw [ofReply?_eq] at found
  split at found
  · cases found
  · cases found
    refine ⟨reply.map_fst_complaints, ?_, ?_, rfl⟩
    · exact fun reason detail member => (Reply.mem_complaints_iff.mp member).2
    · rintro reason items member rfl
      obtain ⟨violated, carried⟩ := Reply.mem_complaints_iff.mp member
      cases reason with
      | returnCode => cases carried
      | collection collection =>
          have empty := Detail.diagnostics.inj (Reply.carries_collection_iff.mp carried)
          exact Reply.violates_collection_iff.mp violated empty.symm

theorem ofReply?_eq_none_iff_clean (reply : Reply) : ofReply? reply = none ↔
    reply.returnCode = 0 ∧
    (∀ collection, collection ≠ .documentWarnings → reply.diagnostics collection = []) ∧
    ∀ diagnostic ∈ reply.diagnostics .documentWarnings, diagnostic.Allowed := by
  have others : (∀ collection, reply.remaining collection = []) ↔
      (∀ collection, collection ≠ .documentWarnings → reply.diagnostics collection = []) ∧
      ∀ diagnostic ∈ reply.diagnostics .documentWarnings, diagnostic.Allowed := by
    simp only [List.eq_nil_iff_forall_not_mem, Reply.mem_remaining_iff, not_and]
    constructor
    · intro none
      refine ⟨?_, ?_⟩
      · exact fun collection other diagnostic member =>
          none collection diagnostic member fun same => absurd same other
      · exact fun diagnostic member => not_not.mp fun refused =>
          none .documentWarnings diagnostic member fun _ => refused
    · rintro ⟨empty, allowed⟩ collection diagnostic member counts
      by_cases same : collection = .documentWarnings
      · subst same
        exact counts rfl (allowed diagnostic member)
      · exact empty collection same diagnostic member
  rw [ofReply?_eq_none_iff, others]

theorem reported_of_mem_remaining {collection : Collection} {diagnostic : Diagnostic}
    (remains : diagnostic ∈ reply.remaining collection) :
    ofReply? reply = some ⟨reply.complaints, some reply.errorOutput⟩ ∧
      (.collection collection, .diagnostics (reply.remaining collection)) ∈ reply.complaints := by
  have violated : reply.Violates (.collection collection) :=
    Reply.violates_collection_iff.mpr (List.ne_nil_of_mem remains)
  exact ⟨ofReply?_of_violates violated,
    Reply.mem_complaints_iff.mpr ⟨violated, Reply.carries_collection_iff.mpr rfl⟩⟩

theorem ofReply?_refiled {warnings : List Diagnostic}
    (apart : AllowedApart (reply.diagnostics .documentWarnings) warnings) :
    ofReply? (reply.refiled .documentWarnings warnings) = ofReply? reply := by
  refine ofReply?_congr rfl fun reason => Reply.complaint_congr rfl fun collection _ => ?_
  by_cases same : collection = .documentWarnings
  · subst same
    rw [Reply.remaining_documentWarnings, Reply.remaining_documentWarnings,
      Reply.diagnostics_refiled, apart.filter_eq]
  · exact Reply.remaining_refiled_of_ne reply warnings same

theorem ofReply?_errorOutput (reply : Reply) (text : String) :
    ofReply? { reply with errorOutput := text }
      = (ofReply? reply).map fun report => { report with errorOutput := some text } := by
  have same : Reply.complaints { reply with errorOutput := text } = reply.complaints :=
    List.filterMap_congr fun _ _ =>
      congrArg (Option.map _) (Reply.complaint_congr rfl fun _ _ => rfl)
  rw [ofReply?_eq, ofReply?_eq, same]
  split <;> rfl

/-- What one more diagnostic in a collection makes of the reasons of a reply. -/
structure Adds (reply : Reply) (collection : Collection) (diagnostic : Diagnostic)
    (report : Report) : Prop where
  added : ∃ items, (Reason.collection collection, Detail.diagnostics items) ∈ report.reasons ∧
    diagnostic ∈ items
  earlier : ∀ before, ofReply? reply = some before →
    (before.reasons.map Prod.fst).Sublist (report.reasons.map Prod.fst)
  others : ∀ before, ofReply? reply = some before → ∀ entry ∈ before.reasons,
    entry.1 ≠ .collection collection → entry ∈ report.reasons

theorem adds_of_counts {collection : Collection} {diagnostic : Diagnostic}
    {before after : List Diagnostic} (filed : reply.diagnostics collection = before ++ after)
    (counts : collection = .documentWarnings → ¬ diagnostic.Allowed) :
    ∃ report, ofReply? (reply.refiled collection (before ++ diagnostic :: after)) = some report ∧
      Adds reply collection diagnostic report := by
  have remains : diagnostic ∈
      (reply.refiled collection (before ++ diagnostic :: after)).remaining collection := by
    rw [Reply.mem_remaining_iff, Reply.diagnostics_refiled]
    exact ⟨List.mem_append_right _ List.mem_cons_self, counts⟩
  obtain ⟨made, reported⟩ := reported_of_mem_remaining remains
  have kept : ∀ reason, reason ≠ .collection collection →
      (reply.refiled collection (before ++ diagnostic :: after)).complaint reason
        = reply.complaint reason := by
    intro reason other
    refine Reply.complaint_congr rfl fun which same => ?_
    refine Reply.remaining_refiled_of_ne reply _ ?_
    rintro rfl
    exact other same
  have violates : ∀ reason, reply.Violates reason →
      (reply.refiled collection (before ++ diagnostic :: after)).Violates reason := by
    intro reason violated
    by_cases same : reason = .collection collection
    · subst same
      exact Reply.violates_collection_iff.mpr (List.ne_nil_of_mem remains)
    · rw [← Reply.complaint_isSome_iff, kept reason same, Reply.complaint_isSome_iff]
      exact violated
  refine ⟨_, made, ⟨_, reported, remains⟩, ?_, ?_⟩
  · intro earlier found
    rw [(accounts_of_ofReply? found).reasons, Reply.map_fst_complaints]
    refine List.monotone_filter_right _ fun reason violated => ?_
    exact decide_eq_true (violates reason (of_decide_eq_true violated))
  · rintro earlier found ⟨reason, detail⟩ member other
    rw [ofReply?_eq] at found
    split at found
    · cases found
    · cases found
      rw [Reply.mem_complaints_iff, ← Reply.complaint_eq_some_iff] at member ⊢
      rw [kept reason other, member]

/-- The judgement of a reply, and how it changes with what is in the reply. -/
theorem judgement_exact (reply : Reply) :
    (ofReply? reply = none ↔ reply.returnCode = 0 ∧
      (∀ collection, collection ≠ .documentWarnings → reply.diagnostics collection = []) ∧
      ∀ diagnostic ∈ reply.diagnostics .documentWarnings, diagnostic.Allowed) ∧
    (∀ report, ofReply? reply = some report → Accounts reply report) ∧
    (∀ warnings, AllowedApart (reply.diagnostics .documentWarnings) warnings →
      ofReply? (reply.refiled .documentWarnings warnings) = ofReply? reply) ∧
    (∀ text, ofReply? { reply with errorOutput := text }
      = (ofReply? reply).map fun report => { report with errorOutput := some text }) ∧
    (∀ collection diagnostic before after, reply.diagnostics collection = before ++ after →
      (collection = .documentWarnings → ¬ diagnostic.Allowed) →
      ∃ report,
        ofReply? (reply.refiled collection (before ++ diagnostic :: after)) = some report ∧
          Adds reply collection diagnostic report) ∧
    (∀ collection diagnostic, collection ≠ .documentWarnings →
      diagnostic ∈ reply.diagnostics collection → diagnostic.Allowed →
      ∃ report items, ofReply? reply = some report ∧
        (.collection collection, .diagnostics items) ∈ report.reasons ∧ diagnostic ∈ items) := by
  refine ⟨ofReply?_eq_none_iff_clean reply, fun _ => accounts_of_ofReply?,
    fun _ => ofReply?_refiled, ofReply?_errorOutput reply,
    fun _ _ _ _ => adds_of_counts, ?_⟩
  intro collection diagnostic other filed _
  have remains : diagnostic ∈ reply.remaining collection :=
    Reply.mem_remaining_iff.mpr ⟨filed, fun same => absurd same other⟩
  obtain ⟨made, reported⟩ := reported_of_mem_remaining remains
  exact ⟨_, _, made, reported, remains⟩

example : Reason.all.map Reason.label = ["return code", "errors", "document errors", "warnings",
    "document warnings", "notices", "document notices"] := rfl

end Report

end AssetCatalog
