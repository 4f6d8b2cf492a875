import AssetCatalog.Compile
import AssetCatalog.Proofs.Publication.Plans
import AssetCatalog.Proofs.Reply.Entries
/-! # When a compile counts as clean

`Clean` says what a compiler must have left behind for its outputs to be published, in terms of
the dictionary that it has written.  `judge` is what a compile does with an outcome before it
copies anything: it reads the reply, judges it and plans the copies.  It succeeds for the clean
outcomes and for no others (`judge_eq_ok_iff`). -/

set_option autoImplicit false

namespace AssetCatalog

/-- A collection that is absent or empty. -/
def Quiet (entries : List (String × Value)) (collection : Collection) : Prop :=
  Dictionary.get? entries collection.key = none ∨
    Dictionary.get? entries collection.key = some (.list [])

/-- The compiler has left behind a dictionary without complaints that lists these files. -/
structure Clean (outcome : ProcessOutcome) (entries : List (String × Value))
    (files : List String) : Prop where
  exitCode : outcome.exitCode = 0
  read : PropertyList.read outcome.output = .ok (.dict entries)
  shaped : Shape.compilation (.dict entries) = []
  silent : ∀ collection, collection ≠ .documentWarnings → Quiet entries collection
  allowed : ∀ items, Dictionary.get? entries Collection.documentWarnings.key = some (.list items) →
    ∀ item ∈ items, ∃ fields, item = .dict fields ∧
      Dictionary.get? fields Diagnostic.typeField = some (.text allowedDocumentWarning)
  listed : ∃ results, Dictionary.get? entries Shape.resultsKey = some (.dict results) ∧
    Dictionary.get? results Shape.outputFilesKey = some (.list (files.map .text))
  complete : (files.map Path.baseName).Perm (OutputRole.all.map OutputRole.fileName)

/-! ## Shapes of replies -/

namespace Shape

theorem diagnostic_anywhere (path path' : List String) (value : Value) :
    diagnostic path value = [] ↔ diagnostic path' value = [] := by
  have general : ∀ path, diagnostic path value = [] ↔
      ∃ entries, entries? value = some entries ∧ ∀ name ∈ Diagnostic.knownFields, ∀ field,
        Dictionary.get? entries name = some field → ∃ content, field = .text content := by
    intro path
    simp only [diagnostic, dict_eq_nil_iff, List.forall_mem_map, optional_eq_nil_iff,
      text_eq_nil_iff]
  rw [general path, general path']

theorem text_anywhere (path path' : List String) (value : Value) :
    text path value = [] ↔ text path' value = [] := by
  rw [text_eq_nil_iff, text_eq_nil_iff]

theorem list_eq_nil_iff {check : Check} {path : List String} {value : Value}
    (anywhere : ∀ path path' value, check path value = [] ↔ check path' value = []) :
    list check path value = [] ↔ ∃ items, value = .list items ∧ ∀ item ∈ items, check [] item = [] := by
  cases value with
  | list items => simp [list, list?, itemIssues_eq_nil_iff anywhere]
  | _ => simp [list, list?, mismatch]

theorem exists_texts {items : List Value} (texts : ∀ item ∈ items, text [] item = []) :
    ∃ names : List String, items = names.map .text := by
  induction items with
  | nil => exact ⟨[], rfl⟩
  | cons item rest ih =>
      obtain ⟨content, rfl⟩ := text_eq_nil_iff.mp (texts item List.mem_cons_self)
      obtain ⟨names, rfl⟩ := ih fun other member => texts other (List.mem_cons_of_mem _ member)
      exact ⟨content :: names, rfl⟩

theorem filterMap_text (names : List String) : (names.map Value.text).filterMap text? = names := by
  induction names with
  | nil => rfl
  | cons name rest ih =>
      rw [List.map_cons, List.filterMap_cons, ih]
      rfl

theorem of_compilation {entries : List (String × Value)}
    (shaped : compilation (.dict entries) = []) :
    (∀ collection : Collection, ∀ value, Dictionary.get? entries collection.key = some value →
      ∃ items, value = .list items ∧ ∀ item ∈ items, ∃ fields, entries? item = some fields) ∧
    (∀ value, Dictionary.get? entries resultsKey = some value → ∃ results,
      entries? value = some results ∧ ∀ files, Dictionary.get? results outputFilesKey = some files →
        ∃ names : List String, files = .list (names.map .text)) := by
  obtain ⟨found, same, checks⟩ := dict_eq_nil_iff.mp shaped
  cases same
  constructor
  · intro collection value present
    have check := checks (optional collection.key (list diagnostic))
      (List.mem_append_left _ (List.mem_map_of_mem collection.mem_all))
    have passed := optional_eq_nil_iff.mp check value present
    obtain ⟨items, rfl, each⟩ := (list_eq_nil_iff diagnostic_anywhere).mp passed
    refine ⟨items, rfl, fun item member => ?_⟩
    obtain ⟨fields, same, _⟩ := dict_eq_nil_iff.mp (each item member)
    exact ⟨fields, same⟩
  · intro value present
    have check := checks (optional resultsKey results)
      (List.mem_append_right _ (List.mem_singleton.mpr rfl))
    obtain ⟨results, same, inner⟩ :=
      dict_eq_nil_iff.mp (optional_eq_nil_iff.mp check value present)
    refine ⟨results, same, ?_⟩
    intro files listed
    have passed := optional_eq_nil_iff.mp (inner _ (List.mem_singleton.mpr rfl)) files listed
    obtain ⟨items, rfl, texts⟩ := (list_eq_nil_iff text_anywhere).mp passed
    obtain ⟨names, rfl⟩ := exists_texts texts
    exact ⟨names, rfl⟩

end Shape

/-! ## Replies without complaints -/

theorem Reason.mem_all (reason : Reason) : reason ∈ all := by
  cases reason with
  | returnCode => exact List.mem_cons_self
  | collection collection =>
      exact List.mem_cons_of_mem _ (List.mem_map_of_mem collection.mem_all)

theorem Report.ofReply?_eq_none_iff {reply : Reply} : ofReply? reply = none
    ↔ reply.returnCode = 0 ∧ ∀ collection, reply.remaining collection = [] := by
  have noComplaints : ofReply? reply = none ↔ ∀ reason, reply.complaint reason = none := by
    have all : (∀ reason, reply.complaint reason = none) ↔ reply.complaints = [] := by
      rw [Reply.complaints, List.filterMap_eq_nil_iff]
      simp only [Option.map_eq_none_iff]
      exact ⟨fun none reason _ => none reason, fun none reason => none reason reason.mem_all⟩
    rw [all]
    unfold ofReply?
    split
    · next empty => simp [empty]
    · next some => simpa using some
  rw [noComplaints]
  constructor
  · intro none
    refine ⟨by simpa [Reply.complaint] using none .returnCode, ?_⟩
    intro collection
    have noComplaint := none (.collection collection)
    unfold Reply.complaint at noComplaint
    dsimp only at noComplaint
    split at noComplaint
    · assumption
    · cases noComplaint
  · rintro ⟨returnCode, remaining⟩ reason
    cases reason with
    | returnCode => simp [Reply.complaint, returnCode]
    | collection collection => simp [Reply.complaint, remaining collection]

namespace Reply

variable {entries : List (String × Value)}

theorem diagnosticsUnder_eq_nil_iff {collection : Collection}
    (shaped : Shape.compilation (.dict entries) = []) :
    diagnosticsUnder collection.key entries = [] ↔ Quiet entries collection := by
  unfold diagnosticsUnder Quiet
  cases present : Dictionary.get? entries collection.key with
  | none => simp
  | some value =>
      obtain ⟨items, rfl, _⟩ := (Shape.of_compilation shaped).1 collection value present
      simp [Shape.list?]

theorem filter_documentWarnings_eq_nil_iff :
    ((diagnosticsUnder Collection.documentWarnings.key entries).filter fun diagnostic =>
      !diagnostic.hasType allowedDocumentWarning) = [] ↔
      ∀ items, Dictionary.get? entries Collection.documentWarnings.key = some (.list items) →
        ∀ item ∈ items, ∃ fields, item = .dict fields ∧
          Dictionary.get? fields Diagnostic.typeField = some (.text allowedDocumentWarning) := by
  have ofItem : ∀ item : Value,
      (Diagnostic.ofFields (entriesOf item)).hasType allowedDocumentWarning = true ↔
        ∃ fields, item = .dict fields ∧
          Dictionary.get? fields Diagnostic.typeField = some (.text allowedDocumentWarning) := by
    intro item
    rw [Diagnostic.hasType_ofFields_iff]
    cases item with
    | dict fields => simp [entriesOf, Shape.entries?]
    | _ => simp [entriesOf, Shape.entries?, Dictionary.get?]
  unfold diagnosticsUnder
  cases present : Dictionary.get? entries Collection.documentWarnings.key with
  | none => simp
  | some value =>
      cases value with
      | list items => simp [Shape.list?, List.filter_eq_nil_iff, ofItem]
      | _ => simp [Shape.list?]

theorem ofReply?_ofValue_eq_none_iff {exitCode : Int} {errorOutput : String}
    (shaped : Shape.compilation (.dict entries) = []) :
    Report.ofReply? (ofValue exitCode errorOutput (.dict entries)) = none ↔ exitCode = 0 ∧
      (∀ collection, collection ≠ .documentWarnings → Quiet entries collection) ∧
      ∀ items, Dictionary.get? entries Collection.documentWarnings.key = some (.list items) →
        ∀ item ∈ items, ∃ fields, item = .dict fields ∧
          Dictionary.get? fields Diagnostic.typeField = some (.text allowedDocumentWarning) := by
  rw [Report.ofReply?_eq_none_iff, ← filter_documentWarnings_eq_nil_iff]
  have sameCode : (ofValue exitCode errorOutput (.dict entries)).returnCode = exitCode := rfl
  have others : ∀ collection, collection ≠ .documentWarnings →
      ((ofValue exitCode errorOutput (.dict entries)).remaining collection = []
        ↔ Quiet entries collection) := by
    intro collection other
    rw [← diagnosticsUnder_eq_nil_iff shaped]
    cases collection with
    | documentWarnings => exact absurd rfl other
    | _ => exact Iff.rfl
  rw [sameCode]
  constructor
  · rintro ⟨success, remaining⟩
    refine ⟨success, ?_, remaining .documentWarnings⟩
    intro collection other
    exact (others collection other).mp (remaining collection)
  · rintro ⟨success, quiet, allowed⟩
    refine ⟨success, ?_⟩
    intro collection
    by_cases documents : collection = .documentWarnings
    · subst documents
      exact allowed
    · exact (others collection documents).mpr (quiet collection documents)

theorem resultsIn_eq_some_iff {files : List String}
    (shaped : Shape.compilation (.dict entries) = []) :
    resultsIn entries = some ⟨some files⟩ ↔ ∃ results,
      Dictionary.get? entries Shape.resultsKey = some (.dict results) ∧
        Dictionary.get? results Shape.outputFilesKey = some (.list (files.map .text)) := by
  unfold resultsIn
  cases present : Dictionary.get? entries Shape.resultsKey with
  | none => simp
  | some value =>
      obtain ⟨results, same, listed⟩ := (Shape.of_compilation shaped).2 value present
      have isResults : entriesOf value = results := by
        rw [entriesOf, same]
        rfl
      simp only [Option.map_some, Option.some.injEq, CompilationResults.mk.injEq, isResults]
      constructor
      · intro found
        cases given : Dictionary.get? results Shape.outputFilesKey with
        | none =>
            rw [given] at found
            cases found
        | some outputs =>
            obtain ⟨names, rfl⟩ := listed outputs given
            rw [given, Option.bind_some, Shape.list?, Option.map_some,
              Shape.filterMap_text] at found
            cases found
            cases value with
            | dict entries =>
                cases same
                exact ⟨results, rfl, given⟩
            | data octets =>
                cases same
                cases given
            | _ => cases same
      · rintro ⟨found, rfl, given⟩
        cases same
        rw [given, Option.bind_some, Shape.list?, Option.map_some, Shape.filterMap_text]

end Reply

/-! ## The judgement of an outcome -/

namespace Compile

/-- What is to be copied beside the catalog, if the outcome is clean. -/
def judge (layout : Layout) (outcome : ProcessOutcome) : Except Cause (List CopyStep) :=
  match readReply outcome with
  | .error cause => .error cause
  | .ok reply =>
    match Report.ofReply? reply with
    | some report => .error (.unclean layout.catalog report)
    | none => (Publication.plan layout reply.results).mapError .unpublished

theorem readReply_eq_ok_iff {outcome : ProcessOutcome} {reply : Reply} :
    readReply outcome = .ok reply ↔ ∃ value, PropertyList.read outcome.output = .ok value ∧
      Shape.compilation value = [] ∧
        reply = Reply.ofValue outcome.exitCode outcome.errorOutput value := by
  unfold readReply Reply.read readShaped
  cases PropertyList.read outcome.output with
  | error fault => simp [Except.map, Except.mapError]
  | ok value =>
      cases issues : Shape.compilation value with
      | nil =>
          simp only [issues, Except.map, Except.mapError, Except.ok.injEq, exists_eq_left', true_and]
          exact eq_comm
      | cons issue others => simp [issues, Except.map, Except.mapError]

/-- An outcome is published if it can be read, gives no report and can be planned for. -/
theorem judge_eq_ok_iff_reply {layout : Layout} {outcome : ProcessOutcome}
    {steps : List CopyStep} :
    judge layout outcome = .ok steps ↔ ∃ reply, readReply outcome = .ok reply ∧
      Report.ofReply? reply = none ∧ Publication.plan layout reply.results = .ok steps := by
  unfold judge
  constructor
  · intro judged
    split at judged
    · cases judged
    · next reply read =>
      split at judged
      · cases judged
      · next quiet =>
        refine ⟨reply, read, quiet, ?_⟩
        cases planned : Publication.plan layout reply.results with
        | error fault =>
            rw [planned] at judged
            cases judged
        | ok planSteps =>
            rw [planned] at judged
            cases judged
            rfl
  · rintro ⟨reply, read, quiet, planned⟩
    rw [read]
    dsimp only
    rw [quiet]
    dsimp only
    rw [planned]
    rfl

/-- Exactly the clean outcomes are published, with the files that they list. -/
theorem judge_eq_ok_iff {layout : Layout} {outcome : ProcessOutcome} {steps : List CopyStep} :
    judge layout outcome = .ok steps ↔ ∃ entries files,
      Clean outcome entries files ∧ steps = Publication.stepsFor layout files := by
  rw [judge_eq_ok_iff_reply]
  constructor
  · rintro ⟨reply, read, quiet, planned⟩
    obtain ⟨value, decoded, shaped, rfl⟩ := readReply_eq_ok_iff.mp read
    obtain ⟨files, results, complete, rfl⟩ := Publication.plan_eq_ok_iff.mp planned
    cases value with
    | dict entries =>
        obtain ⟨exitCode, silent, allowed⟩ :=
          (Reply.ofReply?_ofValue_eq_none_iff shaped).mp quiet
        have listed := (Reply.resultsIn_eq_some_iff shaped).mp results
        exact ⟨entries, files,
          ⟨exitCode, decoded, shaped, silent, allowed, listed, complete⟩, rfl⟩
    | _ => cases results
  · rintro ⟨entries, files, clean, rfl⟩
    refine ⟨Reply.ofValue outcome.exitCode outcome.errorOutput (.dict entries), ?_, ?_, ?_⟩
    · exact readReply_eq_ok_iff.mpr ⟨.dict entries, clean.read, clean.shaped, rfl⟩
    · exact (Reply.ofReply?_ofValue_eq_none_iff clean.shaped).mpr
        ⟨clean.exitCode, clean.silent, clean.allowed⟩
    · have results := (Reply.resultsIn_eq_some_iff clean.shaped).mpr clean.listed
      exact Publication.plan_eq_ok_iff.mpr ⟨files, results, clean.complete, rfl⟩

end Compile

end AssetCatalog
