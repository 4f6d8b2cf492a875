import AssetCatalog.Proofs.Compile.Judgement
import AssetCatalog.Proofs.Reply.Positions
/-! # All that is wrong with the shape of a reply

Values of the right shape are taken for replies.  Of any other value, the message tells every
position at which something of the wrong kind stands: each of them once, and in the order of the
schema (`readReply_complete`).

Issues are `Told` of a region of positions if they are those of just the misplaced ones there, in
order.  A check tells all that lies within a position once the checks inside it tell theirs. -/

set_option autoImplicit false

namespace AssetCatalog

namespace Value

theorem hasEntries_iff {value : Value} {entries : List (String × Value)} :
    value.HasEntries entries ↔ Shape.entries? value = some entries := by
  constructor
  · intro has
    cases has with
    | dict => rfl
    | data octets => rfl
  · intro found
    cases value with
    | dict others =>
        cases found
        exact .dict entries
    | data octets =>
        cases found
        exact .data octets
    | _ => cases found

theorem get?_entries {value : Value} {entries : List (String × Value)}
    (found : Shape.entries? value = some entries) (key : String) :
    Dictionary.get? entries key = value.under? key := by
  have under : value.under? key = (Shape.entries? value).bind (Dictionary.get? · key) := by
    cases value <;> rfl
  rw [under, found, Option.bind_some]

theorem item?_of_list? {value : Value} {items : List Value}
    (found : Shape.list? value = some items) (index : Nat) : value.item? index = items[index]? := by
  have item : value.item? index = (Shape.list? value).bind (·[index]?) := by cases value <;> rfl
  rw [item, found, Option.bind_some]

theorem isSome_text?_iff {value : Value} : (Shape.text? value).isSome ↔ value.kind = .text := by
  cases value with
  | number value => cases value <;> simp [Shape.text?, kind]
  | _ => simp [Shape.text?, kind]

theorem isSome_list?_iff {value : Value} : (Shape.list? value).isSome ↔ value.kind = .list := by
  cases value with
  | number value => cases value <;> simp [Shape.list?, kind]
  | _ => simp [Shape.list?, kind]

theorem isSome_entries?_iff {value : Value} :
    (Shape.entries? value).isSome ↔ value.kind = .dict := by
  cases value with
  | number value => cases value <;> simp [Shape.entries?, kind]
  | _ => simp [Shape.entries?, kind]

end Value

namespace Shape

theorem itemIssues_eq_flatMap (check : Check) (path : List String) (index : Nat)
    (items : List Value) : itemIssues check path index items
      = (items.zipIdx index).flatMap fun item => check (path ++ [toString item.2]) item.1 := by
  induction items generalizing index with
  | nil => rfl
  | cons item rest ih => rw [itemIssues, ih, List.zipIdx_cons, List.flatMap_cons]

end Shape

theorem Diagnostic.flatMap_knownFields {α : Type} (part : String → List α) :
    knownFields.flatMap part
      = (List.finRange knownFields.length).flatMap fun name => part knownFields[name] := rfl

namespace Reply

namespace Position

variable {value found : Value} {p q : Position}

/-! ## What is told of a region -/

def issue (value : Value) (p : Position) : Issue :=
  ⟨p.path, p.kind, (p.find? value).map Value.kind⟩

/-- The issues are those of all that is misplaced in the region, in order. -/
def Told (value : Value) (region : Position → Prop) (issues : List Issue) : Prop :=
  ∃ positions : List Position, issues = positions.map (issue value) ∧
    positions.Pairwise Before ∧ ∀ p, p ∈ positions ↔ region p ∧ p.Misplaced value

namespace Told

variable {region other : Position → Prop} {issues others : List Issue}

theorem congr (told : Told value region issues)
    (same : ∀ p, p.Misplaced value → (region p ↔ other p)) : Told value other issues := by
  obtain ⟨positions, made, ordered, mem_iff⟩ := told
  refine ⟨positions, made, ordered, fun p => ?_⟩
  rw [mem_iff]
  exact and_congr_left (same p)

theorem nil (fits : ∀ p, region p → ¬ p.Misplaced value) : Told value region [] :=
  ⟨[], rfl, List.Pairwise.nil, fun p =>
    ⟨fun member => absurd member List.not_mem_nil, fun both => absurd both.2 (fits p both.1)⟩⟩

theorem append (told : Told value region issues) (toldOther : Told value other others)
    (apart : ∀ p q, region p → other q → Before p q) :
    Told value (fun p => region p ∨ other p) (issues ++ others) := by
  obtain ⟨first, rfl, ordered, mem_first⟩ := told
  obtain ⟨second, rfl, orderedOther, mem_second⟩ := toldOther
  refine ⟨first ++ second, List.map_append.symm, ?_, fun p => ?_⟩
  · refine List.pairwise_append.mpr ⟨ordered, orderedOther, fun p inFirst q inSecond => ?_⟩
    exact apart p q ((mem_first p).mp inFirst).1 ((mem_second q).mp inSecond).1
  · rw [List.mem_append, mem_first, mem_second, or_and_right]

theorem flatMap {α : Type} {items : List α} {regions : α → Position → Prop}
    {issues : α → List Issue} (each : ∀ item ∈ items, Told value (regions item) (issues item))
    (apart : items.Pairwise fun first second =>
      ∀ p q, regions first p → regions second q → Before p q) :
    Told value (fun p => ∃ item ∈ items, regions item p) (items.flatMap issues) := by
  induction items with
  | nil => exact nil fun p => by simp
  | cons item rest ih =>
      obtain ⟨first, later⟩ := List.pairwise_cons.mp apart
      have here := each item List.mem_cons_self
      have there := ih (fun other member => each other (List.mem_cons_of_mem _ member)) later
      refine (here.append there fun p q inFirst inRest => ?_).congr fun p _ => ?_
      · obtain ⟨other, member, inOther⟩ := inRest
        exact first other member p q inFirst inOther
      · rw [List.exists_mem_cons_iff]

/-! ### One position -/

theorem here (stands : p.find? value = some found) (wrong : found.kind ≠ p.kind) :
    Told value (Within p) (Shape.mismatch p.path p.kind found) := by
  refine ⟨[p], by simp [Shape.mismatch, issue, stands], List.pairwise_singleton _ _, fun q => ?_⟩
  rw [List.mem_singleton]
  constructor
  · rintro rfl
    exact ⟨.inl rfl, found, stands, wrong⟩
  · rintro ⟨rfl | above, misplaced⟩
    · rfl
    · exact absurd ⟨found, stands, wrong⟩ (not_misplaced_above misplaced above)

theorem absent (none : p.find? value = none) : Told value (Within p) [] := by
  refine nil fun q within misplaced => ?_
  obtain ⟨found, stands⟩ := misplaced.stands_around within
  cases none.symm.trans stands

theorem below (stands : p.find? value = some found) (right : found.kind = p.kind)
    (told : Told value (fun q : Position => p ∈ q.above) issues) :
    Told value (Within p) issues := by
  refine told.congr fun q misplaced => ⟨.inr, fun within => ?_⟩
  rcases within with rfl | above
  · obtain ⟨same, holds, wrong⟩ := misplaced
    cases stands.symm.trans holds
    exact absurd right wrong
  · exact above

/-! ### The checks -/

theorem opened {α : Type} {part : Option α} (opens : part.isSome ↔ found.kind = p.kind)
    (stands : p.find? value = some found)
    (inside : ∀ content, part = some content →
      Told value (fun q : Position => p ∈ q.above) issues)
    (outside : part = none → issues = Shape.mismatch p.path p.kind found) :
    Told value (Within p) issues := by
  cases opened : part with
  | some content => exact below stands (opens.mp (by simp [opened])) (inside content opened)
  | none =>
      rw [outside opened]
      exact here stands fun right => by simpa [opened] using opens.mpr right

theorem text (kind : p.kind = .text) (stands : p.find? value = some found) :
    Told value (Within p) (Shape.text p.path found) := by
  refine opened (Value.isSome_text?_iff.trans (by rw [kind])) stands ?_ ?_
  · intro content isText
    rw [Shape.text, isText]
    exact nil fun q above => absurd above (not_mem_above_of_text kind q)
  · intro none
    rw [Shape.text, none, kind]

theorem dict {checks : List (List String → List (String × Value) → List Issue)}
    (kind : p.kind = .dict) (stands : p.find? value = some found)
    (inside : ∀ entries, Shape.entries? found = some entries →
      Told value (fun q : Position => p ∈ q.above)
        (checks.flatMap fun check => check p.path entries)) :
    Told value (Within p) (Shape.dict checks p.path found) := by
  refine opened (Value.isSome_entries?_iff.trans (by rw [kind])) stands ?_ ?_
  · intro entries has
    rw [Shape.dict, has]
    exact inside entries has
  · intro none
    rw [Shape.dict, none, kind]

theorem optional {key : String} {check : Shape.Check} {path : List String}
    {entries : List (String × Value)} (stands : p.find? value = Dictionary.get? entries key)
    (atKey : p.path = path ++ [key])
    (each : ∀ found, p.find? value = some found → Told value (Within p) (check p.path found)) :
    Told value (Within p) (Shape.optional key check path entries) := by
  unfold Shape.optional
  rw [← stands, ← atKey]
  cases present : p.find? value with
  | some found => exact each found present
  | none => exact absent present

theorem list {check : Shape.Check} (item : Nat → Position) (kind : p.kind = .list)
    (stands : p.find? value = some found)
    (paths : ∀ index, (item index).path = p.path ++ [toString index])
    (routes : ∀ index, (item index).route = p.route ++ [index])
    (items : ∀ index, (item index).find? value = found.item? index)
    (cover : ∀ q : Position, p ∈ q.above ↔ ∃ index, Within (item index) q)
    (each : ∀ index member, (item index).find? value = some member →
      Told value (Within (item index)) (check (item index).path member)) :
    Told value (Within p) (Shape.list check p.path found) := by
  refine opened (Value.isSome_list?_iff.trans (by rw [kind])) stands ?_ ?_
  · intro members isList
    have numbered {index : Nat} {member : Value} : (member, index) ∈ members.zipIdx ↔
        (item index).find? value = some member := by
      rw [List.mem_zipIdx_iff_getElem?, items, Value.item?_of_list? isList]
    have told : Told value (fun q => ∃ member ∈ members.zipIdx, Within (item member.2) q)
        (members.zipIdx.flatMap fun member =>
          check (p.path ++ [toString member.2]) member.1) := by
      refine flatMap (fun member among => ?_) ?_
      · rw [← paths]
        exact each _ _ (numbered.mp among)
      · have ascending : (List.range' 0 members.length).Pairwise (· < ·) :=
          List.pairwise_lt_range'
        rw [← List.zipIdx_map_snd, List.pairwise_map] at ascending
        exact ascending.imp fun less q r => before_of_neighbours p.route (routes _) (routes _) less
    rw [Shape.list, isList]
    dsimp only
    rw [Shape.itemIssues_eq_flatMap]
    refine told.congr fun q misplaced => ?_
    rw [cover]
    constructor
    · rintro ⟨member, _, within⟩
      exact ⟨member.2, within⟩
    · rintro ⟨index, within⟩
      obtain ⟨member, stands⟩ := misplaced.stands_around within
      exact ⟨(member, index), numbered.mpr stands, within⟩
  · intro none
    rw [Shape.list, none, kind]

end Told

/-! ### The schema -/

variable {c : Collection} {index : Nat}

theorem told_diagnostic (stands : (diagnostic c index).find? value = some found) :
    Told value (Within (diagnostic c index))
      (Shape.diagnostic (diagnostic c index).path found) := by
  refine Told.dict rfl stands fun fields has => ?_
  have told : Told value (fun q => ∃ name ∈ List.finRange Diagnostic.knownFields.length,
      Within (field c index name) q) ((List.finRange Diagnostic.knownFields.length).flatMap
        fun name => Shape.optional Diagnostic.knownFields[name] Shape.text
          (diagnostic c index).path fields) := by
    refine Told.flatMap (fun name _ => ?_) ?_
    · refine Told.optional ?_ rfl fun found stands => Told.text rfl stands
      rw [find?_field stands, Value.get?_entries has]
    · refine (List.pairwise_lt_finRange _).imp fun less q r => ?_
      exact before_of_neighbours [_, _] rfl rfl less
  rw [List.flatMap_map, Diagnostic.flatMap_knownFields]
  refine told.congr fun q _ => ?_
  cases q <;> simp [Within, Position.above, eq_comm]

theorem told_collection (stands : (collection c).find? value = some found) :
    Told value (Within (collection c))
      (Shape.list Shape.diagnostic (collection c).path found) := by
  refine Told.list (diagnostic c) rfl stands (fun _ => rfl) (fun _ => rfl)
    (find?_diagnostic stands) (fun q => ?_) fun index member stands => told_diagnostic stands
  cases q <;> simp [Within, Position.above, eq_comm]

theorem told_outputFiles (stands : outputFiles.find? value = some found) :
    Told value (Within outputFiles) (Shape.list Shape.text outputFiles.path found) := by
  refine Told.list outputFile rfl stands (fun _ => rfl) (fun _ => rfl)
    (find?_outputFile stands) (fun q => ?_) fun index member stands => Told.text rfl stands
  cases q <;> simp [Within, Position.above]

theorem told_results (stands : results.find? value = some found) :
    Told value (Within results) (Shape.results results.path found) := by
  refine Told.dict rfl stands fun entries has => ?_
  rw [List.flatMap_singleton]
  have told : Told value (Within outputFiles)
      (Shape.optional Shape.outputFilesKey (Shape.list Shape.text) results.path entries) := by
    refine Told.optional ?_ rfl fun found stands => told_outputFiles stands
    rw [find?_outputFiles stands, Value.get?_entries has]
  refine told.congr fun q _ => ?_
  cases q <;> simp [Within, Position.above]

theorem told_collections {entries : List (String × Value)}
    (has : Shape.entries? value = some entries) :
    Told value (fun q => ∃ c ∈ Collection.all, Within (collection c) q)
      (Collection.all.flatMap fun c =>
        Shape.optional c.key (Shape.list Shape.diagnostic) root.path entries) := by
  refine Told.flatMap (fun c _ => ?_) ?_
  · exact Told.optional (Value.get?_entries has _).symm rfl fun _ => told_collection
  · have ascending : Collection.all.Pairwise fun first second =>
        Collection.all.idxOf first < Collection.all.idxOf second := by decide
    refine ascending.imp fun less q r => ?_
    exact before_of_neighbours [] rfl rfl less

theorem told_compilation (value : Value) :
    Told value (fun _ => True) (Shape.compilation value) := by
  have told : Told value (Within root) (Shape.compilation value) := by
    refine Told.dict rfl rfl fun entries has => ?_
    rw [List.flatMap_append, List.flatMap_map, List.flatMap_singleton]
    have results : Told value (Within results)
        (Shape.optional Shape.resultsKey Shape.results root.path entries) :=
      Told.optional (Value.get?_entries has _).symm rfl fun _ => told_results
    refine ((told_collections has).append results ?_).congr fun q _ => ?_
    · rintro p q ⟨c, _, within⟩
      exact before_of_neighbours [] rfl rfl (List.idxOf_lt_length_of_mem c.mem_all) within
    · cases q <;> simp [Within, Position.above, eq_comm, Collection.mem_all]
  refine told.congr fun q _ => ?_
  cases q <;> simp [Within, Position.above]

/-! ### The message -/

theorem intercalate_ne_empty {key : String} (some : key ≠ "") (rest : List String) :
    ".".intercalate (key :: rest) ≠ "" := by
  intro empty
  have chars := congrArg String.toList empty
  rw [String.toList_intercalate, List.map_cons] at chars
  cases rest with
  | nil =>
      rw [List.map_nil, List.intercalate_singleton] at chars
      exact some (String.toList_inj.mp chars)
  | cons second rest =>
      rw [List.map_cons, List.intercalate_cons_cons, List.append_assoc] at chars
      exact some (String.toList_inj.mp (List.append_eq_nil_iff.mp chars).1)

theorem place_of_path {issue : Issue} {key : String} {rest : List String}
    (path : issue.path = key :: rest) (some : key ≠ "") :
    issue.place = ".".intercalate (key :: rest) := by
  rw [Issue.place, path]
  split
  · next empty => exact absurd empty (intercalate_ne_empty some rest)
  · rfl

theorem place_issue (value : Value) (p : Position) : (issue value p).place = p.place := by
  have named (c : Collection) : c.key ≠ "" := by cases c <;> decide
  have namedResults : Shape.resultsKey ≠ "" := by decide
  cases p with
  | root => rfl
  | collection c => exact place_of_path rfl (named c)
  | diagnostic c index => exact place_of_path rfl (named c)
  | field c index name => exact place_of_path rfl (named c)
  | results => exact place_of_path rfl namedResults
  | outputFiles => exact place_of_path rfl namedResults
  | outputFile index => exact place_of_path rfl namedResults

theorem message_issue (misplaced : p.Misplaced value) :
    (issue value p).message = p.complaint value := by
  obtain ⟨wrong, stands, _⟩ := misplaced
  have received : (issue value p).found = some wrong.kind := by simp [issue, stands]
  have joined (rest : String) : ": " ++ ("Expected " ++ rest) = ": Expected " ++ rest := by
    rw [← String.append_assoc]
    rfl
  rw [Issue.message, place_issue, complaint, received, stands]
  simp only [issue, Option.map_some, Option.getD_some, String.append_assoc, joined]

end Position

/-! ## Replies of the right shape -/

theorem isDiagnostic_iff {value : Value} :
    Shape.diagnostic [] value = [] ↔ IsDiagnostic value := by
  simp only [Shape.diagnostic, Shape.dict_eq_nil_iff, List.forall_mem_map,
    Shape.optional_eq_nil_iff, Shape.text_eq_nil_iff, IsDiagnostic, Value.hasEntries_iff]

theorem isTexts_iff {path : List String} {value : Value} :
    Shape.list Shape.text path value = [] ↔
      ∃ names : List String, value = .list (names.map .text) := by
  rw [Shape.list_eq_nil_iff Shape.text_anywhere]
  constructor
  · rintro ⟨items, rfl, texts⟩
    obtain ⟨names, rfl⟩ := Shape.exists_texts texts
    exact ⟨names, rfl⟩
  · rintro ⟨names, rfl⟩
    exact ⟨_, rfl, List.forall_mem_map.mpr fun name _ => rfl⟩

theorem isResults_iff {path : List String} {value : Value} :
    Shape.results path value = [] ↔ IsResults value := by
  simp only [Shape.results, Shape.dict_eq_nil_iff, List.forall_mem_singleton,
    Shape.optional_eq_nil_iff, isTexts_iff, IsResults, Value.hasEntries_iff]

theorem compilation_eq_nil_iff {value : Value} :
    Shape.compilation value = [] ↔ WellShaped value := by
  simp only [Shape.compilation, Shape.dict_eq_nil_iff, List.forall_mem_append, List.forall_mem_map,
    List.forall_mem_singleton, Shape.optional_eq_nil_iff, Collection.mem_all, true_implies,
    Shape.list_eq_nil_iff Shape.diagnostic_anywhere, isDiagnostic_iff, isResults_iff, WellShaped,
    Value.hasEntries_iff]

end Reply

namespace Compile

open Reply (Position WellShaped)

theorem readReply_of_issues {outcome : ProcessOutcome} {value : Value}
    (read : PropertyList.read outcome.output = .ok value)
    (misshapen : Shape.compilation value ≠ []) : readReply outcome = .error
      (.replyMisshapen outcome.exitCode outcome.errorOutput (Shape.compilation value)) := by
  unfold readReply Reply.read readShaped
  rw [read]
  cases issues : Shape.compilation value with
  | nil => exact absurd issues misshapen
  | cons issue others => simp [issues, Except.map, Except.mapError]

/-- Just the values of the right shape are taken for replies, and of any other value all that is
wrong with it is told. -/
theorem readReply_complete {outcome : ProcessOutcome} {value : Value}
    (read : PropertyList.read outcome.output = .ok value) :
    ((∃ reply, readReply outcome = .ok reply) ↔ WellShaped value) ∧
    (¬ WellShaped value → ∃ (cause : Cause) (positions : List Position),
      readReply outcome = .error cause ∧ positions.Pairwise Position.Before ∧
      (∀ p : Position, p ∈ positions ↔ p.FirstMisplaced value) ∧
      cause.message = "actool returned output of an unexpected shape: "
        ++ "; ".intercalate (positions.map (Position.complaint value)) ∧
      cause.details
        = some [("exitCode", .ofInt outcome.exitCode), ("stderr", .text outcome.errorOutput)]) := by
  constructor
  · simp only [readReply_eq_ok_iff, read, Except.ok.injEq, exists_eq_left',
      Reply.compilation_eq_nil_iff]
    exact ⟨fun ⟨_, shaped, _⟩ => shaped, fun shaped => ⟨_, shaped, rfl⟩⟩
  · intro misshapen
    obtain ⟨positions, made, ordered, mem_iff⟩ := Position.told_compilation value
    have first (p : Position) : p ∈ positions ↔ p.FirstMisplaced value := by
      rw [mem_iff, true_and, Position.firstMisplaced_iff]
    have rejected := readReply_of_issues read (Reply.compilation_eq_nil_iff.not.mpr misshapen)
    refine ⟨_, positions, rejected, ordered, first, ?_, rfl⟩
    have messages : (Shape.compilation value).map Issue.message
        = positions.map (Position.complaint value) := by
      rw [made, List.map_map]
      exact List.map_congr_left fun p member => Position.message_issue ((mem_iff p).mp member).2
    exact congrArg (fun told => "actool returned output of an unexpected shape: "
      ++ "; ".intercalate told) messages

end Compile

namespace Reply.Misfiled

/-- The errors are no list, and the only notice is no dictionary. -/
def outcome : ProcessOutcome where
  exitCode := 1
  output := Text.Utf8.encode ("<plist><dict><key>com.apple.actool.notices</key>"
    ++ "<array><true/></array><key>com.apple.actool.errors</key><string>x</string></dict></plist>")
  errorOutput := "e"

def value : Value :=
  .dict [(Collection.notices.key, .list [.truth true]), (Collection.errors.key, .text "x")]

def isWritten : Except PropertyList.Fault Value → Bool
  | .ok (.dict [(first, .list [.truth true]), (second, .text content)]) =>
    first = Collection.notices.key && second = Collection.errors.key && content = "x"
  | _ => false

theorem eq_of_isWritten {result : Except PropertyList.Fault Value}
    (written : isWritten result = true) : result = .ok value := by
  unfold isWritten at written
  split at written
  · simp only [Bool.and_eq_true, decide_eq_true_eq] at written
    obtain ⟨⟨rfl, rfl⟩, rfl⟩ := written
    rfl
  · cases written

theorem read_output : PropertyList.read outcome.output = .ok value :=
  eq_of_isWritten (by decide +kernel)

theorem misshapen : ¬ WellShaped value :=
  compilation_eq_nil_iff.not.mp (by decide +kernel)

theorem all_told : PropertyList.read outcome.output = .ok value ∧ ¬ WellShaped value ∧
    ∃ (cause : Cause) (positions : List Position),
      Compile.readReply outcome = .error cause ∧ positions.Pairwise Position.Before ∧
      (∀ p : Position, p ∈ positions ↔ p.FirstMisplaced value) ∧
      cause.message = "actool returned output of an unexpected shape: "
        ++ "; ".intercalate (positions.map (Position.complaint value)) ∧
      cause.details = some [("exitCode", .ofInt 1), ("stderr", .text "e")] :=
  ⟨read_output, misshapen, (Compile.readReply_complete read_output).2 misshapen⟩

example : (Shape.compilation value).map Issue.message
    = ["com.apple.actool.errors: Expected array, received string",
      "com.apple.actool.notices.0: Expected object, received boolean"] := by decide +kernel

end Reply.Misfiled

end AssetCatalog
