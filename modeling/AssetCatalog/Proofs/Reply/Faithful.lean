import AssetCatalog.Proofs.Compile.Judgement
import AssetCatalog.Proofs.PropertyList.Ordered
import Mathlib.Data.List.Forall2
/-! # Replies hold what was written

Every diagnostic of a reply has the fields of the dictionary that it was read from, no more and
no fewer, in an order of its own: array indices come first, as in every dictionary, and the known
fields before all others (`holds_ofFields`).

`readReply_faithful` says of a reply that is accepted where each of its parts comes from, and that
nothing else in what the compiler wrote makes a difference. -/

set_option autoImplicit false

namespace AssetCatalog

namespace Diagnostic

open Dictionary (isIndex Ordered)

variable {fields : List (String × Value)}

def known (fields : List (String × Value)) : List (String × Value) :=
  knownFields.filterMap fun name => (Dictionary.get? fields name).map fun value => (name, value)

def isKnown (field : String × Value) : Bool := knownFields.contains field.1

/-- The diagnostic has the fields of a dictionary: those under an array index, the known ones in
their order, and then all others, as the dictionary has them. -/
structure Holds (fields : List (String × Value)) (diagnostic : Diagnostic) : Prop where
  same : diagnostic.fields.Perm fields
  order : diagnostic.fields = fields.filter isIndex ++ known fields
    ++ fields.filter fun field => !isIndex field && !isKnown field

def HoldsItem (item : Value) (diagnostic : Diagnostic) : Prop :=
  ∃ fields, item = .dict fields ∧ diagnostic.Holds fields

theorem mem_known_iff (distinct : (fields.map Prod.fst).Nodup) {field : String × Value} :
    field ∈ known fields ↔ field ∈ fields ∧ isKnown field = true := by
  obtain ⟨name, value⟩ := field
  simp only [known, List.mem_filterMap, Option.map_eq_some_iff, Prod.mk.injEq, isKnown,
    List.contains_iff_mem]
  constructor
  · rintro ⟨_, isName, _, found, rfl, rfl⟩
    exact ⟨(Dictionary.get?_eq_some_iff distinct).mp found, isName⟩
  · rintro ⟨member, isName⟩
    exact ⟨name, isName, value, (Dictionary.get?_eq_some_iff distinct).mpr member, rfl, rfl⟩

theorem nodup_known (fields : List (String × Value)) : (known fields).Nodup := by
  refine List.Nodup.filterMap ?_ (by decide)
  intro first second field fromFirst fromSecond
  obtain ⟨_, _, rfl⟩ := Option.map_eq_some_iff.mp fromFirst
  obtain ⟨_, _, same⟩ := Option.map_eq_some_iff.mp fromSecond
  exact (Prod.mk.inj same).1.symm

theorem known_perm (distinct : (fields.map Prod.fst).Nodup) :
    (known fields).Perm (fields.filter isKnown) := by
  refine (List.perm_ext_iff_of_nodup (nodup_known fields) (distinct.of_map.filter _)).mpr ?_
  intro field
  rw [mem_known_iff distinct, List.mem_filter]

/-- No known field is an array index. -/
theorem isIndex_of_isKnown {field : String × Value} (isKnown : isKnown field = true) :
    isIndex field = false := by
  have none : ∀ name ∈ knownFields, (Dictionary.indexOf name).isSome = false := by
    decide +kernel
  exact none field.1 (List.contains_iff_mem.mp isKnown)

theorem isIndex_of_mem_known (distinct : (fields.map Prod.fst).Nodup) {field : String × Value}
    (member : field ∈ known fields) : isIndex field = false :=
  isIndex_of_isKnown ((mem_known_iff distinct).mp member).2

def taken (fields : List (String × Value)) : List (String × Value) :=
  known fields ++ fields.filter (!isKnown ·)

theorem taken_perm (distinct : (fields.map Prod.fst).Nodup) : (taken fields).Perm fields :=
  ((known_perm distinct).append_right _).trans (List.filter_append_perm isKnown fields)

theorem filter_isIndex_taken (distinct : (fields.map Prod.fst).Nodup) :
    (taken fields).filter isIndex = fields.filter isIndex := by
  have noneKnown : (known fields).filter isIndex = [] :=
    List.filter_eq_nil_iff.mpr fun field member => by simp [isIndex_of_mem_known distinct member]
  rw [taken, List.filter_append, noneKnown, List.nil_append, List.filter_filter]
  refine List.filter_congr fun field _ => ?_
  cases known : isKnown field with
  | false => simp
  | true => simp [isIndex_of_isKnown known]

theorem filter_not_isIndex_taken (distinct : (fields.map Prod.fst).Nodup) :
    (taken fields).filter (!isIndex ·)
      = known fields ++ fields.filter fun field => !isIndex field && !isKnown field := by
  have allKnown : (known fields).filter (!isIndex ·) = known fields :=
    List.filter_eq_self.mpr fun field member => by simp [isIndex_of_mem_known distinct member]
  rw [taken, List.filter_append, allKnown, List.filter_filter]

theorem holds_ofFields (ordered : Ordered fields) : Holds fields (ofFields fields) := by
  have perm := taken_perm ordered.distinct
  have distinct : ((taken fields).map Prod.fst).Nodup :=
    (perm.map Prod.fst).nodup_iff.mpr ordered.distinct
  have indices := filter_isIndex_taken ordered.distinct
  have ascending : (((taken fields).filter isIndex).map Prod.fst).Pairwise Dictionary.Precedes := by
    rw [indices]
    exact ordered.placed.sublist (List.filter_sublist.map Prod.fst)
  have made : (ofFields fields).fields
      = (taken fields).filter isIndex ++ (taken fields).filter (!isIndex ·) :=
    Dictionary.ofList_of_ascending distinct ascending
  refine ⟨?_, ?_⟩
  · rw [made]
    exact (List.filter_append_perm isIndex (taken fields)).trans perm
  · rw [made, indices, filter_not_isIndex_taken ordered.distinct, List.append_assoc]

example : (ofFields [("9", .null), ("extra", .null), ("description", .null),
    ("type", .null)]).fields.map Prod.fst = ["9", "type", "description", "extra"] := by
  decide +kernel

end Diagnostic

/-! ## Where the parts of a reply come from -/

namespace Reply

/-- The reply holds what the process has left behind: its exit code and error output as they are,
and of the dictionary that it wrote the six collections and the results, each from under its own
key. -/
structure Faithful (reply : Reply) (outcome : ProcessOutcome) (entries : List (String × Value)) :
    Prop where
  returnCode : reply.returnCode = outcome.exitCode
  errorOutput : reply.errorOutput = outcome.errorOutput
  absent : ∀ collection : Collection, Dictionary.get? entries collection.key = none →
    reply.diagnostics collection = []
  filed : ∀ (collection : Collection) value, Dictionary.get? entries collection.key = some value →
    ∃ items, value = .list items ∧
      List.Forall₂ Diagnostic.HoldsItem items (reply.diagnostics collection)
  noResults : reply.results = none ↔ Dictionary.get? entries Shape.resultsKey = none
  listed : ∀ value, Dictionary.get? entries Shape.resultsKey = some value →
    ∃ results files, value = .dict results ∧ reply.results = some ⟨files⟩ ∧
      Dictionary.get? results Shape.outputFilesKey = files.map Value.texts

/-- The dictionaries have the same under all keys that a reply is made from, where an empty
collection is the same as none. -/
structure Interchangeable (entries others : List (String × Value)) : Prop where
  collections : ∀ collection : Collection,
    Dictionary.get? others collection.key = Dictionary.get? entries collection.key ∨
      Quiet entries collection ∧ Quiet others collection
  results : Dictionary.get? others Shape.resultsKey = Dictionary.get? entries Shape.resultsKey

/-- No diagnostic of the dictionary is data, and neither are the results. -/
structure WithoutData (entries : List (String × Value)) : Prop where
  diagnostics : ∀ (collection : Collection) items,
    Dictionary.get? entries collection.key = some (.list items) →
      ∀ octets, Value.data octets ∉ items
  results : ∀ octets, Dictionary.get? entries Shape.resultsKey ≠ some (.data octets)

end Reply

namespace Shape

open Reply (Interchangeable)

variable {entries others : List (String × Value)}

theorem optional_of_quiet {collection : Collection} (quiet : Quiet entries collection) :
    optional collection.key (list diagnostic) [] entries = [] := by
  rcases quiet with none | empty
  · rw [optional, none]
  · rw [optional, empty]
    rfl

theorem compilation_of_interchangeable (alike : Interchangeable entries others)
    (shaped : compilation (.dict entries) = []) : compilation (.dict others) = [] := by
  obtain ⟨_, same, checks⟩ := dict_eq_nil_iff.mp shaped
  cases same
  refine dict_eq_nil_iff.mpr ⟨others, rfl, fun check member => ?_⟩
  have passed := checks check member
  rcases List.mem_append.mp member with ofCollection | ofResults
  · obtain ⟨collection, _, rfl⟩ := List.mem_map.mp ofCollection
    rcases alike.collections collection with same | ⟨_, quiet⟩
    · rwa [optional, same]
    · exact optional_of_quiet quiet
  · rw [List.mem_singleton.mp ofResults] at passed ⊢
    rwa [optional, alike.results]

theorem eq_dict_of_entries? {value : Value}
    (noData : ∀ octets, value ≠ .data octets) (found : entries? value = some entries) :
    value = .dict entries := by
  cases value with
  | dict others =>
      cases found
      rfl
  | data octets => exact absurd rfl (noData octets)
  | _ => cases found

end Shape

namespace Reply

variable {entries others : List (String × Value)}

theorem diagnosticsUnder_of_quiet {collection : Collection} (quiet : Quiet entries collection) :
    diagnosticsUnder collection.key entries = [] := by
  unfold diagnosticsUnder
  rcases quiet with none | empty
  · rw [none]
    rfl
  · rw [empty]
    rfl

theorem filed_diagnosticsUnder (orderly : Value.Orderly (.dict entries))
    (shaped : Shape.compilation (.dict entries) = []) (noData : WithoutData entries)
    {collection : Collection} {value : Value}
    (present : Dictionary.get? entries collection.key = some value) :
    ∃ items, value = .list items ∧
      List.Forall₂ Diagnostic.HoldsItem items (diagnosticsUnder collection.key entries) := by
  obtain ⟨items, rfl, dicts⟩ := (Shape.of_compilation shaped).1 collection value present
  refine ⟨items, rfl, ?_⟩
  have made : diagnosticsUnder collection.key entries
      = items.map fun item => Diagnostic.ofFields (entriesOf item) := by
    rw [diagnosticsUnder, present]
    rfl
  rw [made, List.forall₂_map_right_iff]
  refine List.forall₂_same.mpr fun item member => ?_
  obtain ⟨fields, found⟩ := dicts item member
  have isDict : item = .dict fields := by
    refine Shape.eq_dict_of_entries? (fun octets isData => ?_) found
    exact noData.diagnostics collection items present octets (isData ▸ member)
  subst isDict
  obtain ⟨ordered, each⟩ := orderly.of_dict
  have items := each _ ((Dictionary.get?_eq_some_iff ordered.distinct).mp present)
  exact ⟨fields, rfl, Diagnostic.holds_ofFields (items.of_list _ member).of_dict.1⟩

theorem resultsIn_of_some (shaped : Shape.compilation (.dict entries) = [])
    (noData : WithoutData entries) {value : Value}
    (present : Dictionary.get? entries Shape.resultsKey = some value) :
    ∃ results files, value = .dict results ∧ resultsIn entries = some ⟨files⟩ ∧
      Dictionary.get? results Shape.outputFilesKey = files.map Value.texts := by
  obtain ⟨results, found, listed⟩ := (Shape.of_compilation shaped).2 value present
  have isDict := Shape.eq_dict_of_entries?
    (fun octets isData => noData.results octets (isData ▸ present)) found
  subst isDict
  have made : resultsIn entries
      = some ⟨((Dictionary.get? results Shape.outputFilesKey).bind Shape.list?).map
          fun items => items.filterMap Shape.text?⟩ := by
    rw [resultsIn, present]
    rfl
  cases given : Dictionary.get? results Shape.outputFilesKey with
  | none =>
      rw [given] at made
      exact ⟨results, none, rfl, made, given⟩
  | some files =>
      obtain ⟨names, rfl⟩ := listed files given
      rw [given, Option.bind_some, Shape.list?, Option.map_some, Shape.filterMap_text] at made
      exact ⟨results, some names, rfl, made, given⟩

theorem faithful_ofValue {outcome : ProcessOutcome} (orderly : Value.Orderly (.dict entries))
    (shaped : Shape.compilation (.dict entries) = []) (noData : WithoutData entries) :
    (ofValue outcome.exitCode outcome.errorOutput (.dict entries)).Faithful outcome entries where
  returnCode := rfl
  errorOutput := rfl
  absent _ none := diagnosticsUnder_of_quiet (.inl none)
  filed _ _ present := filed_diagnosticsUnder orderly shaped noData present
  noResults := Option.map_eq_none_iff
  listed _ present := resultsIn_of_some shaped noData present

/-! ## What else may be written -/

theorem diagnosticsUnder_of_interchangeable (alike : Interchangeable entries others)
    (collection : Collection) :
    diagnosticsUnder collection.key others = diagnosticsUnder collection.key entries := by
  rcases alike.collections collection with same | ⟨quiet, otherQuiet⟩
  · rw [diagnosticsUnder, diagnosticsUnder, same]
  · rw [diagnosticsUnder_of_quiet quiet, diagnosticsUnder_of_quiet otherQuiet]

theorem ofValue_of_interchangeable (alike : Interchangeable entries others) (exitCode : Int)
    (errorOutput : String) :
    ofValue exitCode errorOutput (.dict others) = ofValue exitCode errorOutput (.dict entries) := by
  have sameDiagnostics : (fun collection : Collection => diagnosticsUnder collection.key others)
      = fun collection => diagnosticsUnder collection.key entries :=
    funext (diagnosticsUnder_of_interchangeable alike)
  have sameResults : resultsIn others = resultsIn entries := by
    rw [resultsIn, resultsIn, alike.results]
  unfold ofValue
  simp only [entriesOf, Shape.entries?, Option.getD_some]
  rw [sameDiagnostics, sameResults]

end Reply

namespace Compile

/-- An accepted reply holds what was written, and a dictionary that is interchangeable with the one
that was written is accepted as well and makes the same reply. -/
theorem readReply_faithful {outcome : ProcessOutcome} {entries : List (String × Value)}
    (read : PropertyList.read outcome.output = .ok (.dict entries))
    (shaped : Shape.compilation (.dict entries) = []) (noData : Reply.WithoutData entries) :
    ∃ reply, readReply outcome = .ok reply ∧ reply.Faithful outcome entries ∧
      ∀ (other : ProcessOutcome) others, PropertyList.read other.output = .ok (.dict others) →
        other.exitCode = outcome.exitCode → other.errorOutput = outcome.errorOutput →
        Reply.Interchangeable entries others → readReply other = .ok reply := by
  refine ⟨_, readReply_eq_ok_iff.mpr ⟨_, read, shaped, rfl⟩,
    Reply.faithful_ofValue (PropertyList.orderly_read read) shaped noData, ?_⟩
  intro other others readOther sameCode sameOutput alike
  have shapedOther := Shape.compilation_of_interchangeable alike shaped
  refine readReply_eq_ok_iff.mpr ⟨_, readOther, shapedOther, ?_⟩
  rw [sameCode, sameOutput, Reply.ofValue_of_interchangeable alike]

end Compile

namespace Reply.Sample

/-- The notice has an unknown field under an array index, which is written behind its type. -/
def outcome : ProcessOutcome where
  exitCode := 1
  output := Text.Utf8.encode ("<plist><dict><key>com.apple.actool.notices</key><array><dict>"
    ++ "<key>type</key><string>t</string><key>7</key><string>x</string></dict></array>"
    ++ "</dict></plist>")
  errorOutput := "e"

def fields : List (String × Value) := [("7", .text "x"), ("type", .text "t")]

def entries : List (String × Value) := [(Collection.notices.key, .list [.dict fields])]

def isWritten : Except PropertyList.Fault Value → Bool
  | .ok (.dict [(key, .list [.dict [(first, .text unknown), (second, .text type)]])]) =>
    key = Collection.notices.key && (first, unknown) = ("7", "x") && (second, type) = ("type", "t")
  | _ => false

theorem eq_of_isWritten {result : Except PropertyList.Fault Value}
    (written : isWritten result = true) : result = .ok (.dict entries) := by
  unfold isWritten at written
  split at written
  · simp only [Bool.and_eq_true, decide_eq_true_eq, Prod.mk.injEq] at written
    obtain ⟨⟨rfl, rfl, rfl⟩, rfl, rfl⟩ := written
    rfl
  · cases written

theorem read_output : PropertyList.read outcome.output = .ok (.dict entries) :=
  eq_of_isWritten (by decide +kernel)

theorem shaped : Shape.compilation (.dict entries) = [] := by decide +kernel

theorem get?_entries {key : String} {value : Value}
    (found : Dictionary.get? entries key = some value) : value = .list [.dict fields] := by
  rw [Dictionary.get?, entries, List.lookup_cons] at found
  split at found
  · exact (Option.some.inj found).symm
  · cases found

theorem withoutData : WithoutData entries where
  diagnostics := by
    intro collection items found octets member
    cases get?_entries found
    cases List.mem_singleton.mp member
  results := by
    intro octets found
    cases get?_entries found

theorem notice_taken_up :
    PropertyList.read outcome.output = .ok (.dict entries) ∧
    Shape.compilation (.dict entries) = [] ∧ WithoutData entries ∧
    ∃ reply, Compile.readReply outcome = .ok reply ∧ reply.Faithful outcome entries ∧
      ∀ (other : ProcessOutcome) others, PropertyList.read other.output = .ok (.dict others) →
        other.exitCode = outcome.exitCode → other.errorOutput = outcome.errorOutput →
        Interchangeable entries others → Compile.readReply other = .ok reply :=
  ⟨read_output, shaped, withoutData, Compile.readReply_faithful read_output shaped withoutData⟩

/-- The unknown field of the notice comes before its known one. -/
theorem index_before_known :
    PropertyList.read outcome.output = .ok (.dict entries) ∧
    Shape.compilation (.dict entries) = [] ∧ WithoutData entries ∧
    Dictionary.get? entries Collection.notices.key = some (.list [.dict fields]) ∧
    ∃ reply diagnostic, Compile.readReply outcome = .ok reply ∧
      reply.diagnostics .notices = [diagnostic] ∧
      diagnostic.fields ≠ Diagnostic.known fields ++ fields.filter (!Diagnostic.isKnown ·) := by
  refine ⟨read_output, shaped, withoutData, rfl, _, _,
    Compile.readReply_eq_ok_iff.mpr ⟨_, read_output, shaped, rfl⟩, rfl, ?_⟩
  intro same
  have keys := congrArg (List.map Prod.fst) same
  exact absurd keys (by decide +kernel)

end Reply.Sample

end AssetCatalog
