import AssetCatalog.Reply.Shape
/-! # Positions in a reply

`WellShaped` says what a value must be to be taken for a reply.  What is wrong with any other value
is said by `Position`s: at each of them something of one kind belongs, if anything stands there.
Where something stands, all that it lies in is of the right kind (`fits_above`), so that nothing is
misplaced within what is misplaced itself.

Positions are in the order of their routes, which is that of the schema and, in a list, that of its
items. -/

set_option autoImplicit false

namespace AssetCatalog

namespace Value

def under? : Value → String → Option Value
  | .dict entries, key => Dictionary.get? entries key
  | _, _ => none

def item? : Value → Nat → Option Value
  | .list items, index => items[index]?
  | _, _ => none

/-- A dictionary with these entries, where data counts as one without any. -/
inductive HasEntries : Value → List (String × Value) → Prop where
  | dict (entries : List (String × Value)) : HasEntries (.dict entries) entries
  | data (octets : List UInt8) : HasEntries (.data octets) []

theorem kind_of_under? {value found : Value} {key : String}
    (stands : value.under? key = some found) : value.kind = .dict := by
  cases value with
  | dict entries => rfl
  | _ => cases stands

theorem kind_of_item? {value found : Value} {index : Nat}
    (stands : value.item? index = some found) : value.kind = .list := by
  cases value with
  | list items => rfl
  | _ => cases stands

end Value

namespace Reply

/-! ## The schema -/

/-- A dictionary whose known fields are texts wherever they are present. -/
def IsDiagnostic (value : Value) : Prop :=
  ∃ fields, value.HasEntries fields ∧ ∀ name ∈ Diagnostic.knownFields, ∀ found,
    Dictionary.get? fields name = some found → ∃ content, found = .text content

def IsResults (value : Value) : Prop :=
  ∃ results, value.HasEntries results ∧ ∀ files,
    Dictionary.get? results Shape.outputFilesKey = some files →
      ∃ names : List String, files = .list (names.map .text)

/-- A dictionary whose collections are lists of diagnostics and whose results are results, wherever
they are present. -/
def WellShaped (value : Value) : Prop :=
  ∃ entries, value.HasEntries entries ∧
    (∀ collection : Collection, ∀ found, Dictionary.get? entries collection.key = some found →
      ∃ items, found = .list items ∧ ∀ item ∈ items, IsDiagnostic item) ∧
    ∀ found, Dictionary.get? entries Shape.resultsKey = some found → IsResults found

abbrev FieldIndex : Type := Fin Diagnostic.knownFields.length

/-- A place in a reply at which something of one kind belongs. -/
inductive Position where
  | root
  | collection (collection : Collection)
  | diagnostic (collection : Collection) (index : Nat)
  | field (collection : Collection) (index : Nat) (field : FieldIndex)
  | results
  | outputFiles
  | outputFile (index : Nat)

namespace Position

def kind : Position → Kind
  | root => .dict
  | collection _ => .list
  | diagnostic _ _ => .dict
  | field _ _ _ => .text
  | results => .dict
  | outputFiles => .list
  | outputFile _ => .text

def path : Position → List String
  | root => []
  | collection c => [c.key]
  | diagnostic c index => [c.key, toString index]
  | field c index name => [c.key, toString index, Diagnostic.knownFields[name]]
  | results => [Shape.resultsKey]
  | outputFiles => [Shape.resultsKey, Shape.outputFilesKey]
  | outputFile index => [Shape.resultsKey, Shape.outputFilesKey, toString index]

def find? (value : Value) : Position → Option Value
  | root => some value
  | collection c => value.under? c.key
  | diagnostic c index => (value.under? c.key).bind (·.item? index)
  | field c index name =>
    ((value.under? c.key).bind (·.item? index)).bind (·.under? Diagnostic.knownFields[name])
  | results => value.under? Shape.resultsKey
  | outputFiles => (value.under? Shape.resultsKey).bind (·.under? Shape.outputFilesKey)
  | outputFile index =>
    ((value.under? Shape.resultsKey).bind (·.under? Shape.outputFilesKey)).bind (·.item? index)

def above : Position → List Position
  | root => []
  | collection _ => [root]
  | diagnostic c _ => [root, collection c]
  | field c index _ => [root, collection c, diagnostic c index]
  | results => [root]
  | outputFiles => [root, results]
  | outputFile _ => [root, results, outputFiles]

def route : Position → List Nat
  | root => []
  | collection c => [Collection.all.idxOf c]
  | diagnostic c index => [Collection.all.idxOf c, index]
  | field c index name => [Collection.all.idxOf c, index, name]
  | results => [Collection.all.length]
  | outputFiles => [Collection.all.length, 0]
  | outputFile index => [Collection.all.length, 0, index]

/-- The order of the schema, and within a list the order of its items. -/
def Before (p q : Position) : Prop := p.route < q.route

def Misplaced (value : Value) (p : Position) : Prop :=
  ∃ found, p.find? value = some found ∧ found.kind ≠ p.kind

/-- Something of the wrong kind stands at the position, and nothing of the wrong kind above it. -/
def FirstMisplaced (value : Value) (p : Position) : Prop :=
  p.Misplaced value ∧ ∀ q ∈ p.above, ¬ q.Misplaced value

def place : Position → String
  | root => "(root)"
  | p => ".".intercalate p.path

def complaint (value : Value) (p : Position) : String :=
  p.place ++ ": Expected " ++ p.kind.name ++ ", received "
    ++ ((p.find? value).map fun found => found.kind.name).getD ""

/-! ## Positions above and below one another -/

variable {value found : Value} {p q : Position}

section Steps

variable {c : Collection} {index : Nat} {holder : Value}

theorem find?_diagnostic (stands : (collection c).find? value = some holder) (index : Nat) :
    (diagnostic c index).find? value = holder.item? index := by
  rw [find?] at stands
  rw [find?, stands, Option.bind_some]

theorem find?_field (stands : (diagnostic c index).find? value = some holder) (name : FieldIndex) :
    (field c index name).find? value = holder.under? Diagnostic.knownFields[name] := by
  rw [find?] at stands
  rw [find?, stands, Option.bind_some]

theorem find?_outputFiles (stands : results.find? value = some holder) :
    outputFiles.find? value = holder.under? Shape.outputFilesKey := by
  rw [find?] at stands
  rw [find?, stands, Option.bind_some]

theorem find?_outputFile (stands : outputFiles.find? value = some holder) (index : Nat) :
    (outputFile index).find? value = holder.item? index := by
  rw [find?] at stands
  rw [find?, stands, Option.bind_some]

end Steps

theorem not_mem_above_of_text (text : p.kind = .text) (q : Position) : p ∉ q.above := by
  intro above
  cases q with
  | root => cases above
  | _ =>
      simp only [Position.above, List.mem_cons, List.not_mem_nil, or_false] at above
      rcases above with rfl | rfl | rfl <;> cases text

/-- Where something stands, whatever it lies in is of the right kind. -/
theorem fits_above (stands : p.find? value = some found) (above : q ∈ p.above) :
    ∃ holder, q.find? value = some holder ∧ holder.kind = q.kind := by
  have fitsRoot {key : String} {held : Value} (under : value.under? key = some held) :
      ∃ holder, root.find? value = some holder ∧ holder.kind = root.kind :=
    ⟨value, rfl, Value.kind_of_under? under⟩
  cases p with
  | root => cases above
  | collection c =>
      cases List.mem_singleton.mp above
      exact fitsRoot stands
  | diagnostic c index =>
      obtain ⟨items, listed, item⟩ := Option.bind_eq_some_iff.mp stands
      simp only [Position.above, List.mem_cons, List.not_mem_nil, or_false] at above
      rcases above with rfl | rfl
      · exact fitsRoot listed
      · exact ⟨items, listed, Value.kind_of_item? item⟩
  | field c index name =>
      obtain ⟨fields, item, field⟩ := Option.bind_eq_some_iff.mp stands
      obtain ⟨items, listed, member⟩ := Option.bind_eq_some_iff.mp item
      simp only [Position.above, List.mem_cons, List.not_mem_nil, or_false] at above
      rcases above with rfl | rfl | rfl
      · exact fitsRoot listed
      · exact ⟨items, listed, Value.kind_of_item? member⟩
      · exact ⟨fields, item, Value.kind_of_under? field⟩
  | results =>
      cases List.mem_singleton.mp above
      exact fitsRoot stands
  | outputFiles =>
      obtain ⟨entries, under, files⟩ := Option.bind_eq_some_iff.mp stands
      simp only [Position.above, List.mem_cons, List.not_mem_nil, or_false] at above
      rcases above with rfl | rfl
      · exact fitsRoot under
      · exact ⟨entries, under, Value.kind_of_under? files⟩
  | outputFile index =>
      obtain ⟨files, listed, file⟩ := Option.bind_eq_some_iff.mp stands
      obtain ⟨entries, under, member⟩ := Option.bind_eq_some_iff.mp listed
      simp only [Position.above, List.mem_cons, List.not_mem_nil, or_false] at above
      rcases above with rfl | rfl | rfl
      · exact fitsRoot under
      · exact ⟨entries, under, Value.kind_of_under? member⟩
      · exact ⟨files, listed, Value.kind_of_item? file⟩

theorem not_misplaced_above (wrong : p.Misplaced value) (above : q ∈ p.above) :
    ¬ q.Misplaced value := by
  obtain ⟨_, stands, _⟩ := wrong
  obtain ⟨holder, holds, fits⟩ := fits_above stands above
  rintro ⟨other, same, differs⟩
  cases holds.symm.trans same
  exact differs fits

/-- What is misplaced is so first: nothing stands below what is misplaced. -/
theorem firstMisplaced_iff : p.FirstMisplaced value ↔ p.Misplaced value :=
  ⟨And.left, fun wrong => ⟨wrong, fun _ => not_misplaced_above wrong⟩⟩

def Within (p q : Position) : Prop := q = p ∨ p ∈ q.above

theorem route_isPrefix (within : Within p q) : p.route <+: q.route := by
  rcases within with rfl | above
  · exact List.prefix_rfl
  · cases q with
    | root => cases above
    | _ =>
        simp only [Position.above, List.mem_cons, List.not_mem_nil, or_false] at above
        rcases above with rfl | rfl | rfl <;> simp [route]

theorem Misplaced.stands_around (misplaced : q.Misplaced value) (within : Within p q) :
    ∃ found, p.find? value = some found := by
  obtain ⟨wrong, stands, _⟩ := misplaced
  rcases within with rfl | above
  · exact ⟨wrong, stands⟩
  · obtain ⟨holder, holds, _⟩ := fits_above stands above
    exact ⟨holder, holds⟩

theorem before_of_neighbours {first second : Position} (common : List Nat) {i j : Nat}
    (routeFirst : first.route = common ++ [i]) (routeSecond : second.route = common ++ [j])
    (less : i < j) (withinFirst : Within first p) (withinSecond : Within second q) :
    Before p q := by
  obtain ⟨rest, sameFirst⟩ := route_isPrefix withinFirst
  obtain ⟨others, sameSecond⟩ := route_isPrefix withinSecond
  rw [Before, ← sameFirst, ← sameSecond, routeFirst, routeSecond, List.append_assoc,
    List.append_assoc]
  exact List.append_left_lt (List.Lex.rel less)

end Position

end Reply

end AssetCatalog
