import AssetCatalog.Reply.Shape
/-! # Entries of dictionaries

What is put into a dictionary is found there, whatever else is put in and wherever its order
places it (`get?_put`).  The known fields of a diagnostic are therefore the ones that the reply
gives (`field?_ofFields`).

The second part takes the checks of shapes apart: a value passes one exactly when its parts pass
theirs. -/

set_option autoImplicit false

namespace AssetCatalog

namespace Dictionary

variable {α : Type}

theorem get?_map_replace (entries : List (String × α)) (key other : String) (value : α) :
    get? (entries.map fun entry => if entry.1 = key then (key, value) else entry) other
      = if other = key ∧ has entries key then some value else get? entries other := by
  induction entries with
  | nil => simp [get?, has]
  | cons first rest ih =>
      obtain ⟨name, content⟩ := first
      unfold get? has at ih ⊢
      unfold get? at ih ⊢
      rw [List.map_cons]
      by_cases atKey : name = key
      · subst atKey
        rw [if_pos rfl]
        by_cases same : other = name
        · subst same
          simp
        · have differ : (other == name) = false := beq_eq_false_iff_ne.mpr same
          simp only [List.lookup_cons, differ, ih, same, false_and, if_false]
      · rw [if_neg atKey]
        have differ : (key == name) = false := beq_eq_false_iff_ne.mpr (Ne.symm atKey)
        by_cases same : other = name
        · subst same
          have away : ¬ (other = key ∧ (List.lookup key ((other, content) :: rest)).isSome) :=
            fun both => atKey both.1
          rw [if_neg away]
          simp
        · have apart : (other == name) = false := beq_eq_false_iff_ne.mpr same
          simp only [List.lookup_cons, differ, apart, ih]

theorem get?_place {entries : List (String × α)} {key : String} (value : α)
    (fresh : get? entries key = none) (other : String) :
    get? (place entries key value) other
      = if other = key then some value else get? entries other := by
  unfold get? at fresh ⊢
  unfold place
  cases index : indexOf key with
  | none =>
      dsimp only
      rw [List.lookup_append]
      by_cases same : other = key
      · subst same
        simp [fresh]
      · have differ : (other == key) = false := beq_eq_false_iff_ne.mpr same
        simp [List.lookup_cons, differ, same]
  | some number =>
      dsimp only
      have parts := List.takeWhile_append_dropWhile (p := standsBefore number) (l := entries)
      rw [List.lookup_append]
      by_cases same : other = key
      · subst same
        rw [← parts, List.lookup_append] at fresh
        have before := (Option.or_eq_none_iff.mp fresh).1
        simp [before]
      · have differ : (other == key) = false := beq_eq_false_iff_ne.mpr same
        rw [List.lookup_cons, differ, if_neg same]
        dsimp only
        rw [← List.lookup_append, parts]

theorem get?_put (entries : List (String × α)) (key other : String) (value : α) :
    get? (put entries key value) other
      = if other = key then some value else get? entries other := by
  unfold put
  cases present : has entries key with
  | false =>
      have fresh : get? entries key = none := by
        simpa [has] using present
      exact get?_place value fresh other
  | true =>
      rw [if_pos rfl, get?_map_replace, present]
      simp only [and_true]

theorem get?_ofList (entries : List (String × α)) (key : String) :
    get? (ofList entries) key = entries.reverse.lookup key := by
  have general : ∀ earlier : List (String × α),
      get? (entries.foldl (fun entries entry => put entries entry.1 entry.2) earlier) key
        = (entries.reverse.lookup key).or (get? earlier key) := by
    induction entries with
    | nil =>
        intro earlier
        simp
    | cons entry rest ih =>
        intro earlier
        obtain ⟨name, content⟩ := entry
        rw [List.foldl_cons, ih, get?_put, List.reverse_cons, List.lookup_append]
        cases found : rest.reverse.lookup key with
        | some value => rfl
        | none =>
            by_cases same : key = name
            · subst same
              simp
            · have differ : (key == name) = false := beq_eq_false_iff_ne.mpr same
              simp [List.lookup_cons, differ, same]
  have made := general []
  rw [ofList, made]
  simp [get?]

end Dictionary

namespace Diagnostic

theorem lookup_known (fields : List (String × Value)) (names : List String) (name : String) :
    (names.filterMap fun known => (Dictionary.get? fields known).map fun value =>
      (known, value)).lookup name = if name ∈ names then Dictionary.get? fields name else none := by
  induction names with
  | nil => simp
  | cons first rest ih =>
      rw [List.filterMap_cons]
      by_cases same : name = first
      · subst same
        cases found : Dictionary.get? fields name with
        | none => simp [ih, found]
        | some value => simp
      · have differ : (name == first) = false := beq_eq_false_iff_ne.mpr same
        cases found : Dictionary.get? fields first with
        | none => simp [ih, same]
        | some value => simp [List.lookup_cons, differ, ih, same]

theorem field?_ofFields (fields : List (String × Value)) {name : String}
    (known : name ∈ knownFields) :
    (ofFields fields).field? name = Dictionary.get? fields name := by
  have others : ((fields.filter fun field => !knownFields.contains field.1).reverse).lookup name
      = none := by
    rw [List.lookup_eq_none_iff]
    intro field member
    have unknown := (List.mem_filter.mp (List.mem_reverse.mp member)).2
    rw [bne_iff_ne]
    rintro rfl
    simp [known] at unknown
  unfold field? ofFields
  dsimp only
  rw [Dictionary.get?_ofList, List.reverse_append, List.lookup_append, others, Option.none_or,
    ← List.filterMap_reverse, lookup_known, if_pos (List.mem_reverse.mpr known)]

theorem hasType_ofFields_iff {fields : List (String × Value)} {type : String} :
    (ofFields fields).hasType type = true
      ↔ Dictionary.get? fields typeField = some (.text type) := by
  unfold hasType
  rw [field?_ofFields fields (by decide)]
  split
  · next content found => simp [found]
  · next other =>
    constructor
    · intro impossible
      cases impossible
    · intro found
      exact absurd found (other type)

end Diagnostic

/-! ## Shapes -/

namespace Shape

variable {path : List String}

theorem text_eq_nil_iff {value : Value} : text path value = [] ↔ ∃ content, value = .text content := by
  cases value with
  | text content => simp [text, text?]
  | _ => simp [text, text?, mismatch]

theorem optional_eq_nil_iff {key : String} {check : Check} {entries : List (String × Value)} :
    optional key check path entries = [] ↔
      ∀ value, Dictionary.get? entries key = some value → check (path ++ [key]) value = [] := by
  unfold optional
  cases found : Dictionary.get? entries key with
  | none => simp
  | some value => simp

theorem required_eq_nil_iff {key : String} {expected : Kind} {check : Check}
    {entries : List (String × Value)} : required key expected check path entries = [] ↔
      ∃ value, Dictionary.get? entries key = some value ∧ check (path ++ [key]) value = [] := by
  unfold required
  cases found : Dictionary.get? entries key with
  | none => simp
  | some value => simp

theorem dict_eq_nil_iff {checks : List (List String → List (String × Value) → List Issue)}
    {value : Value} : dict checks path value = [] ↔
      ∃ entries, entries? value = some entries ∧ ∀ check ∈ checks, check path entries = [] := by
  unfold dict
  cases entries : entries? value with
  | none => simp [mismatch]
  | some found => simp [List.flatMap_eq_nil_iff]

theorem itemIssues_eq_nil_iff {check : Check} {items : List Value}
    (anywhere : ∀ path path' value, check path value = [] ↔ check path' value = []) (index : Nat) :
    itemIssues check path index items = [] ↔ ∀ item ∈ items, check [] item = [] := by
  induction items generalizing index with
  | nil => simp [itemIssues]
  | cons item rest ih =>
      simp only [itemIssues, List.append_eq_nil_iff, ih, List.forall_mem_cons,
        anywhere _ [] item]

end Shape

end AssetCatalog
