import AssetCatalog.PropertyList.Reading
import Mathlib.Data.List.Induction
import Mathlib.Data.List.Perm.Basic
/-! # Dictionaries in order

The keys of a dictionary differ, and those that are array indices come first, in ascending order
(`Ordered`).  Whatever is put into such a dictionary leaves it so, and what a property list
writes down holds no others, at any depth (`orderly_read`).

The entries that are put in at first keep their order, the indices aside: a list of entries with
different keys, whose indices ascend, becomes its indices followed by its other entries
(`ofList_of_ascending`). -/

set_option autoImplicit false

namespace AssetCatalog

namespace Dictionary

variable {α : Type} {entries : List (String × α)} {key : String}

/-- The key may stand before the other: a key before an array index is a smaller index. -/
def Precedes (key other : String) : Prop :=
  ∀ index, indexOf other = some index → ∃ smaller, indexOf key = some smaller ∧ smaller < index

structure Ordered (entries : List (String × α)) : Prop where
  distinct : (entries.map Prod.fst).Nodup
  placed : (entries.map Prod.fst).Pairwise Precedes

theorem ordered_nil : Ordered ([] : List (String × α)) := ⟨List.nodup_nil, List.Pairwise.nil⟩

theorem toList_of_indexOf {index : Nat} (found : indexOf key = some index) :
    key.toList = Nat.toDigits 10 index := by
  unfold indexOf at found
  dsimp only at found
  split at found
  · next canonical =>
    cases found
    exact canonical.2.2.1.symm
  · cases found

theorem indexOf_injective {other : String} {index : Nat} (found : indexOf key = some index)
    (same : indexOf other = some index) : key = other :=
  String.toList_inj.mp ((toList_of_indexOf found).trans (toList_of_indexOf same).symm)

theorem standsBefore_iff {index : Nat} {entry : String × α} : standsBefore index entry = true ↔
    ∃ smaller, indexOf entry.1 = some smaller ∧ smaller < index := by
  unfold standsBefore
  cases indexOf entry.1 with
  | none => simp
  | some other => simp

theorem has_eq_false_iff : has entries key = false ↔ key ∉ entries.map Prod.fst := by
  rw [has, Option.isSome_eq_false_iff, Option.isNone_iff_eq_none, get?, List.lookup_eq_none_iff,
    List.mem_map]
  constructor
  · rintro apart ⟨entry, member, rfl⟩
    exact absurd (apart entry member) (by simp)
  · intro fresh entry member
    rw [bne_iff_ne]
    rintro rfl
    exact fresh ⟨entry, member, rfl⟩

theorem get?_eq_some_iff {value : α} (distinct : (entries.map Prod.fst).Nodup) :
    get? entries key = some value ↔ (key, value) ∈ entries := by
  induction entries with
  | nil => simp [get?]
  | cons first rest ih =>
      obtain ⟨name, content⟩ := first
      obtain ⟨apart, distinct⟩ := List.nodup_cons.mp distinct
      unfold get? at ih ⊢
      by_cases same : key = name
      · subst same
        have absent : (key, value) ∉ rest := fun member =>
          apart (List.mem_map.mpr ⟨_, member, rfl⟩)
        simp [absent, eq_comm]
      · have differ : (key == name) = false := beq_eq_false_iff_ne.mpr same
        simp [List.lookup_cons, differ, same, ih distinct]

theorem standsBefore_of_mem_dropWhile {index : Nat} {entry : String × α}
    (placed : (entries.map Prod.fst).Pairwise Precedes)
    (member : entry ∈ entries.dropWhile (standsBefore index)) :
    standsBefore index entry = false := by
  induction entries with
  | nil => cases member
  | cons first rest ih =>
      obtain ⟨beforeRest, placedRest⟩ := List.pairwise_cons.mp placed
      rw [List.dropWhile_cons] at member
      split at member
      · exact ih placedRest member
      · next stops =>
        rcases List.mem_cons.mp member with rfl | inRest
        · exact eq_false_of_ne_true stops
        · refine eq_false_of_ne_true fun before => stops ?_
          obtain ⟨smaller, found, less⟩ := standsBefore_iff.mp before
          obtain ⟨smallest, firstFound, lesser⟩ :=
            beforeRest entry.1 (List.mem_map_of_mem inRest) smaller found
          exact standsBefore_iff.mpr ⟨smallest, firstFound, Nat.lt_trans lesser less⟩

theorem place_perm (entries : List (String × α)) (key : String) (value : α) :
    (place entries key value).Perm ((key, value) :: entries) := by
  unfold place
  split
  · exact List.perm_append_singleton _ _
  · next index _ =>
    have parts := List.takeWhile_append_dropWhile (p := standsBefore index) (l := entries)
    exact List.perm_middle.trans (.of_eq (by rw [parts]))

/-- A new index goes behind the smaller ones and before all other keys. -/
theorem placed_place {value : α} (ordered : Ordered entries)
    (fresh : key ∉ entries.map Prod.fst) :
    ((place entries key value).map Prod.fst).Pairwise Precedes := by
  unfold place
  cases found : indexOf key with
  | none =>
      dsimp only
      rw [List.map_append, List.pairwise_append]
      refine ⟨ordered.placed, List.pairwise_singleton _ _, ?_⟩
      intro other _ last isLast index lastIndex
      rw [List.mem_singleton.mp isLast, found] at lastIndex
      cases lastIndex
  | some index =>
      dsimp only
      have parts := List.takeWhile_append_dropWhile (p := standsBefore index) (l := entries)
      have placed := ordered.placed
      rw [← parts, List.map_append] at placed fresh
      obtain ⟨placedBefore, placedBehind, across⟩ := List.pairwise_append.mp placed
      rw [List.map_append, List.map_cons, List.pairwise_append]
      refine ⟨placedBefore, List.pairwise_cons.mpr ⟨?_, placedBehind⟩, ?_⟩
      · intro other behind otherIndex otherFound
        obtain ⟨entry, member, rfl⟩ := List.mem_map.mp behind
        have notLess : ¬ otherIndex < index := fun less =>
          Bool.false_ne_true ((standsBefore_of_mem_dropWhile ordered.placed member).symm.trans
            (standsBefore_iff.mpr ⟨otherIndex, otherFound, less⟩))
        have differs : index ≠ otherIndex := by
          rintro rfl
          rw [indexOf_injective found otherFound] at fresh
          exact fresh (List.mem_append_right _ behind)
        exact ⟨index, found, by omega⟩
      · intro other before last isLast
        rcases List.mem_cons.mp isLast with rfl | behind
        · intro lastIndex lastFound
          obtain ⟨entry, member, rfl⟩ := List.mem_map.mp before
          obtain rfl := Option.some.inj (found.symm.trans lastFound)
          exact standsBefore_iff.mp (List.all_eq_true.mp List.all_takeWhile entry member)
        · exact across other before last behind

theorem ordered_place {value : α} (ordered : Ordered entries)
    (fresh : key ∉ entries.map Prod.fst) : Ordered (place entries key value) := by
  refine ⟨?_, placed_place ordered fresh⟩
  rw [((place_perm entries key value).map Prod.fst).nodup_iff]
  exact List.nodup_cons.mpr ⟨fresh, ordered.distinct⟩

theorem ordered_put {value : α} (ordered : Ordered entries) : Ordered (put entries key value) := by
  unfold put
  split
  · have sameKeys : (entries.map fun entry => if entry.1 = key then (key, value) else entry).map
        Prod.fst = entries.map Prod.fst := by
      rw [List.map_map]
      refine List.map_congr_left fun entry _ => ?_
      by_cases same : entry.1 = key
      · simp [same]
      · simp [same]
    exact ⟨sameKeys ▸ ordered.distinct, sameKeys ▸ ordered.placed⟩
  · next fresh => exact ordered_place ordered (has_eq_false_iff.mp (eq_false_of_ne_true fresh))

theorem mem_put {value : α} {entry : String × α} (member : entry ∈ put entries key value) :
    entry = (key, value) ∨ entry ∈ entries := by
  unfold put at member
  split at member
  · obtain ⟨earlier, inEntries, rfl⟩ := List.mem_map.mp member
    split
    · exact .inl rfl
    · exact .inr inEntries
  · exact List.mem_cons.mp ((place_perm entries key value).mem_iff.mp member)

/-! ## What was put in -/

def isIndex (entry : String × α) : Bool := (indexOf entry.1).isSome

theorem place_between {index : Nat} {indices others : List (String × α)} (value : α)
    (found : indexOf key = some index)
    (before : ∀ entry ∈ indices, standsBefore index entry = true)
    (behind : ∀ entry ∈ others, isIndex entry = false) :
    place (indices ++ others) key value = indices ++ (key, value) :: others := by
  unfold place
  rw [found]
  dsimp only
  rw [List.takeWhile_append_of_pos before, List.dropWhile_append_of_pos before]
  cases others with
  | nil => simp
  | cons first rest =>
      have stops : standsBefore index first = false := by
        have noIndex := behind first List.mem_cons_self
        rw [isIndex, Option.isSome_eq_false_iff, Option.isNone_iff_eq_none] at noIndex
        rw [standsBefore, noIndex]
      simp [stops]

theorem ofList_concat (entries : List (String × α)) (entry : String × α) :
    ofList (entries ++ [entry]) = put (ofList entries) entry.1 entry.2 := by
  rw [ofList, List.foldl_append]
  rfl

theorem ofList_of_ascending (distinct : (entries.map Prod.fst).Nodup)
    (ascending : ((entries.filter isIndex).map Prod.fst).Pairwise Precedes) :
    ofList entries = entries.filter isIndex ++ entries.filter (!isIndex ·) := by
  induction entries using List.reverseRecOn with
  | nil => rfl
  | append_singleton entries entry ih =>
      obtain ⟨key, value⟩ := entry
      rw [List.map_append, List.nodup_append] at distinct
      obtain ⟨distinctBefore, _, apart⟩ := distinct
      rw [List.filter_append, List.map_append] at ascending
      obtain ⟨ascendingBefore, _, last⟩ := List.pairwise_append.mp ascending
      have fresh : has (ofList entries) key = false := by
        rw [ih distinctBefore ascendingBefore, has_eq_false_iff,
          ((List.filter_append_perm isIndex entries).map Prod.fst).mem_iff]
        exact fun member => apart key member key (List.mem_singleton.mpr rfl) rfl
      rw [ofList_concat, put, fresh, ih distinctBefore ascendingBefore, if_neg Bool.false_ne_true,
        List.filter_append, List.filter_append]
      cases found : indexOf key with
      | none =>
          have noIndex : isIndex (key, value) = false := by rw [isIndex, found]; rfl
          simp [place, found, noIndex]
      | some index =>
          have isIndex : isIndex (key, value) = true := by rw [isIndex, found]; rfl
          rw [place_between value found ?_ ?_]
          · simp [isIndex]
          · intro other earlier
            have precedes := last other.1 (List.mem_map_of_mem earlier) key (by simp [isIndex])
            exact standsBefore_iff.mpr (precedes index found)
          · exact fun other later => by simpa using (List.mem_filter.mp later).2

end Dictionary

/-! ## What a property list writes down -/

namespace Value

def isContainer : Value → Bool
  | .list _ | .dict _ => true
  | _ => false

/-- Every dictionary in the value is in order, at any depth. -/
inductive Orderly : Value → Prop
  | list {items : List Value} (each : ∀ item ∈ items, Orderly item) : Orderly (.list items)
  | dict {entries : List (String × Value)} (ordered : Dictionary.Ordered entries)
      (each : ∀ entry ∈ entries, Orderly entry.2) : Orderly (.dict entries)
  | leaf {value : Value} (none : value.isContainer = false) : Orderly value

theorem Orderly.of_list {items : List Value} (orderly : Orderly (.list items)) :
    ∀ item ∈ items, item.Orderly := by
  cases orderly with
  | list each => exact each
  | leaf none => cases none

def OrderlyEntries (entries : List (String × Value)) : Prop :=
  Dictionary.Ordered entries ∧ ∀ entry ∈ entries, entry.2.Orderly

theorem Orderly.of_dict {entries : List (String × Value)} (orderly : Orderly (.dict entries)) :
    OrderlyEntries entries := by
  cases orderly with
  | dict ordered each => exact ⟨ordered, each⟩
  | leaf none => cases none

theorem orderlyEntries_nil : OrderlyEntries [] := ⟨Dictionary.ordered_nil, List.forall_mem_nil _⟩

theorem OrderlyEntries.put {entries : List (String × Value)} (orderly : OrderlyEntries entries)
    (key : String) {value : Value} (each : value.Orderly) :
    OrderlyEntries (Dictionary.put entries key value) := by
  refine ⟨Dictionary.ordered_put orderly.1, fun entry member => ?_⟩
  rcases Dictionary.mem_put member with rfl | earlier
  · exact each
  · exact orderly.2 entry earlier

end Value

namespace PropertyList

open AssetCatalog.Markup (Node)
open Value (OrderlyEntries orderlyEntries_nil)

theorem bind_eq_ok_iff {ε α β : Type} {first : Except ε α} {next : α → Except ε β} {made : β} :
    (first >>= next) = .ok made ↔ ∃ value, first = .ok value ∧ next value = .ok made := by
  cases first with
  | error fault => simp [bind, Except.bind]
  | ok value => simp [bind, Except.bind]

theorem orderly_readLeaf {name : String} {children : List Node} {value : Value}
    (read : readLeaf name children = .ok value) : value.Orderly := by
  refine .leaf ?_
  unfold readLeaf readKey readInteger readReal readDate at read
  repeat' split at read
  all_goals cases read <;> rfl

mutual

theorem orderly_readNode : ∀ (node : Node) {value : Value},
    readNode node = .ok (some value) → value.Orderly
  | .element name children, value, read => by
    rw [readNode] at read
    split at read
    · obtain ⟨values, readValues, made⟩ := bind_eq_ok_iff.mp read
      cases made
      exact .list (orderly_readAll children readValues)
    · split at read
      · obtain ⟨values, readValues, made⟩ := bind_eq_ok_iff.mp read
        cases made
        exact .list fun item member =>
          orderly_readAll children readValues item (List.mem_filter.mp member).1
      · split at read
        · obtain ⟨entries, readEntries, made⟩ := bind_eq_ok_iff.mp read
          cases made
          have orderly := orderly_readEntries children orderlyEntries_nil readEntries
          exact .dict orderly.1 orderly.2
        · obtain ⟨leaf, readLeaf, made⟩ := bind_eq_ok_iff.mp read
          cases made
          exact orderly_readLeaf readLeaf
  | .instruction target data, value, read => by
    rw [readNode] at read
    split at read
    · cases read
      exact .list (List.forall_mem_nil _)
    · split at read
      · cases read
        exact .dict orderlyEntries_nil.1 orderlyEntries_nil.2
      · obtain ⟨leaf, readLeaf, made⟩ := bind_eq_ok_iff.mp read
        cases made
        exact orderly_readLeaf readLeaf
  | .text _, _, read => by cases read
  | .literal _, _, read => by cases read
  | .comment _, _, read => by cases read

theorem orderly_readAll : ∀ (nodes : List Node) {values : List Value},
    readAll nodes = .ok values → ∀ value ∈ values, value.Orderly
  | [], values, read => by
    cases read
    exact List.forall_mem_nil _
  | node :: rest, values, read => by
    rw [readAll] at read
    obtain ⟨first, readFirst, read⟩ := bind_eq_ok_iff.mp read
    obtain ⟨others, readOthers, made⟩ := bind_eq_ok_iff.mp read
    cases made
    intro value member
    rcases List.mem_append.mp member with isFirst | inOthers
    · rw [Option.mem_toList] at isFirst
      rw [isFirst] at readFirst
      exact orderly_readNode node readFirst
    · exact orderly_readAll rest readOthers value inOthers

theorem orderly_readEntries : ∀ (nodes : List Node) {key : Option String}
    {entries made : List (String × Value)}, OrderlyEntries entries →
    readEntries key entries nodes = .ok made → OrderlyEntries made
  | [], key, entries, made, orderly, read => by
    cases key with
    | none =>
        cases read
        exact orderly
    | some key =>
        cases read
        exact orderly.put key (.leaf rfl)
  | node :: rest, key, entries, made, orderly, read => by
    rw [readEntries.eq_def] at read
    dsimp only at read
    split at read
    · exact orderly_readEntries rest orderly read
    · split at read
      · obtain ⟨value, _, read⟩ := bind_eq_ok_iff.mp read
        exact orderly_readEntries rest orderly read
      · cases read
    · split at read
      · obtain ⟨value, _, read⟩ := bind_eq_ok_iff.mp read
        cases read
      · obtain ⟨value, readValue, read⟩ := bind_eq_ok_iff.mp read
        have each : (value.getD .null).Orderly := by
          cases value with
          | none => exact .leaf rfl
          | some value => exact orderly_readNode node readValue
        split at read
        · exact orderly_readEntries rest (orderly.put _ each) read
        · cases read

end

theorem orderly_readRoot {root : String × List Node} {value : Value}
    (made : readRoot root = .ok value) : value.Orderly := by
  unfold readRoot at made
  split at made
  · obtain ⟨values, readValues, made⟩ := bind_eq_ok_iff.mp made
    have each := orderly_readAll root.2 readValues
    split at made
    · cases made
      exact each _ List.mem_cons_self
    · cases made
      exact .list each
  · cases made

/-- A property list writes down values in which every dictionary is in order. -/
theorem orderly_read {octets : List UInt8} {value : Value} (made : read octets = .ok value) :
    value.Orderly := by
  unfold read at made
  dsimp only at made
  split at made
  · cases made
  · split at made
    · cases made
    · exact orderly_readRoot made

end PropertyList

end AssetCatalog
