import AssetCatalog.Proofs.DeploymentTarget.Dangling
import Mathlib.Data.List.Forall2
import Mathlib.Data.List.ReduceOption
/-! # Reading a configuration line by line

A configuration none of whose lines is left dangling has the target that its lines have, each read
alone: the value of the only line that assigns one, and otherwise a failure that counts these lines
(`line_locality`).  Where all lines are of the usual forms, this is the value of the only
assignment line (`exactly_one_assignment`).  With a line that is left dangling it may be
otherwise (`Sample.split_assignment_read`). -/

set_option autoImplicit false

namespace AssetCatalog.DeploymentTarget

open AssetCatalog.Text
open AssetCatalog.Configuration (targetIn)

variable {text source : String}

/-- The value that a line assigns, read alone. -/
def lineValue (line : String) : Option String := (assignedOn line.toList).map String.ofList

theorem assignments_of_oneLine {line : String} (inLine : OneLine line.toList) :
    assignments line = (lineValue line).toList := by
  rw [assignments_eq, lineStarts, behindLineEnds_of_oneLine inLine, lineValue]
  cases found : assignedOn line.toList with
  | none => simp [found]
  | some value => simp [found]

theorem targetIn_line_eq_ok_iff {line value : String} (inLine : OneLine line.toList) :
    targetIn line source = .ok value ↔ lineValue line = some value := by
  rw [targetIn_eq_ok_iff, assignments_of_oneLine inLine]
  cases lineValue line with
  | none => simp
  | some other => simp

def Accepted (source line : String) : Prop := ∃ value, targetIn line source = .ok value

theorem accepted_iff {line : String} (inLine : OneLine line.toList) :
    Accepted source line ↔ (lineValue line).isSome = true := by
  rw [Option.isSome_iff_exists]
  exact exists_congr fun value => targetIn_line_eq_ok_iff inLine

theorem not_accepted_iff {line : String} (inLine : OneLine line.toList) :
    ¬ Accepted source line ↔ lineValue line = none := by
  rw [accepted_iff inLine, Bool.not_eq_true, Option.isSome_eq_false_iff, Option.isNone_iff_eq_none]

instance (source line : String) : Decidable (Accepted source line) :=
  match read : targetIn line source with
  | .ok value => isTrue ⟨value, read⟩
  | .error _ => isFalse fun ⟨_, found⟩ => nomatch read.symm.trans found

/-- Lines that are not left dangling assign together what each of them assigns alone. -/
theorem assignments_of_whole (whole : ∀ line ∈ cutLines text, ¬ Dangling line.toList) :
    assignments text = (cutLines text).filterMap lineValue := by
  have each : ∀ start ∈ lineStarts text.toList,
      assignedOn start = assignedOn (firstLine start) := by
    intro start member
    obtain ⟨rest, split, ended⟩ := exists_firstLine start
    have settled : ¬ Dangling (firstLine start) := by
      have among : String.ofList (firstLine start) ∈ cutLines text := by
        rw [cutLines_eq, List.map_map]
        exact List.mem_map_of_mem member
      simpa using whole _ among
    conv_lhs => rw [split]
    exact assignedOn_append ended settled
  rw [assignments_eq, cutLines_eq, List.map_map, List.filterMap_map, List.map_filterMap]
  apply List.filterMap_congr
  intro start member
  rw [each start member]
  simp [lineValue]

/-! ## Lines of the usual forms -/

/-- How a line is read: as an assignment of the value, or as no assignment. -/
inductive Reads : String → Option String → Prop
  | assigns {line value : String} (form : AssignmentLine line.toList value.toList) :
      Reads line (some value)
  | other {line : String} (form : OtherLine line.toList) : Reads line none

theorem Reads.whole {line : String} {reading : Option String} (reads : Reads line reading) :
    ¬ Dangling line.toList := by
  cases reads with
  | assigns form => exact form.whole
  | other form => exact form.whole

theorem Reads.lineValue_eq {line : String} {reading : Option String} (reads : Reads line reading)
    (inLine : OneLine line.toList) : lineValue line = reading := by
  cases reads with
  | assigns form => simp [lineValue, form.assignedOn inLine]
  | other form => simp [lineValue, form.assignedOn]

theorem whole_of_reads {lines : List String} {readings : List (Option String)}
    (each : List.Forall₂ Reads lines readings) : ∀ line ∈ lines, ¬ Dangling line.toList := by
  induction each with
  | nil => exact List.forall_mem_nil _
  | cons reads _ ih => exact List.forall_mem_cons.mpr ⟨reads.whole, ih⟩

theorem filterMap_lineValue {lines : List String} {readings : List (Option String)}
    (each : List.Forall₂ Reads lines readings) (inLine : ∀ line ∈ lines, OneLine line.toList) :
    lines.filterMap lineValue = readings.reduceOption := by
  induction each with
  | nil => rfl
  | @cons line reading lines readings reads _ ih =>
      obtain ⟨here, rest⟩ := List.forall_mem_cons.mp inLine
      rw [List.filterMap_cons, reads.lineValue_eq here, ih rest]
      cases reading with
      | none => rfl
      | some value => rfl

/-! ## What comes of a configuration -/

/-- A line is read with what follows it, and never with what comes before.  What follows makes no
difference unless the line is left dangling, and so a configuration without such lines has the
target of the only line that is accepted alone. -/
theorem line_locality (text source : String) :
    assignments text = ((lineStarts text.toList).filterMap assignedOn).map String.ofList ∧
    (∀ line, OneLine line → (Dangling line ↔
      ∃ following, assignedOn (line ++ '\n' :: following) ≠ assignedOn line)) ∧
    ((∀ line ∈ cutLines text, ¬ Dangling line.toList) →
      (∀ value, targetIn text source = .ok value ↔ ∃ before line after,
        cutLines text = before ++ line :: after ∧ targetIn line source = .ok value ∧
          ∀ other ∈ before ++ after, ¬ Accepted source other) ∧
      ((cutLines text).countP (Accepted source ·) ≠ 1 → ∃ cause,
        targetIn text source = .error cause ∧
          Counts cause source ((cutLines text).countP (Accepted source ·)))) := by
  refine ⟨assignments_eq text, fun line inLine => dangling_iff inLine, fun whole => ⟨?_, ?_⟩⟩
  · intro value
    rw [targetIn_eq_ok_iff, assignments_of_whole whole, List.filterMap_eq_cons_iff]
    refine exists_congr fun before => exists_congr fun line => exists_congr fun after =>
      and_congr_right fun split => ?_
    have inLine : ∀ other ∈ before ++ line :: after, OneLine other.toList := by
      rw [← split]
      exact fun other => oneLine_of_mem_cutLines
    have none : (∀ other ∈ before ++ after, ¬ Accepted source other)
        ↔ ∀ other ∈ before ++ after, lineValue other = Option.none := by
      refine forall₂_congr fun other member => not_accepted_iff (inLine other ?_)
      simpa [or_left_comm] using Or.inr (List.mem_append.mp member)
    rw [none, targetIn_line_eq_ok_iff (inLine line (by simp)), List.forall_mem_append,
      List.filterMap_eq_nil_iff, and_left_comm]
  · have count : (cutLines text).countP (Accepted source ·) = (assignments text).length := by
      rw [assignments_of_whole whole, List.length_filterMap_eq_countP]
      apply List.countP_congr
      intro line member
      simp [accepted_iff (oneLine_of_mem_cutLines member)]
    rw [count]
    exact exists_count

namespace Sample

def assigning : String := "\tmac_deployment_target=  \"12.0\" # now"

def above : List String := ["# mac_deployment_target = \"13.0\" ", "", ""]

def below : List String := ["mac_deployment_target_min = \"11.0\""]

def mixed : String :=
  "# mac_deployment_target = \"13.0\" \r\n\n" ++ assigning
    ++ "\nmac_deployment_target_min = \"11.0\""

theorem cutLines_mixed : cutLines mixed = above ++ assigning :: below := by
  decide +kernel

theorem reads :
    List.Forall₂ Reads (cutLines mixed) [none, none, none, some "12.0", none] := by
  have commented : Reads "# mac_deployment_target = \"13.0\" " none :=
    .other (otherLine_of_first (by decide +kernel))
  have empty : Reads "" none := .other (otherLine_of_first (by decide +kernel))
  have assigns : Reads assigning (some "12.0") := by
    have parts : assigning.toList = ['\t'] ++ variableName.toList
        ++ ([] ++ '=' :: ([' ', ' '] ++ '"' :: ("12.0".toList ++ '"' :: " # now".toList))) := by
      decide +kernel
    have comment : Follows ['#'] " # now".toList " now".toList :=
      ⟨[' '], by decide, by decide +kernel⟩
    refine .assigns ⟨" # now".toList, ?_, by decide +kernel, Or.inr ⟨_, comment, by decide +kernel⟩⟩
    rw [parts]
    exact opensOn_of_gaps (by decide) (by decide)
  have similar : Reads "mac_deployment_target_min = \"11.0\"" none := by
    have name : Named "mac_deployment_target_min = \"11.0\"".toList "_min = \"11.0\"".toList :=
      ⟨[], blank_nil, oneLine_nil, by decide +kernel⟩
    exact .other (name.otherLine (by decide +kernel) (by decide +kernel))
  rw [cutLines_mixed]
  exact .cons commented (.cons empty (.cons empty (.cons assigns (.cons similar .nil))))

theorem located_assignment_read : (∀ line ∈ cutLines mixed, ¬ Dangling line.toList) ∧
    targetIn assigning "mac_sdk.gni" = .ok "12.0" ∧
    (∀ other ∈ above ++ below, ¬ Accepted "mac_sdk.gni" other) ∧
    targetIn mixed "mac_sdk.gni" = .ok "12.0" := by
  have whole := whole_of_reads reads
  have alone : targetIn assigning "mac_sdk.gni" = .ok "12.0" :=
    targetIn_eq_ok_iff.mpr (by decide +kernel)
  have others : ∀ other ∈ above ++ below, ¬ Accepted "mac_sdk.gni" other := by decide +kernel
  obtain ⟨_, _, located⟩ := line_locality mixed "mac_sdk.gni"
  have read := ((located whole).1 "12.0").mpr
    ⟨above, assigning, below, cutLines_mixed, alone, others⟩
  exact ⟨whole, alone, others, read⟩

/-- Neither of two lines is accepted alone, but together they are read as an assignment. -/
theorem split_assignment_read :
    targetIn "mac_deployment_target\n= \"12.0\"" "mac_sdk.gni" = .ok "12.0" ∧
      ∀ line ∈ cutLines "mac_deployment_target\n= \"12.0\"", ¬ Accepted "mac_sdk.gni" line :=
  ⟨targetIn_eq_ok_iff.mpr (by decide +kernel), by decide +kernel⟩

end Sample

/-- Where every line is an assignment of the usual form or none at all, the target is the value
of the only assignment; with none or more than one, the failure tells how many there are. -/
theorem exactly_one_assignment {readings : List (Option String)}
    (each : List.Forall₂ Reads (cutLines text) readings) :
    (∀ value, readings.reduceOption = [value] → targetIn text source = .ok value) ∧
    (readings.reduceOption.length ≠ 1 → ∃ cause, targetIn text source = .error cause ∧
      Counts cause source readings.reduceOption.length) := by
  have found : assignments text = readings.reduceOption := by
    rw [assignments_of_whole (whole_of_reads each),
      filterMap_lineValue each fun line => oneLine_of_mem_cutLines]
  rw [← found]
  exact ⟨fun value only => targetIn_eq_ok_iff.mpr only, exists_count⟩

theorem Sample.only_assignment_read :
    List.Forall₂ Reads (cutLines Sample.mixed) [none, none, none, some "12.0", none] ∧
      targetIn Sample.mixed "mac_sdk.gni" = .ok "12.0" :=
  ⟨Sample.reads, (exactly_one_assignment Sample.reads).1 "12.0" rfl⟩

end AssetCatalog.DeploymentTarget
