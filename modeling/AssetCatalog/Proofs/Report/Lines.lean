import AssetCatalog.Proofs.PropertyList.Compact
import AssetCatalog.Proofs.Report.Reasons
import Mathlib.Data.List.Forall2
/-! # The lines of a report

A diagnostic whose parts hold no line feed is shown on one line that is never empty: its type,
description and failure reason as far as they are there, or else all of it in compact form
(`shownAs_line`).  What else it holds may be anything.

The text of a report therefore has a section for each reason, with one line for each diagnostic
that is reported, in order and below the heading of the reason, and a section for the error
output if there is something in it (`lines_text`). -/

set_option autoImplicit false

namespace AssetCatalog

namespace Diagnostic

variable {diagnostic : Diagnostic}

def shownNames : List String := ["type", "description", "failure-reason"]

/-- The parts of the line that are there are texts without a line feed. -/
def Unbroken (diagnostic : Diagnostic) : Prop :=
  ∀ name ∈ shownNames, ∀ value,
    diagnostic.field? name = some value → ∃ content, value = .text content ∧ '\n' ∉ content.toList

/-- The diagnostic is shown as this: a line that holds all of its parts, or all of the
diagnostic if it has no part that is not empty. -/
structure ShownAs (diagnostic : Diagnostic) (shown : String) : Prop where
  line : diagnostic.line? = some shown
  notEmpty : shown ≠ ""
  oneLine : '\n' ∉ shown.toList
  holds : ∀ name ∈ shownNames, ∀ content,
    diagnostic.field? name = some (.text content) → content.toList <:+: shown.toList
  compact : (∀ name ∈ shownNames, ∀ content,
    diagnostic.field? name = some (.text content) → content = "") →
      shown = diagnostic.value.compact

def framed : List (String × String × String) :=
  [("[", "type", "]"), ("", "description", ""), ("(", "failure-reason", ")")]

theorem mem_known_of_mem_framed :
    ∀ field ∈ framed, field.2.1 ∈ shownNames := by
  decide

theorem mem_parts_iff {shown : String} : shown ∈ diagnostic.parts ↔
    ∃ field ∈ framed, part field.1 (diagnostic.field? field.2.1) field.2.2 = some shown := by
  simp [parts, framed, typeField, descriptionField, failureReasonField, eq_comm]

theorem part_eq_some_iff (unbroken : diagnostic.Unbroken) {name before behind shown : String}
    (known : name ∈ shownNames) :
    part before (diagnostic.field? name) behind = some shown ↔
      ∃ content, diagnostic.field? name = some (.text content) ∧ content ≠ "" ∧
        shown = before ++ content ++ behind := by
  cases found : diagnostic.field? name with
  | none => simp [part]
  | some value =>
      obtain ⟨content, rfl, _⟩ := unbroken name known value found
      by_cases empty : content = ""
      · simp [part, Value.isSubstantial, empty]
      · simp [part, Value.isSubstantial, Value.shown, empty, eq_comm]

theorem mem_parts_iff_of_unbroken (unbroken : diagnostic.Unbroken) {shown : String} :
    shown ∈ diagnostic.parts ↔ ∃ field ∈ framed, ∃ content,
      diagnostic.field? field.2.1 = some (.text content) ∧ content ≠ "" ∧
        shown = field.1 ++ content ++ field.2.2 := by
  rw [mem_parts_iff]
  refine exists_congr fun field => and_congr_right fun inFramed => ?_
  exact part_eq_some_iff unbroken (mem_known_of_mem_framed field inFramed)

theorem infix_part (unbroken : diagnostic.Unbroken) {name content : String}
    (known : name ∈ shownNames)
    (there : diagnostic.field? name = some (.text content)) (some : content ≠ "") :
    ∃ shown ∈ diagnostic.parts, content.toList <:+: shown.toList := by
  have framing : ∀ name ∈ shownNames,
      ∃ field ∈ framed, field.2.1 = name := by decide
  obtain ⟨field, inFramed, rfl⟩ := framing name known
  refine ⟨field.1 ++ content ++ field.2.2,
    (mem_parts_iff_of_unbroken unbroken).mpr ⟨field, inFramed, content, there, some, rfl⟩, ?_⟩
  rw [String.toList_append, String.toList_append]
  exact List.infix_append _ _ _

theorem lineFeed_not_mem_part (unbroken : diagnostic.Unbroken) {shown : String}
    (member : shown ∈ diagnostic.parts) : '\n' ∉ shown.toList := by
  obtain ⟨field, inFramed, content, there, _, rfl⟩ :=
    (mem_parts_iff_of_unbroken unbroken).mp member
  obtain ⟨_, same, free⟩ :=
    unbroken _ (mem_known_of_mem_framed field inFramed) _ there
  cases same
  have around : ∀ field ∈ framed, '\n' ∉ field.1.toList ∧ '\n' ∉ field.2.2.toList := by decide
  simp [around field inFramed, free]

theorem lineFeed_not_mem_of_plain {cs : List Char} (plain : Text.Plain cs) : '\n' ∉ cs := by
  intro member
  exact absurd (plain _ member) (by decide)

theorem hasLine_of_unbroken (unbroken : diagnostic.Unbroken) : diagnostic.hasLine = true := by
  rw [hasLine, List.all_eq_true]
  intro name known
  cases found : diagnostic.field? name with
  | none => rfl
  | some value =>
      obtain ⟨content, rfl, _⟩ := unbroken name known value found
      simp [Value.shown]

theorem shownAs_of_no_parts (unbroken : diagnostic.Unbroken) (none : diagnostic.parts = []) :
    diagnostic.ShownAs diagnostic.line := by
  have compact : diagnostic.line = diagnostic.value.compact := by rw [line, none]
  refine ⟨if_pos (hasLine_of_unbroken unbroken), ?_, ?_, ?_, fun _ => compact⟩
  · rw [compact]
    exact Value.compact_dict_ne_empty _
  · rw [compact]
    exact lineFeed_not_mem_of_plain (Value.plain_compact _)
  · intro name known content there
    by_cases empty : content = ""
    · rw [empty]
      exact List.nil_infix
    · obtain ⟨shown, member, _⟩ := infix_part unbroken known there empty
      rw [none] at member
      cases member

theorem line_of_parts (some : diagnostic.parts ≠ []) :
    diagnostic.line.toList = [' '].intercalate (diagnostic.parts.map String.toList) := by
  unfold line
  split
  · next none => exact absurd none some
  · exact String.toList_intercalate

theorem shownAs_of_parts (unbroken : diagnostic.Unbroken) (some : diagnostic.parts ≠ []) :
    diagnostic.ShownAs diagnostic.line := by
  have inside : ∀ shown ∈ diagnostic.parts, shown.toList <:+: diagnostic.line.toList := by
    intro shown member
    rw [line_of_parts some]
    exact Text.infix_intercalate (List.mem_map_of_mem member)
  obtain ⟨first, firstPart⟩ := List.exists_mem_of_ne_nil _ some
  obtain ⟨field, inFramed, content, there, full, _⟩ :=
    (mem_parts_iff_of_unbroken unbroken).mp firstPart
  have known := mem_known_of_mem_framed field inFramed
  refine ⟨if_pos (hasLine_of_unbroken unbroken), ?_, ?_, ?_, ?_⟩
  · intro none
    obtain ⟨shown, member, within⟩ := infix_part unbroken known there full
    have nothing := within.trans (inside shown member)
    rw [none] at nothing
    exact full (String.toList_eq_nil_iff.mp (List.eq_nil_of_infix_nil nothing))
  · rw [line_of_parts some]
    intro feed
    have free : ∀ c ∈ [' '].intercalate (diagnostic.parts.map String.toList), c ≠ '\n' := by
      refine Text.forall_mem_intercalate (by simp) (List.forall_mem_map.mpr ?_)
      rintro part member c inPart rfl
      exact lineFeed_not_mem_part unbroken member inPart
    exact free _ feed rfl
  · intro name known content there
    by_cases empty : content = ""
    · rw [empty]
      exact List.nil_infix
    · obtain ⟨shown, member, within⟩ := infix_part unbroken known there empty
      exact within.trans (inside shown member)
  · intro empty
    exact absurd (empty _ known content there) full

theorem shownAs_line (unbroken : diagnostic.Unbroken) : diagnostic.ShownAs diagnostic.line := by
  by_cases none : diagnostic.parts = []
  · exact shownAs_of_no_parts unbroken none
  · exact shownAs_of_parts unbroken none

theorem lineFeed_not_mem_of_shown {items : List Diagnostic} {shown : List String}
    (each : List.Forall₂ ShownAs items shown) :
    ∀ line ∈ shown, '\n' ∉ line.toList := by
  induction each with
  | nil => exact List.forall_mem_nil _
  | cons shownAs _ ih => exact List.forall_mem_cons.mpr ⟨shownAs.oneLine, ih⟩

end Diagnostic

def Reply.Unbroken (reply : Reply) : Prop :=
  ∀ collection, ∀ diagnostic ∈ reply.diagnostics collection, diagnostic.Unbroken

namespace Report

variable {reply : Reply}

/-- What stands in the text for a reason: one line for the return code, and for a collection its
heading and one line for each diagnostic that is reported, in order. -/
inductive Section (reply : Reply) : Reason → List String → Prop
  | returnCode : Section reply .returnCode ["  return code: " ++ toString reply.returnCode]
  | collection {collection : Collection} {items : List Diagnostic} {shown : List String}
      (reported : reply.Carries (.collection collection) (.diagnostics items))
      (each : List.Forall₂ Diagnostic.ShownAs items shown) :
      Section reply (.collection collection)
        (("  " ++ collection.label ++ ":") :: shown.map fun line => "    - " ++ line)

theorem lineFeed_not_mem_toString (n : Int) : '\n' ∉ (toString n).toList := by
  have digits : ∀ m : Nat, '\n' ∉ (m.repr).toList := by
    intro m
    rw [Nat.repr_eq_ofList_toDigits, String.toList_ofList]
    exact Diagnostic.lineFeed_not_mem_of_plain (Text.plain_digits m)
  cases n with
  | ofNat m => exact digits m
  | negSucc m =>
      have sign : (toString (Int.negSucc m)).toList = ['-'] ++ (m + 1).repr.toList := by
        rw [show toString (Int.negSucc m) = "-" ++ (m + 1).repr from rfl, String.toList_append]
        rfl
      rw [sign, List.mem_append, not_or]
      exact ⟨by decide, digits (m + 1)⟩

theorem lineFeed_not_mem_label (collection : Collection) :
    '\n' ∉ collection.label.toList := by
  cases collection <;> decide

theorem unbroken_of_mem_remaining (unbroken : reply.Unbroken) {collection : Collection}
    {item : Diagnostic} (remains : item ∈ reply.remaining collection) : item.Unbroken :=
  unbroken collection item (Reply.mem_remaining_iff.mp remains).1

theorem section_reasonLines (unbroken : reply.Unbroken) {reason : Reason} {detail : Detail}
    (carried : reply.Carries reason detail) :
    Section reply reason (reasonLines (reason, detail)) ∧ detail.hasLines = true := by
  cases reason with
  | returnCode =>
      obtain rfl : detail = .text (toString reply.returnCode) := carried
      exact ⟨.returnCode, rfl⟩
  | collection collection =>
      obtain rfl := Reply.carries_collection_iff.mp carried
      have each : List.Forall₂ Diagnostic.ShownAs (reply.remaining collection)
          ((reply.remaining collection).map (·.line)) :=
        List.forall₂_map_right_iff.mpr (List.forall₂_same.mpr fun item remains =>
          Diagnostic.shownAs_line (unbroken_of_mem_remaining unbroken remains))
      have sections := Section.collection carried each
      rw [List.map_map] at sections
      refine ⟨sections, List.all_eq_true.mpr fun item remains => ?_⟩
      exact Diagnostic.hasLine_of_unbroken (unbroken_of_mem_remaining unbroken remains)

theorem lineFeed_not_mem_of_section {reason : Reason} {lines : List String}
    (given : Section reply reason lines) : ∀ line ∈ lines, '\n' ∉ line.toList := by
  cases given with
  | returnCode =>
      refine List.forall_mem_singleton.mpr ?_
      rw [String.toList_append, List.mem_append, not_or]
      exact ⟨by decide, lineFeed_not_mem_toString _⟩
  | @collection collection items shown reported each =>
      refine List.forall_mem_cons.mpr ⟨?_, List.forall_mem_map.mpr fun line member => ?_⟩
      · simp [lineFeed_not_mem_label]
      · simp [Diagnostic.lineFeed_not_mem_of_shown each line member]

def errorLines (reply : Reply) : List String :=
  if Text.trimmed reply.errorOutput = "" then []
  else Text.lines ("  stderr: " ++ Text.trimmed reply.errorOutput)

theorem lines_errorOutputLines {report : Report}
    (given : report.errorOutput = some reply.errorOutput) :
    report.errorOutputLines.flatMap Text.lines = errorLines reply := by
  unfold errorOutputLines errorLines
  rw [given, Option.getD_some]
  split
  · next empty => rw [if_pos empty, List.flatMap_nil]
  · next other => rw [if_neg other, List.flatMap_singleton]

/-- The report of a reply whose diagnostics have whole lines shows every reason in its order,
with a section of its own, and then the error output. -/
theorem lines_text {report : Report} (found : ofReply? reply = some report)
    (unbroken : reply.Unbroken) :
    ∃ text sections, report.text? = some text ∧
      Text.lines text = "actool failed:" :: (sections.flatten ++ errorLines reply) ∧
      List.Forall₂ (Section reply) (report.reasons.map Prod.fst) sections := by
  have accounts := accounts_of_ofReply? found
  have each : ∀ entry ∈ report.reasons,
      Section reply entry.1 (reasonLines entry) ∧ entry.2.hasLines = true := by
    rintro ⟨reason, detail⟩ member
    exact section_reasonLines unbroken (accounts.carries reason detail member)
  refine ⟨report.text, report.reasons.map reasonLines, ?_, ?_, ?_⟩
  · exact if_pos (List.all_eq_true.mpr fun entry member => (each entry member).2)
  · have whole : ∀ line ∈ heading :: report.reasons.flatMap reasonLines, '\n' ∉ line.toList := by
      refine List.forall_mem_cons.mpr ⟨by decide, fun line member => ?_⟩
      obtain ⟨entry, ofReport, inReason⟩ := List.mem_flatMap.mp member
      exact lineFeed_not_mem_of_section (each entry ofReport).1 line inReason
    have cut : textLines report
        = (heading :: report.reasons.flatMap reasonLines) ++ report.errorOutputLines := rfl
    rw [text, cut, Text.lines_intercalate (by simp), List.flatMap_append,
      Text.flatMap_lines_of_not_mem whole, lines_errorOutputLines accounts.errorOutput,
      List.flatMap_def]
    rfl
  · rw [List.forall₂_map_left_iff, List.forall₂_map_right_iff]
    exact List.forall₂_same.mpr fun entry member => (each entry member).1

namespace Sample

/-- The notice has no text to show, and line feeds in a key and deeper down. -/
def notice : Diagnostic where
  fields := [("type", .text ""), ("a\nb", .list [.dict [("\n", .text "\x00\n")]])]

def noticed : Reply where
  returnCode := 1
  errorOutput := " first\nsecond\n"
  diagnostics
    | .notices => [notice]
    | _ => []
  results := none

def report : Report :=
  ⟨[(.returnCode, .text "1"), (.collection .notices, .diagnostics [notice])],
    some " first\nsecond\n"⟩

theorem unprintable_notice_shown : ofReply? noticed = some report ∧ noticed.Unbroken ∧
    errorLines noticed = ["  stderr: first", "second"] ∧
    ∃ text sections, report.text? = some text ∧
      Text.lines text = "actool failed:" :: (sections.flatten ++ errorLines noticed) ∧
      List.Forall₂ (Section noticed) (report.reasons.map Prod.fst) sections := by
  have found : ofReply? noticed = some report := rfl
  have unbroken : noticed.Unbroken := by
    intro collection diagnostic member name known value there
    have inNotices : diagnostic = notice := by
      cases collection with
      | notices => exact List.mem_singleton.mp member
      | _ => cases member
    subst inNotices
    have typeOnly : ∀ name ∈ ["description", "failure-reason"], notice.field? name = none := by
      decide
    rcases List.mem_cons.mp known with rfl | known
    · exact ⟨"", (Option.some.inj there).symm, by decide⟩
    · rw [typeOnly name known] at there
      cases there
  exact ⟨found, unbroken, by decide, lines_text found unbroken⟩

end Sample

end Report

end AssetCatalog
