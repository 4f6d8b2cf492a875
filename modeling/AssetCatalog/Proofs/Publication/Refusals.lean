import AssetCatalog.Failure
import AssetCatalog.Proofs.Publication.Plans
/-! # Which lists of files are refused, and why

A list of three files that has no plan is refused for its first file that has an unknown name
or the role of an earlier file: `planFrom_eq_error_iff` finds it from the files before it, which
have different roles.  With the plans that are made, `planning_exact` says for every list what
comes of it. -/

set_option autoImplicit false

namespace AssetCatalog.Publication

variable {layout : Layout}

/-! ## The first file that is refused -/

def Distinct (files : List String) : Prop :=
  ∃ roles : List OutputRole, files.map Path.baseName = roles.map OutputRole.fileName ∧ roles.Nodup

/-- What speaks against a file, where earlier ones are listed before it. -/
inductive Objection (earlier listed : List String) (file : String) : Fault → Prop
  | unknown (other : ∀ role : OutputRole, Path.baseName file ≠ role.fileName) :
      Objection earlier listed file (.unexpected file listed)
  | again {role : OutputRole} {other : String} (known : Path.baseName file = role.fileName)
      (before : other ∈ earlier) (taken : Path.baseName other = role.fileName) :
      Objection earlier listed file (.duplicate file listed)

theorem roleOf?_eq_none_iff {file : String} :
    roleOf? file = none ↔ ∀ role : OutputRole, Path.baseName file ≠ role.fileName := by
  rw [Option.eq_none_iff_forall_ne_some]
  exact forall_congr' fun role => not_congr roleOf?_eq_some_iff

theorem planFrom_cons_of_fresh {listed rest : List String} {seen : List OutputRole}
    {file : String} {role : OutputRole} (known : roleOf? file = some role) (fresh : role ∉ seen) :
    planFrom layout listed seen (file :: rest)
      = (planFrom layout listed (role :: seen) rest).map fun steps =>
          (stepFor layout role file).toList ++ steps := by
  rw [planFrom_cons, known]
  exact if_neg fresh

/-- Files with different roles that are not taken are passed over in the search for the first
that is refused. -/
theorem planFrom_append_eq_error_iff {listed before rest : List String}
    {roles seen : List OutputRole} {fault : Fault} (known : before.map roleOf? = roles.map some)
    (different : roles.Nodup) (fresh : ∀ role ∈ roles, role ∉ seen) :
    planFrom layout listed seen (before ++ rest) = .error fault ↔
      planFrom layout listed (roles.reverse ++ seen) rest = .error fault := by
  induction before generalizing roles seen with
  | nil =>
      obtain rfl : roles = [] := by simpa using known.symm
      rfl
  | cons file before ih =>
      obtain ⟨role, others, rfl, knownFirst, knownRest⟩ := map_roleOf?_cons_iff.mp known
      obtain ⟨notSeen, different, fresh⟩ := fresh_cons_iff.mp ⟨different, fresh⟩
      have further := ih knownRest different fresh
      rw [List.cons_append, planFrom_cons_of_fresh knownFirst notSeen, List.reverse_cons,
        List.append_assoc, List.singleton_append, ← further]
      cases planFrom layout listed (role :: seen) (before ++ rest) with
      | error fault => rfl
      | ok steps => exact iff_of_false (fun h => nomatch h) (fun h => nomatch h)

theorem planFrom_cons_eq_error_iff {listed rest : List String} {seen : List OutputRole}
    {file : String} {fault : Fault} : planFrom layout listed seen (file :: rest) = .error fault ↔
      (roleOf? file = none ∧ fault = .unexpected file listed) ∨
      ∃ role, roleOf? file = some role ∧
        ((role ∈ seen ∧ fault = .duplicate file listed) ∨
          (role ∉ seen ∧ planFrom layout listed (role :: seen) rest = .error fault)) := by
  cases known : roleOf? file with
  | none =>
      rw [planFrom_cons, known]
      simp [eq_comm]
  | some role =>
      by_cases taken : role ∈ seen
      · rw [planFrom_cons, known]
        simp [taken, eq_comm]
      · rw [planFrom_cons_of_fresh known taken]
        generalize further : planFrom layout listed (role :: seen) rest = outcome
        cases outcome with
        | error other => simp [taken, further, Except.map]
        | ok steps => simp [taken, further, Except.map]

/-- Files are refused for the first of them that has an unknown name or a role that is taken. -/
theorem planFrom_eq_error_iff {listed files : List String} {seen : List OutputRole}
    {fault : Fault} : planFrom layout listed seen files = .error fault ↔
      ∃ before file after, ∃ roles : List OutputRole, files = before ++ file :: after ∧
        before.map roleOf? = roles.map some ∧ roles.Nodup ∧ (∀ role ∈ roles, role ∉ seen) ∧
        ((roleOf? file = none ∧ fault = .unexpected file listed) ∨
          ∃ role, roleOf? file = some role ∧ (role ∈ roles ∨ role ∈ seen) ∧
            fault = .duplicate file listed) := by
  constructor
  · intro refused
    induction files generalizing seen with
    | nil => cases refused
    | cons file rest ih =>
        rcases planFrom_cons_eq_error_iff.mp refused with unknown | ⟨role, known, taken | fresh⟩
        · exact ⟨[], file, rest, [], rfl, rfl, List.nodup_nil, by simp, Or.inl unknown⟩
        · exact ⟨[], file, rest, [], rfl, rfl, List.nodup_nil, by simp,
            Or.inr ⟨role, known, Or.inr taken.1, taken.2⟩⟩
        · obtain ⟨before, other, after, roles, rfl, knownRest, different, freshRest, objection⟩ :=
            ih fresh.2
          obtain ⟨different, free⟩ := fresh_cons_iff.mpr ⟨fresh.1, different, freshRest⟩
          refine ⟨file :: before, other, after, role :: roles, rfl,
            map_roleOf?_cons_iff.mpr ⟨role, roles, rfl, known, knownRest⟩, different, free, ?_⟩
          refine objection.imp_right ?_
          rintro ⟨again, knownAgain, taken, same⟩
          refine ⟨again, knownAgain, ?_, same⟩
          simpa [or_assoc, or_left_comm] using taken
  · rintro ⟨before, file, after, roles, rfl, known, different, fresh, objection⟩
    rw [planFrom_append_eq_error_iff known different fresh, planFrom_cons_eq_error_iff]
    refine objection.imp_right ?_
    rintro ⟨role, knownHere, taken, same⟩
    refine ⟨role, knownHere, Or.inl ⟨?_, same⟩⟩
    simpa using taken

theorem planFrom_nil_eq_error_iff {listed files : List String} {fault : Fault} :
    planFrom layout listed [] files = .error fault ↔ ∃ before file after,
      files = before ++ file :: after ∧ Distinct before ∧ Objection before listed file fault := by
  rw [planFrom_eq_error_iff]
  constructor
  · rintro ⟨before, file, after, roles, rfl, known, different, _, objection⟩
    refine ⟨before, file, after, rfl, ⟨roles, map_roleOf?_eq_iff.mp known, different⟩, ?_⟩
    rcases objection with ⟨unknown, rfl⟩ | ⟨role, knownHere, taken, rfl⟩
    · exact .unknown (roleOf?_eq_none_iff.mp unknown)
    · have among : some role ∈ before.map roleOf? := by
        rw [known]
        exact List.mem_map_of_mem (by simpa using taken)
      obtain ⟨other, member, knownOther⟩ := List.mem_map.mp among
      exact .again (roleOf?_eq_some_iff.mp knownHere) member (roleOf?_eq_some_iff.mp knownOther)
  · rintro ⟨before, file, after, rfl, ⟨roles, names, different⟩, objection⟩
    have known := map_roleOf?_eq_iff.mpr names
    refine ⟨before, file, after, roles, rfl, known, different, by simp, ?_⟩
    cases objection with
    | unknown other => exact Or.inl ⟨roleOf?_eq_none_iff.mpr other, rfl⟩
    | @again role other knownHere member taken =>
        have among : some role ∈ before.map roleOf? :=
          List.mem_map.mpr ⟨other, member, roleOf?_eq_some_iff.mpr taken⟩
        rw [known, List.mem_map] at among
        obtain ⟨first, inRoles, same⟩ := among
        cases same
        exact Or.inr ⟨_, roleOf?_eq_some_iff.mpr knownHere, Or.inl inRoles, rfl⟩

/-! ## Refusals -/

/-- Why there is no plan for the results of a compile. -/
inductive Refused : Option CompilationResults → Fault → Prop
  | noResults : Refused none .noResults
  | noFiles : Refused (some ⟨none⟩) .noFiles
  | count {files : List String} (other : files.length ≠ 3) :
      Refused (some ⟨some files⟩) (.count files)
  | entry {before after : List String} {file : String} {fault : Fault}
      (three : (before ++ file :: after).length = 3) (distinct : Distinct before)
      (objection : Objection before (before ++ file :: after) file fault) :
      Refused (some ⟨some (before ++ file :: after)⟩) fault

theorem plan_eq_error_iff {results : Option CompilationResults} {fault : Fault} :
    plan layout results = .error fault ↔ Refused results fault := by
  have three : expectedCount = 3 := rfl
  constructor
  · intro refused
    match results with
    | none =>
        cases refused
        exact .noResults
    | some ⟨none⟩ =>
        cases refused
        exact .noFiles
    | some ⟨some files⟩ =>
        by_cases count : files.length = 3
        · simp only [plan, three, count, if_true] at refused
          obtain ⟨before, file, after, rfl, distinct, objection⟩ :=
            planFrom_nil_eq_error_iff.mp refused
          exact .entry count distinct objection
        · simp only [plan, three, count, if_false] at refused
          cases refused
          exact .count count
  · intro refused
    cases refused with
    | noResults => rfl
    | noFiles => rfl
    | count other => simp only [plan, three, other, if_false]
    | @entry before after file fault count distinct objection =>
        simp only [plan, three, count, if_true]
        exact planFrom_nil_eq_error_iff.mpr ⟨before, file, after, rfl, distinct, objection⟩

def Fault.entry? : Fault → Option String
  | .unexpected file _ | .duplicate file _ => some file
  | .noResults | .noFiles | .count _ | .incomplete => none

theorem suffix_message {fault : Fault} {file : String} (about : fault.entry? = some file) :
    file.toList <:+ fault.message.toList := by
  cases fault with
  | unexpected =>
      cases about
      exact ⟨_, (String.toList_append).symm⟩
  | duplicate =>
      cases about
      exact ⟨_, (String.toList_append).symm⟩
  | noResults => cases about
  | noFiles => cases about
  | count => cases about
  | incomplete => cases about

/-! ## What a plan is -/

/-- The steps are what is to be copied for the files of a reply. -/
structure Planned (layout : Layout) (files : List String) (steps : List CopyStep) : Prop where
  roles : (steps.map CopyStep.role).Perm [.iconBundle, .assetArchive]
  sources : steps.map CopyStep.source
    = files.filter fun file => decide (Path.baseName file ≠ "partial.plist")
  named : ∀ step ∈ steps, Path.baseName step.source = step.role.fileName
  goes : ∀ step ∈ steps, ∃ destination,
    step.role.destination? layout = some destination ∧ step.destination = destination.text
  apart : (steps.map CopyStep.destination).Nodup
  found : destinations steps = .ok ⟨layout.iconBundle.text, layout.assetArchive.text⟩

theorem sources_stepsFor {files : List String} {roles : List OutputRole}
    (known : files.map roleOf? = roles.map some) :
    (stepsFor layout files).map CopyStep.source
      = files.filter fun file => decide (Path.baseName file ≠ "partial.plist") := by
  induction files generalizing roles with
  | nil => rfl
  | cons file rest ih =>
      obtain ⟨role, others, rfl, known, knownRest⟩ := map_roleOf?_cons_iff.mp known
      have name := roleOf?_eq_some_iff.mp known
      rw [stepsFor_cons rest known, List.map_append, ih knownRest, List.filter_cons, name]
      cases role with
      | partialInfoList => rfl
      | iconBundle => rfl
      | assetArchive => rfl

theorem planned_of_plan (tagFree : '/' ∉ layout.tag.toList) {results : Option CompilationResults}
    {steps : List CopyStep} (made : plan layout results = .ok steps) :
    ∃ files, results = some ⟨some files⟩ ∧ Planned layout files steps := by
  have found := destinations_of_plan made
  obtain ⟨files, listed, perm, rfl⟩ := plan_eq_ok_iff.mp made
  obtain ⟨roles, names, all⟩ := exists_roles_of_perm perm
  have known := map_roleOf?_eq_iff.mpr names
  have texts : layout.iconBundle.text ≠ layout.assetArchive.text := fun same =>
    Layout.iconBundle_ne_assetArchive tagFree tagFree (Place.text_inj.mp same)
  refine ⟨files, listed, ?_, sources_stepsFor known, ?_, ?_, destinations_nodup perm texts, found⟩
  · rw [roles_stepsFor known]
    exact all.filter _
  · intro step member
    exact (of_mem_stepsFor member).2.1
  · intro step member
    exact destination_of_mem member

/-- Results have a plan exactly if they list the three files, in any order; otherwise the
refusal says what is wrong with the list, and names the first file that does not fit in. -/
theorem planning_exact {directory : Place} {path : String}
    (named : Layout.ofPath directory path = .ok layout) (results : Option CompilationResults) :
    ((∃ steps, plan layout results = .ok steps) ↔ ∃ files, results = some ⟨some files⟩ ∧
      (files.map Path.baseName).Perm ["partial.plist", "AppIcon.icns", "Assets.car"]) ∧
    (∀ steps, plan layout results = .ok steps →
      ∃ files, results = some ⟨some files⟩ ∧ Planned layout files steps) ∧
    (∀ fault, plan layout results = .error fault ↔ Refused results fault) ∧
    ∀ fault, plan layout results = .error fault →
      ∃ failure, (Cause.unpublished fault).failure? = some failure ∧
        failure.family = .compilation ∧
        ∀ file, fault.entry? = some file → file.toList <:+ failure.message.toList := by
  refine ⟨⟨?_, ?_⟩, fun steps => planned_of_plan (Layout.tag_noSlash named),
    fun fault => plan_eq_error_iff, ?_⟩
  · rintro ⟨steps, made⟩
    obtain ⟨files, listed, perm, _⟩ := plan_eq_ok_iff.mp made
    exact ⟨files, listed, perm⟩
  · rintro ⟨files, listed, perm⟩
    exact ⟨_, plan_eq_ok_iff.mpr ⟨files, listed, perm, rfl⟩⟩
  · intro fault _
    exact ⟨_, rfl, rfl, fun file about => suffix_message about⟩

namespace Sample

def tagged : Layout where
  catalog := Place.root.resolve "/w/Assets_beta.xcassets"
  sourceDirectory := Place.root.resolve "/w"
  baseName := "Assets_beta"
  tag := "_beta"

def listed : List String := ["/s/Assets.car", "partial.plist//", "t/../AppIcon.icns"]

theorem reordered_files_planned :
    Layout.ofPath Place.root "w/./Assets_beta.xcassets/" = .ok tagged ∧
    (listed.map Path.baseName).Perm ["partial.plist", "AppIcon.icns", "Assets.car"] ∧
    ∃ steps, plan tagged (some ⟨some listed⟩) = .ok steps ∧ Planned tagged listed steps := by
  have named : Layout.ofPath Place.root "w/./Assets_beta.xcassets/" = .ok tagged := by rfl
  have names : (listed.map Path.baseName).Perm ["partial.plist", "AppIcon.icns", "Assets.car"] := by
    decide +kernel
  obtain ⟨accepted, planned, _⟩ := planning_exact named (some ⟨some listed⟩)
  obtain ⟨steps, made⟩ := accepted.mpr ⟨listed, rfl, names⟩
  obtain ⟨files, same, exact⟩ := planned steps made
  cases same
  exact ⟨named, names, steps, made, exact⟩

end Sample

end AssetCatalog.Publication
