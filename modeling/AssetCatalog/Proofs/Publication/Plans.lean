import AssetCatalog.Proofs.Layout.Belongings
import AssetCatalog.Publication
import Mathlib.Data.List.Perm.Basic
import Mathlib.Data.List.Perm.Subperm
import Mathlib.Data.List.Permutation
/-! # Which lists of files are published

A plan is made exactly when the base names of the listed files are the three names of the
outputs in some order (`plan_eq_ok_iff`).  It then has two steps, one for the icon bundle and
one for the asset archive, in the order in which their files are listed (`pair_of_perm`), so the
destinations of both are known (`destinations_of_plan`). -/

set_option autoImplicit false

namespace AssetCatalog

namespace OutputRole

theorem mem_all (role : OutputRole) : role ∈ all := by
  cases role <;> decide

theorem fileName_injective : Function.Injective fileName := by
  intro a b same
  cases a <;> cases b <;> first | rfl | exact absurd same (by decide)

theorem ofFileName?_eq_some_iff {name : String} {role : OutputRole} :
    ofFileName? name = some role ↔ name = role.fileName := by
  constructor
  · intro found
    have holds := List.find?_some found
    exact (of_decide_eq_true holds).symm
  · rintro rfl
    cases role <;> decide

end OutputRole

namespace Publication

def roleOf? (file : String) : Option OutputRole := OutputRole.ofFileName? (Path.baseName file)

def stepsFor (layout : Layout) (files : List String) : List CopyStep :=
  files.filterMap fun file => (roleOf? file).bind fun role => stepFor layout role file

theorem roleOf?_eq_some_iff {file : String} {role : OutputRole} :
    roleOf? file = some role ↔ Path.baseName file = role.fileName :=
  OutputRole.ofFileName?_eq_some_iff

theorem stepsFor_cons {layout : Layout} {file : String} {role : OutputRole} (rest : List String)
    (known : roleOf? file = some role) :
    stepsFor layout (file :: rest) = (stepFor layout role file).toList ++ stepsFor layout rest := by
  unfold stepsFor
  rw [List.filterMap_cons, known, Option.bind_some]
  cases stepFor layout role file with
  | none => rfl
  | some step => rfl

/-! ## Plans -/

theorem planFrom_cons {layout : Layout} {listed rest : List String} {seen : List OutputRole}
    {file : String} : planFrom layout listed seen (file :: rest) = match roleOf? file with
      | none => .error (.unexpected file listed)
      | some role =>
        if role ∈ seen then .error (.duplicate file listed)
        else (planFrom layout listed (role :: seen) rest).map fun steps =>
          (stepFor layout role file).toList ++ steps := rfl

theorem planFrom_cons_eq_ok_iff {layout : Layout} {listed rest : List String}
    {seen : List OutputRole} {file : String} {steps : List CopyStep} :
    planFrom layout listed seen (file :: rest) = .ok steps ↔ ∃ role others,
      roleOf? file = some role ∧ role ∉ seen ∧
        planFrom layout listed (role :: seen) rest = .ok others ∧
          steps = (stepFor layout role file).toList ++ others := by
  rw [planFrom_cons]
  constructor
  · intro planned
    split at planned
    · cases planned
    · next role known =>
      split at planned
      · cases planned
      · next fresh =>
        cases further : planFrom layout listed (role :: seen) rest with
        | error fault =>
            rw [further] at planned
            cases planned
        | ok others =>
            rw [further] at planned
            cases planned
            exact ⟨role, others, known, fresh, further, rfl⟩
  · rintro ⟨role, others, known, fresh, further, rfl⟩
    rw [known]
    dsimp only
    rw [if_neg fresh, further]
    rfl

theorem map_roleOf?_cons_iff {file : String} {rest : List String} {roles : List OutputRole} :
    (file :: rest).map roleOf? = roles.map some ↔ ∃ role others,
      roles = role :: others ∧ roleOf? file = some role ∧
        rest.map roleOf? = others.map some := by
  cases roles with
  | nil => simp
  | cons first others => simp

/-- Different roles that are not taken are still so once the first of them is taken. -/
theorem fresh_cons_iff {first : OutputRole} {others seen : List OutputRole} :
    ((first :: others).Nodup ∧ ∀ role ∈ first :: others, role ∉ seen)
      ↔ first ∉ seen ∧ others.Nodup ∧ ∀ role ∈ others, role ∉ first :: seen := by
  constructor
  · rintro ⟨different, fresh⟩
    obtain ⟨notAgain, different⟩ := List.nodup_cons.mp different
    refine ⟨fresh first List.mem_cons_self, different, ?_⟩
    intro role member inSeen
    rcases List.mem_cons.mp inSeen with rfl | inSeen
    · exact notAgain member
    · exact fresh role (List.mem_cons_of_mem _ member) inSeen
  · rintro ⟨notSeen, different, fresh⟩
    refine ⟨List.nodup_cons.mpr ⟨?_, different⟩, ?_⟩
    · intro again
      exact fresh first again List.mem_cons_self
    · intro role member inSeen
      rcases List.mem_cons.mp member with rfl | member
      · exact notSeen inSeen
      · exact fresh role member (List.mem_cons_of_mem _ inSeen)

theorem planFrom_eq_ok_iff {layout : Layout} {listed files : List String}
    {seen : List OutputRole} {steps : List CopyStep} :
    planFrom layout listed seen files = .ok steps ↔ ∃ roles : List OutputRole,
      files.map roleOf? = roles.map some ∧ roles.Nodup ∧ (∀ role ∈ roles, role ∉ seen) ∧
        steps = stepsFor layout files := by
  induction files generalizing seen steps with
  | nil =>
      constructor
      · intro planned
        cases planned
        exact ⟨[], rfl, List.nodup_nil, by simp, rfl⟩
      · rintro ⟨roles, known, _, _, rfl⟩
        rfl
  | cons file rest ih =>
      constructor
      · intro planned
        obtain ⟨role, others, known, notSeen, further, rfl⟩ :=
          planFrom_cons_eq_ok_iff.mp planned
        obtain ⟨roles, knownRest, different, fresh, rfl⟩ := ih.mp further
        obtain ⟨different, fresh⟩ := fresh_cons_iff.mpr ⟨notSeen, different, fresh⟩
        refine ⟨role :: roles, ?_, different, fresh, (stepsFor_cons rest known).symm⟩
        exact map_roleOf?_cons_iff.mpr ⟨role, roles, rfl, known, knownRest⟩
      · rintro ⟨roles, known, different, fresh, rfl⟩
        obtain ⟨role, others, rfl, known, knownRest⟩ := map_roleOf?_cons_iff.mp known
        obtain ⟨notSeen, different, fresh⟩ := fresh_cons_iff.mp ⟨different, fresh⟩
        have further : planFrom layout listed (role :: seen) rest = .ok (stepsFor layout rest) :=
          ih.mpr ⟨others, knownRest, different, fresh, rfl⟩
        exact planFrom_cons_eq_ok_iff.mpr
          ⟨role, _, known, notSeen, further, stepsFor_cons rest known⟩

theorem map_roleOf?_eq_iff {files : List String} {roles : List OutputRole} :
    files.map roleOf? = roles.map some
      ↔ files.map Path.baseName = roles.map OutputRole.fileName := by
  induction files generalizing roles with
  | nil =>
      cases roles with
      | nil => simp
      | cons role others => simp
  | cons file rest ih =>
      cases roles with
      | nil => simp
      | cons role others =>
          simp only [List.map_cons, List.cons.injEq, ih, roleOf?_eq_some_iff]

/-- As many different roles as there are are all roles. -/
theorem perm_all_iff {roles : List OutputRole} :
    roles.Perm OutputRole.all ↔ roles.length = expectedCount ∧ roles.Nodup := by
  constructor
  · intro perm
    have different : OutputRole.all.Nodup := by decide
    exact ⟨perm.length_eq, perm.nodup_iff.mpr different⟩
  · rintro ⟨count, different⟩
    have among : roles ⊆ OutputRole.all := fun role _ => role.mem_all
    apply (different.subperm among).perm_of_length_le
    rw [count]
    exact Nat.le_refl _

theorem exists_roles {names : List String}
    (known : ∀ name ∈ names, ∃ role : OutputRole, name = role.fileName) :
    ∃ roles : List OutputRole, names = roles.map OutputRole.fileName := by
  induction names with
  | nil => exact ⟨[], rfl⟩
  | cons name rest ih =>
      obtain ⟨role, rfl⟩ := known name List.mem_cons_self
      obtain ⟨roles, rfl⟩ := ih fun other member => known other (List.mem_cons_of_mem _ member)
      exact ⟨role :: roles, rfl⟩

theorem exists_roles_of_perm {names : List String}
    (perm : names.Perm (OutputRole.all.map OutputRole.fileName)) :
    ∃ roles : List OutputRole,
      names = roles.map OutputRole.fileName ∧ roles.Perm OutputRole.all := by
  have known : ∀ name ∈ names, ∃ role : OutputRole, name = role.fileName := by
    intro name member
    obtain ⟨role, _, same⟩ := List.mem_map.mp (perm.mem_iff.mp member)
    exact ⟨role, same.symm⟩
  obtain ⟨roles, rfl⟩ := exists_roles known
  exact ⟨roles, rfl, (List.map_perm_map_iff OutputRole.fileName_injective).mp perm⟩

/-- Exactly the three outputs are published, in any order. -/
theorem plan_eq_ok_iff {layout : Layout} {results : Option CompilationResults}
    {steps : List CopyStep} :
    plan layout results = .ok steps ↔ ∃ files, results = some ⟨some files⟩ ∧
      (files.map Path.baseName).Perm (OutputRole.all.map OutputRole.fileName) ∧
        steps = stepsFor layout files := by
  constructor
  · intro planned
    unfold plan at planned
    split at planned
    · cases planned
    · cases planned
    · next files =>
      split at planned
      · next count =>
        obtain ⟨roles, known, different, _, rfl⟩ := planFrom_eq_ok_iff.mp planned
        have names := map_roleOf?_eq_iff.mp known
        have sameCount : roles.length = expectedCount := by
          have lengths := congrArg List.length known
          rw [List.length_map, List.length_map] at lengths
          omega
        refine ⟨files, rfl, ?_, rfl⟩
        rw [names]
        exact (perm_all_iff.mpr ⟨sameCount, different⟩).map _
      · cases planned
  · rintro ⟨files, rfl, perm, rfl⟩
    obtain ⟨roles, names, all⟩ := exists_roles_of_perm perm
    obtain ⟨count, different⟩ := perm_all_iff.mp all
    have sameCount : files.length = expectedCount := by
      have lengths := congrArg List.length names
      rw [List.length_map, List.length_map] at lengths
      omega
    simp only [plan, sameCount, if_true]
    exact planFrom_eq_ok_iff.mpr
      ⟨roles, map_roleOf?_eq_iff.mpr names, different, by simp, rfl⟩

/-! ## Destinations -/

theorem parent_of_destination? {layout : Layout} {role : OutputRole} {destination : Place}
    (tagFree : '/' ∉ layout.tag.toList) (goes : role.destination? layout = some destination) :
    destination.parent = layout.sourceDirectory := by
  cases role with
  | partialInfoList => cases goes
  | iconBundle =>
      cases goes
      exact Layout.parent_belonging tagFree .iconBundle
  | assetArchive =>
      cases goes
      exact Layout.parent_belonging tagFree .assetArchive

theorem destination?_congr {a b : Layout} (directories : a.sourceDirectory = b.sourceDirectory)
    (tags : a.tag = b.tag) (role : OutputRole) : role.destination? a = role.destination? b := by
  cases role with
  | partialInfoList => rfl
  | iconBundle => rw [OutputRole.destination?, OutputRole.destination?, Layout.iconBundle,
      Layout.iconBundle, directories, tags]
  | assetArchive => rw [OutputRole.destination?, OutputRole.destination?, Layout.assetArchive,
      Layout.assetArchive, directories, tags]

/-- Layouts with a destination in common have one directory and one tag. -/
theorem shares_of_destination? {a b : Layout} (freeA : '/' ∉ a.tag.toList)
    (freeB : '/' ∉ b.tag.toList) {role role' : OutputRole} {destination : Place}
    (goesA : role.destination? a = some destination)
    (goesB : role'.destination? b = some destination) :
    a.sourceDirectory = b.sourceDirectory ∧ a.tag = b.tag := by
  cases role with
  | partialInfoList => cases goesA
  | iconBundle =>
      have isIcon : a.iconBundle = destination := Option.some.inj goesA
      cases role' with
      | partialInfoList => cases goesB
      | iconBundle =>
          have isIconToo : b.iconBundle = destination := Option.some.inj goesB
          exact (Layout.iconBundle_eq_iff freeA freeB).mp (isIcon.trans isIconToo.symm)
      | assetArchive =>
          have isArchive : b.assetArchive = destination := Option.some.inj goesB
          exact absurd (isIcon.trans isArchive.symm)
            (Layout.iconBundle_ne_assetArchive freeA freeB)
  | assetArchive =>
      have isArchive : a.assetArchive = destination := Option.some.inj goesA
      cases role' with
      | partialInfoList => cases goesB
      | iconBundle =>
          have isIcon : b.iconBundle = destination := Option.some.inj goesB
          exact absurd (isIcon.trans isArchive.symm)
            (Layout.iconBundle_ne_assetArchive freeB freeA)
      | assetArchive =>
          have isArchiveToo : b.assetArchive = destination := Option.some.inj goesB
          exact (Layout.assetArchive_eq_iff freeA freeB).mp (isArchive.trans isArchiveToo.symm)

/-! ## The two steps of a plan -/

def iconStep (layout : Layout) (file : String) : CopyStep :=
  ⟨.iconBundle, file, layout.iconBundle.text⟩

def archiveStep (layout : Layout) (file : String) : CopyStep :=
  ⟨.assetArchive, file, layout.assetArchive.text⟩

theorem of_mem_stepsFor {layout : Layout} {files : List String} {step : CopyStep}
    (member : step ∈ stepsFor layout files) :
    step.source ∈ files ∧ Path.baseName step.source = step.role.fileName ∧
      stepFor layout step.role step.source = some step := by
  obtain ⟨file, listed, made⟩ := List.mem_filterMap.mp member
  obtain ⟨role, known, made⟩ := Option.bind_eq_some_iff.mp made
  have name := roleOf?_eq_some_iff.mp known
  obtain ⟨place, _, rfl⟩ := Option.map_eq_some_iff.mp made
  exact ⟨listed, name, made⟩

theorem destination_of_mem {layout : Layout} {files : List String} {step : CopyStep}
    (member : step ∈ stepsFor layout files) :
    ∃ destination, step.role.destination? layout = some destination ∧
      step.destination = destination.text := by
  obtain ⟨_, _, made⟩ := of_mem_stepsFor member
  obtain ⟨destination, goes, same⟩ := Option.map_eq_some_iff.mp made
  exact ⟨destination, goes, (congrArg CopyStep.destination same).symm⟩

theorem text_mem_of_mem {layout : Layout} {files : List String} {step : CopyStep}
    (member : step ∈ stepsFor layout files) :
    ∃ destination ∈ [layout.iconBundle, layout.assetArchive],
      step.destination = destination.text := by
  obtain ⟨destination, goes, text⟩ := destination_of_mem member
  refine ⟨destination, ?_, text⟩
  generalize step.role = role at goes
  cases role with
  | partialInfoList => cases goes
  | iconBundle =>
      cases goes
      exact List.mem_cons_self
  | assetArchive =>
      cases goes
      exact List.mem_cons_of_mem _ List.mem_cons_self

theorem text_of_mem {layout : Layout} {files : List String} {step : CopyStep}
    {destination : Place} (member : step ∈ stepsFor layout files)
    (goes : step.role.destination? layout = some destination) :
    step.destination = destination.text := by
  obtain ⟨place, goes', text⟩ := destination_of_mem member
  cases goes.symm.trans goes'
  exact text

theorem roles_stepsFor {layout : Layout} {files : List String} {roles : List OutputRole}
    (known : files.map roleOf? = roles.map some) :
    (stepsFor layout files).map CopyStep.role
      = roles.filter fun role => decide (role ≠ .partialInfoList) := by
  induction files generalizing roles with
  | nil =>
      cases roles with
      | nil => rfl
      | cons role others => simp at known
  | cons file rest ih =>
      obtain ⟨role, others, rfl, known, knownRest⟩ := map_roleOf?_cons_iff.mp known
      rw [stepsFor_cons rest known, List.map_append, ih knownRest]
      cases role <;> rfl

theorem pair_of_roles {layout : Layout} {files : List String} {a b : OutputRole}
    (roles : (stepsFor layout files).map CopyStep.role = [a, b]) :
    ∃ first second firstStep secondStep,
      (first ∈ files ∧ Path.baseName first = a.fileName) ∧
      (second ∈ files ∧ Path.baseName second = b.fileName) ∧
      stepFor layout a first = some firstStep ∧ stepFor layout b second = some secondStep ∧
      stepsFor layout files = [firstStep, secondStep] := by
  obtain ⟨firstStep, others, steps, firstRole, rest⟩ := List.map_eq_cons_iff.mp roles
  obtain ⟨secondStep, none, rfl, secondRole, rest⟩ := List.map_eq_cons_iff.mp rest
  obtain rfl := List.map_eq_nil_iff.mp rest
  have firstThere : firstStep ∈ stepsFor layout files := by simp [steps]
  have secondThere : secondStep ∈ stepsFor layout files := by simp [steps]
  obtain ⟨firstListed, firstName, firstMade⟩ := of_mem_stepsFor firstThere
  obtain ⟨secondListed, secondName, secondMade⟩ := of_mem_stepsFor secondThere
  rw [firstRole] at firstName firstMade
  rw [secondRole] at secondName secondMade
  exact ⟨firstStep.source, secondStep.source, firstStep, secondStep, ⟨firstListed, firstName⟩,
    ⟨secondListed, secondName⟩, firstMade, secondMade, steps⟩

/-- The two steps come in the order in which their files are listed. -/
theorem pair_of_perm {layout : Layout} {files : List String}
    (perm : (files.map Path.baseName).Perm (OutputRole.all.map OutputRole.fileName)) :
    ∃ icon archive : String,
      (icon ∈ files ∧ Path.baseName icon = OutputRole.iconBundle.fileName) ∧
      (archive ∈ files ∧ Path.baseName archive = OutputRole.assetArchive.fileName) ∧
      (stepsFor layout files = [iconStep layout icon, archiveStep layout archive] ∨
        stepsFor layout files = [archiveStep layout archive, iconStep layout icon]) := by
  obtain ⟨roles, names, all⟩ := exists_roles_of_perm perm
  have pair : ((stepsFor layout files).map CopyStep.role).Perm [.iconBundle, .assetArchive] := by
    rw [roles_stepsFor (map_roleOf?_eq_iff.mpr names)]
    exact all.filter _
  rcases List.perm_pair.mp pair with order | order
  · obtain ⟨icon, archive, _, _, isIcon, isArchive, iconMade, archiveMade, steps⟩ :=
      pair_of_roles order
    cases iconMade
    cases archiveMade
    exact ⟨icon, archive, isIcon, isArchive, Or.inl steps⟩
  · obtain ⟨archive, icon, _, _, isArchive, isIcon, archiveMade, iconMade, steps⟩ :=
      pair_of_roles order
    cases archiveMade
    cases iconMade
    exact ⟨icon, archive, isIcon, isArchive, Or.inr steps⟩

theorem destinations_nodup {layout : Layout} {files : List String}
    (perm : (files.map Path.baseName).Perm (OutputRole.all.map OutputRole.fileName))
    (apart : layout.iconBundle.text ≠ layout.assetArchive.text) :
    ((stepsFor layout files).map CopyStep.destination).Nodup := by
  obtain ⟨icon, archive, _, _, steps | steps⟩ := @pair_of_perm layout files perm
  · rw [steps]
    exact List.nodup_cons.mpr ⟨by simpa [iconStep, archiveStep] using apart, by simp⟩
  · rw [steps]
    exact List.nodup_cons.mpr ⟨by simpa [iconStep, archiveStep] using apart.symm, by simp⟩

theorem destinations_of_plan {layout : Layout} {results : Option CompilationResults}
    {steps : List CopyStep} (planned : plan layout results = .ok steps) :
    destinations steps = .ok ⟨layout.iconBundle.text, layout.assetArchive.text⟩ := by
  obtain ⟨files, _, perm, rfl⟩ := plan_eq_ok_iff.mp planned
  obtain ⟨icon, archive, _, _, steps | steps⟩ := @pair_of_perm layout files perm
  · rw [steps]
    rfl
  · rw [steps]
    rfl

end Publication

end AssetCatalog
