import AssetCatalog.Proofs.CommandLine.Protocol
import AssetCatalog.Proofs.Compile.Categories
/-! # What a check predicts

To check and to compile begin in the same way, with the version gate and the deployment target.
What ends a check ends the compile too, in the same state; the other way round, a compile that
has done nothing but to ask for the version has been ended by what ends the check, unless it is
the first catalog that is at fault, which a check does not look at.  No catalog is ever rejected
for what the gate or the configuration refuses. -/

set_option autoImplicit false

namespace AssetCatalog

def Gate.asked (work : Work) : Work := { work with calls := work.calls ++ [query work.tree] }

/-- A run can end for this before it has come to any catalog: the gate or the configuration has
refused, or the runner has broken down. -/
def Cause.IsPreliminary (cause : Cause) : Prop :=
  cause.category? = some .capability ∨ cause.category? = some .configuration ∨
    ∃ message, cause = .brokenDown message

theorem Gate.isPreliminary_of_verify {setting : Setting} {required : Version} {state : RunState}
    {cause : Cause} (refused : (verify setting required state).1 = .error cause) :
    cause.IsPreliminary := by
  cases answered : (setting.runner.respond (state.calls ++ [query state.tree])).outcome with
  | error message =>
      rw [(verify_eq setting required state).2, answered] at refused
      cases refused
      exact Or.inr (Or.inr ⟨message, rfl⟩)
  | ok outcome => exact Or.inl (category_of_verify answered refused)

theorem Configuration.isPreliminary_of_targetOf {setting : Setting} {checkout : String}
    {state : RunState} {cause : Cause}
    (refused : targetOf state.tree setting.directory checkout = .error cause) :
    cause.IsPreliminary := by
  refine Or.inr (Or.inl (@category_of_target setting checkout state cause ?_))
  rw [target_eq]
  exact refused

namespace Compile

section

variable {setting : Setting} {request : Request} {state : RunState} {cause : Cause}

/-- Of what can end a run before its catalogs, only a breakdown of the runner can end the
compile of a catalog, and then the compiler has been called. -/
theorem called_of_isPreliminary (rejected : (one setting request state).1 = .error cause)
    (preliminary : cause.IsPreliminary) : (∃ message, cause = .brokenDown message) ∧
      (one setting request state).2.calls.length = state.calls.length + 1 := by
  unfold Cause.IsPreliminary at preliminary
  cases rejection_of_one rejected with
  | badName _ => simp [Cause.category?] at preliminary
  | iconMissing _ _ => simp [Cause.category?] at preliminary
  | scratch _ _ _ => simp [Cause.category?] at preliminary
  | staging _ _ _ _ => simp [Cause.category?] at preliminary
  | copying _ _ _ => simp [Cause.category?] at preliminary
  | verdict ready refusal =>
      have calls := ((course_one setting request state).calls.1 ready).1
      rcases category_of_verdict refusal with ⟨message, _, broken⟩ | compilation
      · exact ⟨⟨message, broken⟩, by simp [calls]⟩
      · rcases preliminary with capability | configuration | broken
        · cases compilation.symm.trans capability
        · cases compilation.symm.trans configuration
        · exact ⟨broken, by simp [calls]⟩

end

theorem called_of_all {setting : Setting} {target : String} {verbose : Bool}
    {catalogs : List String} {state : RunState} {cause : Cause}
    (rejected : (all setting target verbose catalogs state).1 = .error cause)
    (preliminary : cause.IsPreliminary) : (∃ message, cause = .brokenDown message) ∧
      state.calls.length < (all setting target verbose catalogs state).2.calls.length := by
  obtain ⟨k, catalog, there, earlier, failed⟩ := first_error_of_all rejected
  obtain ⟨broken, called⟩ := called_of_isPreliminary failed preliminary
  obtain ⟨calls, before, count, _⟩ := calls_of_answers earlier
  refine ⟨broken, ?_⟩
  rw [all_of_first_error there earlier failed]
  dsimp only
  rw [after_take_succ there, called, before, List.length_append]
  omega

end Compile

namespace CommandLine.Program

section

variable {host : Host} {paths : List String} {verbose : Bool} {switch : Option String}
  {state : RunState}

theorem compileCatalogs_eq (host : Host) (paths : List String) (verbose : Bool) (target : String)
    (state : RunState) :
    (compileCatalogs host paths verbose target state).result
        = (Compile.all host.setting target verbose paths state).1.map (fun _ => ()) ∧
      (compileCatalogs host paths verbose target state).state
        = (Compile.all host.setting target verbose paths state).2 := by
  unfold compileCatalogs
  cases Compile.all host.setting target verbose paths state with
  | mk result after =>
      cases result with
      | error cause => exact ⟨rfl, rfl⟩
      | ok compiled => exact ⟨rfl, rfl⟩

/-- A compile and a check are ended by the same before the first catalog, or the check has found
nothing to refuse and the compile goes on from where it has ended. -/
inductive Begins (host : Host) (paths : List String) (verbose : Bool) (switch : Option String)
    (state : RunState) : Prop where
  | refused {cause : Cause} (preliminary : cause.IsPreliminary)
      (checked : (check host switch state).result = .error cause)
      (compiled : (compile host paths verbose switch state).result = .error cause)
      (left : (compile host paths verbose switch state).state.toWork = Gate.asked state.toWork)
  | passed {target : String} (checked : (check host switch state).result = .ok ())
      (compiled : (compile host paths verbose switch state).result
        = (Compile.all host.setting target verbose paths
          (check host switch state).state).1.map fun _ => ())
      (left : (compile host paths verbose switch state).state
        = (Compile.all host.setting target verbose paths (check host switch state).state).2)

theorem begins (host : Host) (paths : List String) (verbose : Bool) (switch : Option String)
    (state : RunState) : (check host switch state).state.toWork = Gate.asked state.toWork ∧
      Begins host paths verbose switch state := by
  have asked := (Gate.verify_eq host.setting Gate.requiredVersion state).1
  -- Both commands prepare in the same way and differ in what they go on with.
  cases verified : (Gate.verify host.setting Gate.requiredVersion state).1 with
  | error cause =>
      have checks : check host switch state = _ := prepare_of_refused verified
      have compiles : compile host paths verbose switch state = _ := prepare_of_refused verified
      rw [checks]
      refine ⟨asked, .refused (Gate.isPreliminary_of_verify verified) ?_ ?_ ?_⟩
      · rw [checks]
      · rw [compiles]
      · rw [compiles]
        exact asked
  | ok version =>
      have checks : check host switch state = _ := prepare_of_accepted verified
      have compiles : compile host paths verbose switch state = _ := prepare_of_accepted verified
      cases found : Configuration.targetOf state.tree host.setting.directory
          (host.checkout switch).text with
      | error cause =>
          rw [found] at checks compiles
          rw [checks]
          refine ⟨asked, .refused (Configuration.isPreliminary_of_targetOf found) ?_ ?_ ?_⟩
          · rw [checks]
          · rw [compiles]
          · rw [compiles]
            exact asked
      | ok target =>
          rw [found] at checks compiles
          obtain ⟨result, left⟩ := compileCatalogs_eq host paths verbose target
            (Gate.verify host.setting Gate.requiredVersion state).2
          rw [checks]
          refine ⟨asked, @Begins.passed host paths verbose switch state target ?_ ?_ ?_⟩
          · rw [checks]
            rfl
          · rw [checks, compiles]
            exact result
          · rw [checks, compiles]
            exact left

theorem compile_of_badName {path : String} {fault : NameFault}
    (misnamed : Layout.ofPath host.setting.directory path = .error fault)
    (checked : (check host switch state).result = .ok ()) :
    (compile host (path :: paths) verbose switch state).result = .error (.badName fault) ∧
      (compile host (path :: paths) verbose switch state).state.toWork
        = Gate.asked state.toWork := by
  obtain ⟨asked, goes⟩ := begins host (path :: paths) verbose switch state
  cases goes with
  | refused _ refusal => cases checked.symm.trans refusal
  | @passed target _ compiled left =>
      have ended := @Compile.deed_of_badName host.setting ⟨path, target, verbose⟩
        (check host switch state).state.toWork fault misnamed
      obtain ⟨result, work⟩ := Compile.does_one host.setting ⟨path, target, verbose⟩
        (check host switch state).state
      rw [ended] at result work
      rw [Compile.all_cons_of_error result] at compiled left
      rw [compiled, left, work]
      exact ⟨rfl, asked⟩

/-- Behind a check that has passed, what is preliminary can still come up, but only from a further
call of the compiler. -/
theorem further_call_of_passed {cause : Cause} (checked : (check host switch state).result = .ok ())
    (rejected : (compile host paths verbose switch state).result = .error cause)
    (preliminary : cause.IsPreliminary) : (∃ message, cause = .brokenDown message) ∧
      (compile host paths verbose switch state).state.toWork ≠ Gate.asked state.toWork := by
  obtain ⟨asked, goes⟩ := begins host paths verbose switch state
  cases goes with
  | refused _ refusal => cases checked.symm.trans refusal
  | @passed target _ compiled left =>
      rw [compiled] at rejected
      cases failed : (Compile.all host.setting target verbose paths
          (check host switch state).state).1 with
      | ok answers =>
          rw [failed] at rejected
          cases rejected
      | error other =>
          rw [failed] at rejected
          cases rejected
          obtain ⟨broken, more⟩ := Compile.called_of_all failed preliminary
          refine ⟨broken, fun unchanged => ?_⟩
          have same := congrArg (fun work : Work => work.calls.length) unchanged
          have start := congrArg (fun work : Work => work.calls.length) asked
          rw [left] at same
          omega

/-- A check asks for the version and does nothing else.  It is ended by what the gate, the
configuration or the runner has ended the compile for, where the compile has done no more than
that either; and once a check has come to its end, no catalog is rejected for the like. -/
theorem check_predicts_compile (host : Host) (paths : List String) (verbose : Bool)
    (switch : Option String) (state : RunState) :
    (check host switch state).state.toWork = Gate.asked state.toWork ∧
    (∀ cause, (check host switch state).result = .error cause ↔
      (compile host paths verbose switch state).result = .error cause ∧
        (compile host paths verbose switch state).state.toWork = Gate.asked state.toWork ∧
        cause.IsPreliminary) ∧
    ((check host switch state).result = .ok () → ∀ cause,
      (compile host paths verbose switch state).result = .error cause →
        cause.category? ≠ some .capability ∧ cause.category? ≠ some .configuration) := by
  obtain ⟨asked, goes⟩ := begins host paths verbose switch state
  cases goes with
  | @refused refusal preliminary checked compiled left =>
      refine ⟨asked, fun cause => ?_, fun passed => ?_⟩
      · rw [checked, compiled]
        constructor
        · intro same
          cases same
          exact ⟨rfl, left, preliminary⟩
        · rintro ⟨same, _, _⟩
          exact same
      · cases checked.symm.trans passed
  | passed checked _ _ =>
      refine ⟨asked, fun cause => ?_, fun _ cause rejected => ?_⟩
      · rw [checked]
        refine iff_of_false (by simp) ?_
        rintro ⟨rejected, unchanged, preliminary⟩
        exact (further_call_of_passed checked rejected preliminary).2 unchanged
      · have further := further_call_of_passed checked rejected
        constructor
        · intro capability
          obtain ⟨⟨message, rfl⟩, _⟩ := further (Or.inl capability)
          cases capability
        · intro configuration
          obtain ⟨⟨message, rfl⟩, _⟩ := further (Or.inr (Or.inl configuration))
          cases configuration

end

namespace Sample

def host : Host where
  setting := { Compile.Sample.setting ⟨[]⟩ with
    runner := ⟨"xcrun", fun _ => ⟨.ok ⟨0, Text.Utf8.encode
      ("<plist><dict><key>com.apple.actool.version</key><dict><key>short-bundle-version</key>"
        ++ "<string>26.0</string></dict></dict></plist>"), ""⟩, none⟩⟩ }
  console := ⟨none, false⟩
  sourceRootVariable := none
  ownCheckout := Compile.Sample.place "/src"
  elapsed := .finite 0

def state : RunState := .start ⟨[(Compile.Sample.place "/src", .directory),
  (Compile.Sample.place "/src/build", .directory),
  (Compile.Sample.place "/src/build/config", .directory),
  (Compile.Sample.place "/src/build/config/mac", .directory),
  (Compile.Sample.place "/src/build/config/mac/mac_sdk.gni",
    .file "mac_deployment_target = \"12.0\"\n")]⟩

theorem checked : (check host none state).result = .ok () := by
  have found : (check host none state).result.toOption = some () := by
    decide +kernel
  exact Compile.Sample.eq_ok_of_toOption found

/-- The compile of a file with another suffix ends after the one query, and the check does not
end with it. -/
theorem bad_name_not_predicted : ¬ ((check host none state).result
      = .error (.badName (.suffix "Assets.txt")) ↔
    (compile host ["Assets.txt"] false none state).result
        = .error (.badName (.suffix "Assets.txt")) ∧
      (compile host ["Assets.txt"] false none state).state.toWork = Gate.asked state.toWork) := by
  have misnamed : Layout.ofPath host.setting.directory "Assets.txt"
      = .error (.suffix "Assets.txt") := by
    decide +kernel
  intro predicts
  cases checked.symm.trans (predicts.mpr (compile_of_badName misnamed checked))

end Sample

end CommandLine.Program

end AssetCatalog
