import AssetCatalog.Proofs.Compile.Batch
import AssetCatalog.Proofs.Compile.Telling
/-! # Reporting does not interfere

Two runs of a batch that differ only in who follows them, and how closely, come to the same
answer, do the same and tell the same: a close follower sees the whole trace, and any other one
sees it without the details.  One step of the argument is about a single compile, where neither
the work (`deed_followed`) nor the full trace (`told_followed`) depends on the following; the
rest is an induction on the catalogs. -/

set_option autoImplicit false

namespace AssetCatalog

/-- Who follows a run, and whether the details are wanted. -/
structure Following where
  handlers : List Handler
  verbose : Bool

def Progress.isDetail : Progress → Bool
  | .invoking _ => true
  | .copied _ => true
  | _ => false

def received (name : String) (deliveries : List (String × Event)) : List Event :=
  (deliveries.filter fun delivery => delivery.1 = name).map Prod.snd

theorem received_append (name : String) (earlier later : List (String × Event)) :
    received name (earlier ++ later) = received name earlier ++ received name later := by
  simp [received]

theorem received_one {handlers : List Handler} {handler : Handler} {event : Event}
    (distinct : (handlers.map Handler.name).Nodup) (member : handler ∈ handlers) :
    received handler.name (handlers.map fun handler => (handler.name, event)) = [event] := by
  induction handlers with
  | nil => cases member
  | cons first rest ih =>
      rw [List.map_cons, List.nodup_cons] at distinct
      rw [List.map_cons, ← List.singleton_append, received_append]
      rcases List.mem_cons.mp member with rfl | later
      · have none : received handler.name (rest.map fun handler => (handler.name, event)) = [] := by
          simp only [received, List.map_eq_nil_iff, List.filter_eq_nil_iff, List.mem_map]
          rintro delivery ⟨other, there, rfl⟩ same
          exact distinct.1 (List.mem_map.mpr ⟨other, there, by simpa using same⟩)
        rw [none]
        simp [received]
      · have differs : first.name ≠ handler.name := by
          intro same
          exact distinct.1 (List.mem_map.mpr ⟨handler, later, same.symm⟩)
        rw [ih distinct.2 later]
        simp [received, differs]

theorem received_deliveriesOf {handlers : List Handler} {handler : Handler}
    (distinct : (handlers.map Handler.name).Nodup) (member : handler ∈ handlers)
    (told : List Moment) :
    received handler.name (deliveriesOf handlers told) = told.map Moment.event := by
  induction told with
  | nil => rfl
  | cons moment rest ih =>
      unfold deliveriesOf at ih ⊢
      rw [List.flatMap_cons, received_append, received_one distinct member, ih]
      rfl

namespace Following

variable (following : Following) {α : Type}

def sees (full : List Moment) : List Moment :=
  if following.verbose then full
  else full.filter fun moment => !moment.event.progress.isDetail

theorem sees_append (earlier later : List Moment) :
    following.sees (earlier ++ later) = following.sees earlier ++ following.sees later := by
  unfold sees
  split
  · rfl
  · exact List.filter_append ..

theorem sees_cons {moment : Moment} (plain : moment.event.progress.isDetail = false)
    (rest : List Moment) : following.sees (moment :: rest) = moment :: following.sees rest := by
  unfold sees
  split
  · rfl
  · simp [plain]

@[simp] theorem sees_nil : following.sees [] = [] := by
  simp [sees]

theorem sees_followedBy (deed : Deed α) (full : α → Work → List Moment) (work : Work) :
    following.sees (deed.followedBy full work)
      = deed.followedBy (fun value work => following.sees (full value work)) work := by
  unfold Deed.followedBy
  split
  · rfl
  · exact following.sees_nil

/-- Between two states a full trace has been told as far as it is followed: each event reaches
all handlers, in their order, before the next one comes, and so every handler has received the
trace as a whole. -/
structure Receives (before after : RunState) (full : List Moment) : Prop where
  moments : after.moments = before.moments ++ following.sees full
  deliveries : after.deliveries
    = before.deliveries ++ deliveriesOf following.handlers (following.sees full)
  each : (following.handlers.map Handler.name).Nodup → ∀ handler ∈ following.handlers,
    received handler.name after.deliveries
      = received handler.name before.deliveries ++ (following.sees full).map Moment.event

variable {following} {before middle after : RunState} {full further : List Moment}

theorem receives_of_tells (moments : after.moments = before.moments ++ following.sees full)
    (deliveries : after.deliveries
      = before.deliveries ++ deliveriesOf following.handlers (following.sees full)) :
    following.Receives before after full := by
  refine ⟨moments, deliveries, ?_⟩
  intro distinct handler member
  rw [deliveries, received_append, received_deliveriesOf distinct member]

theorem Receives.trans (first : following.Receives before middle full)
    (second : following.Receives middle after further) :
    following.Receives before after (full ++ further) := by
  apply receives_of_tells
  · rw [second.moments, first.moments, sees_append, List.append_assoc]
  · rw [second.deliveries, first.deliveries, sees_append, List.append_assoc]
    simp [deliveriesOf]

theorem Receives.refl (state : RunState) : following.Receives state state [] := by
  apply receives_of_tells <;> simp [deliveriesOf]

end Following

namespace Compile

variable (setting : Setting) (request : Request) (following : Following) {layout : Layout}

def followed : Setting := { setting with handlers := following.handlers }

def asked : Request := { request with verbose := following.verbose }

def full : Request := { request with verbose := true }

theorem followed_directory : (followed setting following).directory = setting.directory :=
  rfl

theorem followed_scratchPlace :
    (followed setting following).scratchPlace = setting.scratchPlace := by
  unfold followed Setting.scratchPlace
  dsimp only

theorem asked_catalog : (asked request following).catalog = request.catalog := rfl

theorem full_catalog : (full request).catalog = request.catalog := rfl

/-! ## One compile -/

theorem copyAll_followed (steps : List CopyStep) :
    Work.copyAll (followed setting following) steps = Work.copyAll setting steps :=
  Work.copyAll_congr (followed_directory setting following)

/-- What the compile of a catalog does depends neither on the handlers nor on the details. -/
theorem deed_followed :
    deed (followed setting following) (asked request following) = deed setting request := by
  have publishes : ∀ layout, publishDeed (followed setting following) layout
      = publishDeed setting layout := by
    intro layout
    funext outcome
    simp only [publishDeed, copyAll_followed]
  unfold deed insideDeed Deed.inScratch
  rw [followed_scratchPlace]
  simp only [publishes]
  rfl

theorem detail_followed {progress : Progress} (isDetail : progress.isDetail = true)
    (work : Work) :
    detail (asked request following) layout progress work
      = following.sees (detail (full request) layout progress work) := by
  cases following with
  | mk handlers verbose =>
      cases verbose <;> simp [detail, asked, full, Following.sees, moment, isDetail]

theorem toldOfCopies_followed (steps : List CopyStep) (work : Work) :
    toldOfCopies (followed setting following) (asked request following) layout steps work
      = following.sees (toldOfCopies setting (full request) layout steps work) := by
  induction steps generalizing work with
  | nil => exact following.sees_nil.symm
  | cons step rest ih =>
      rw [toldOfCopies, toldOfCopies, Following.sees_followedBy]
      congr 1
      funext _ work
      rw [Following.sees_append, ← ih, ← detail_followed request following rfl]

theorem toldOfPlan_followed (steps : List CopyStep) (work : Work) :
    toldOfPlan (followed setting following) (asked request following) layout steps work
      = following.sees (toldOfPlan setting (full request) layout steps work) := by
  unfold toldOfPlan
  have completed : ∀ after, following.sees [moment layout .completed after]
      = [moment layout .completed after] := by
    intro after
    rw [following.sees_cons rfl, following.sees_nil]
  rw [Following.sees_append, toldOfCopies_followed, copyAll_followed,
    Following.sees_followedBy]
  simp only [completed]

theorem toldOfOutcome_followed (outcome : ProcessOutcome) (work : Work) :
    toldOfOutcome (followed setting following) (asked request following) layout outcome work
      = following.sees (toldOfOutcome setting (full request) layout outcome work) := by
  unfold toldOfOutcome
  cases readReply outcome with
  | error cause => exact following.sees_nil.symm
  | ok reply =>
      dsimp only
      cases Report.ofReply? reply with
      | some report => exact following.sees_nil.symm
      | none =>
          dsimp only
          rw [following.sees_cons rfl]
          cases Publication.plan layout reply.results with
          | error fault => simp
          | ok steps =>
              dsimp only
              rw [toldOfPlan_followed]

theorem toldInside_followed (scratch : Place) (work : Work) :
    toldInside (followed setting following) (asked request following) layout scratch work
      = following.sees (toldInside setting (full request) layout scratch work) := by
  unfold toldInside
  rw [Following.sees_followedBy]
  congr 1
  funext _ work
  rw [following.sees_cons rfl, Following.sees_append, Following.sees_followedBy,
    ← detail_followed request following rfl]
  simp only [← toldOfOutcome_followed]
  rfl

theorem told_followed (work : Work) :
    told (followed setting following) (asked request following) work
      = following.sees (told setting (full request) work) := by
  unfold told
  rw [followed_directory, asked_catalog, full_catalog]
  cases Layout.ofPath setting.directory request.catalog with
  | error fault => exact following.sees_nil.symm
  | ok layout =>
      dsimp only
      rw [following.sees_cons rfl]
      split
      · unfold toldInScratch
        rw [followed_scratchPlace]
        cases setting.scratchPlace scratchBeginning work.tree work.scratches with
        | error cause => exact congrArg _ following.sees_nil.symm
        | ok scratch => exact congrArg _ (toldInside_followed setting request following scratch _)
      · rw [following.sees_nil]

/-! ## Two runs -/

section

variable {setting request} {α : Type} {a b : Following} {state state' : RunState}

/-- Two runs that are followed in different ways come to the same answer, do the same and tell
the same full trace. -/
structure Agree (a b : Following) (before before' : RunState)
    (ran ran' : Except Cause α × RunState) : Prop where
  result : ran.1 = ran'.1
  work : ran.2.toWork = ran'.2.toWork
  told : ∃ full, a.Receives before ran.2 full ∧ b.Receives before' ran'.2 full

theorem Agree.andThen {β : Type} {first first' : Run α} {next next' : α → Run β}
    (agree : Agree a b state state' (first state) (first' state'))
    (agreeNext : ∀ value middle middle', middle.toWork = middle'.toWork →
      Agree a b middle middle' (next value middle) (next' value middle')) :
    Agree a b state state' ((first >>= next) state) ((first' >>= next') state') := by
  obtain ⟨result, work, trace, receives, receives'⟩ := agree
  rw [Run.bind_apply, Run.bind_apply]
  cases ran : first state with
  | mk answer middle =>
      cases ran' : first' state' with
      | mk answer' middle' =>
          rw [ran] at result work receives
          rw [ran'] at result work receives'
          dsimp only at result work receives receives'
          subst result
          cases answer with
          | error cause => exact ⟨rfl, work, trace, receives, receives'⟩
          | ok value =>
              obtain ⟨result, work, further, receivesNext, receivesNext'⟩ :=
                agreeNext value middle middle' work
              exact ⟨result, work, trace ++ further, receives.trans receivesNext,
                receives'.trans receivesNext'⟩

theorem agree_answer (same : state.toWork = state'.toWork) (value : α) :
    Agree a b state state' ((pure value : Run α) state) ((pure value : Run α) state') :=
  ⟨rfl, same, [], Following.Receives.refl state, Following.Receives.refl state'⟩

theorem one_agree (same : state.toWork = state'.toWork) :
    Agree a b state state' (one (followed setting a) (asked request a) state)
      (one (followed setting b) (asked request b) state') := by
  obtain ⟨result, work⟩ := does_one (followed setting a) (asked request a) state
  obtain ⟨result', work'⟩ := does_one (followed setting b) (asked request b) state'
  obtain ⟨moments, deliveries⟩ := tells_one (followed setting a) (asked request a) state
  obtain ⟨moments', deliveries'⟩ := tells_one (followed setting b) (asked request b) state'
  rw [deed_followed] at result work result' work'
  rw [told_followed] at moments deliveries moments' deliveries'
  refine ⟨?_, ?_, told setting (full request) state.toWork, ?_, ?_⟩
  · rw [result, result', same]
  · rw [work, work', same]
  · exact Following.receives_of_tells moments deliveries
  · rw [same]
    exact Following.receives_of_tells moments' deliveries'

namespace Sample

def close : Following :=
  ⟨[⟨"broken", fun _ => some "display broke"⟩, ⟨"sound", fun _ => none⟩], true⟩

def nobody : Following := ⟨[], false⟩

def used : RunState :=
  { RunState.start (tree []) with
    deliveries := [("earlier", ⟨place "/w/Assets_old.xcassets", .completed⟩)] }

end Sample

/-- How a batch is reported makes no difference to it.  Runs from the same work answer the same
and leave the same work behind, whoever follows them; and what is told is one trace, which a
close follower sees in full and any other one without the details. -/
theorem reporting_does_not_interfere (setting : Setting) (a b : Following) (target : String)
    (catalogs : List String) {state state' : RunState} (same : state.toWork = state'.toWork) :
    Agree a b state state'
      (all { setting with handlers := a.handlers } target a.verbose catalogs state)
      (all { setting with handlers := b.handlers } target b.verbose catalogs state') := by
  induction catalogs generalizing state state' with
  | nil => exact agree_answer same []
  | cons catalog rest ih =>
      have first : Agree a b state state'
          (one (followed setting a) ⟨catalog, target, a.verbose⟩ state)
          (one (followed setting b) ⟨catalog, target, b.verbose⟩ state') :=
        @one_agree setting ⟨catalog, target, false⟩ a b _ _ same
      refine Agree.andThen first fun compiled middle middle' same => ?_
      refine Agree.andThen (ih same) fun others last last' same => ?_
      exact agree_answer same (compiled :: others)

/-- One run is followed closely by a handler that breaks down at every event and by one behind
it; the other one by nobody, from a state in which something has been told before. -/
theorem reporting_at_sample : (RunState.start (Sample.tree [])).toWork = Sample.used.toWork ∧
    Agree Sample.close Sample.nobody (.start (Sample.tree [])) Sample.used
      (all { Sample.setting Sample.bothOutputs with handlers := Sample.close.handlers } "12.0"
        Sample.close.verbose ["Assets.xcassets"] (.start (Sample.tree [])))
      (all { Sample.setting Sample.bothOutputs with handlers := Sample.nobody.handlers } "12.0"
        Sample.nobody.verbose ["Assets.xcassets"] Sample.used) :=
  ⟨rfl, reporting_does_not_interfere (Sample.setting Sample.bothOutputs) Sample.close
    Sample.nobody "12.0" ["Assets.xcassets"] rfl⟩

end

end Compile

end AssetCatalog
