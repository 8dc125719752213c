import Rollover.Proofs.Flushing
import Rollover.Proofs.Outcome

/-!
# What overflows

Two numbers are counted up: the number of a group's next index, and the number of times an index was
flushed.  Either count comes to an end, and where it does the operation under way is cut off there.
This file says where that can happen on an engine none of whose flush counters is full, whatever
faults it is behind.

1. A rotation flushes once at most, and until then no counter goes up
   (`upholds_group_rotate_affordable`).  So the one way in which it can overflow is by its numbers,
   and it comes to that before it asks the engine for anything but a view (`rotate_overflows_iff`).
2. The other operations do not flush (`Handler.Within.endures`).
3. What is done to texts and tables has a result always (`Registry.total`).

`Handler.Within.overflow_spec` puts the three together.  After an overflow the engine is as it was,
so everything else works as before.
-/

namespace Rollover

open Program

variable {α : Type} {view : GroupView} {s : Scene} {env : Environment}

/-! ## Rotating -/

/-- The end of a rotation, when no counter is full. -/
theorem upholds_sealIndex_affordable (hfull : ∀ name, ¬ s.engine.Full name) (maxSegments : UInt32)
    (name : String) :
    (GroupView.sealIndex maxSegments name).Upholds Environment.faulty Affordable
      (fun outcome _ => outcome ≠ .error .overflow) s := by
  refine upholds_ask.mpr ⟨fun other _ => hfull other, fun reply engine hreply => ?_⟩
  rcases reply with cause | ⟨_ | _⟩
  · exact nofun
  · refine upholds_ask.mpr ⟨Unflushing.affordable rfl, fun reply _ _ => ?_⟩
    cases reply with
    | error cause => exact nofun
    | ok => exact upholds_submit.mpr ⟨Unflushing.affordable rfl, fun _ _ _ => nofun⟩
  · exact absurd rfl (Environment.faulty_flush hreply (hfull name))

theorem upholds_retire_affordable (hfull : ∀ name, ¬ s.engine.Full name) (view : GroupView)
    (maxSegments : UInt32) (previous : Option UInt64) (next : UInt64) :
    (view.retire maxSegments previous next).Upholds Environment.faulty Affordable
      (fun outcome _ => outcome ≠ .error .overflow) s := by
  unfold GroupView.retire
  cases previous with
  | none => exact upholds_record.mpr ⟨Unflushing.affordable rfl, fun _ _ _ => nofun⟩
  | some number =>
    refine upholds_bind.mpr ((upholds_sealIndex_affordable hfull maxSegments _).imp
      fun outcome s₁ h => ?_)
    cases outcome with
    | error halt => exact fun hover => h (congrArg Except.error (Except.error.inj hover))
    | ok frozen => exact upholds_record.mpr ⟨Unflushing.affordable rfl, fun _ _ _ => nofun⟩

theorem upholds_rotate_affordable (hfull : ∀ name, ¬ s.engine.Full name)
    (hroom : view.collision = false → view.next? ≠ none) (maxSegments : UInt32) :
    (view.rotate maxSegments).Upholds Environment.faulty Affordable
      (fun result _ => result.2 ≠ .error .overflow) s :=
  upholds_rotate_of_room (P := fun e => ∀ name, ¬ e.Full name) maxSegments hroom
    (fun _ _ _ _ hflush hreply hfull => Environment.faulty_not_full hflush hreply hfull)
    (fun _ _ => Unflushing.affordable)
    (fun moved _ next _ hfull => upholds_retire_affordable hfull moved maxSegments _ next) hfull

/-- While a view is taken no counter goes up. -/
theorem upholds_view_not_full (hfull : ∀ name, ¬ s.engine.Full name) (group : IndexGroup) :
    group.view.Upholds Environment.faulty Affordable
      (fun _ s' => ∀ name, ¬ s'.engine.Full name) s := by
  have hview := (upholds_view_unflushing group Environment.faulty s).keeps
    (P := fun e => ∀ name, ¬ e.Full name)
    (fun _ _ _ _ hflush hreply hfull => Environment.faulty_not_full hflush hreply hfull) hfull
  exact (hview.permit fun _ _ => Unflushing.affordable).imp fun _ _ h => h.2

/-- Every flush of a rotation can be afforded. -/
theorem upholds_group_rotate_affordable (hfull : ∀ name, ¬ s.engine.Full name) (group : IndexGroup)
    (maxSegments : UInt32) :
    (group.rotate maxSegments).Upholds Environment.faulty Affordable (fun _ _ => True) s := by
  refine upholds_bind.mpr ((upholds_view_not_full hfull group).imp fun result s₁ hfull₁ => ?_)
  cases result with
  | error cause => trivial
  | ok view =>
    have hrotate : (view.rotate maxSegments).Upholds Environment.faulty Affordable
        (fun _ _ => True) s₁ := by
      by_cases hend : view.collision = false ∧ view.next? = none
      · rw [view.rotate_of_exhausted maxSegments hend.1 hend.2]
        trivial
      · exact (upholds_rotate_affordable hfull₁ (fun hcollision hnext => hend ⟨hcollision, hnext⟩)
          maxSegments).imp fun _ _ _ => trivial
    exact upholds_bind.mpr (hrotate.imp fun _ _ _ => trivial)

/-- There is no next number exactly if the highest number is the last one. -/
theorem GroupView.next?_eq_none_iff :
    view.next? = none ↔ ∃ n, view.latest? = some n ∧ n.toNat + 1 = UInt64.size := by
  rw [GroupView.next?_eq]
  cases view.latest? with
  | none => exact ⟨nofun, fun ⟨_, h, _⟩ => nomatch h⟩
  | some n =>
    have hbound : n.toNat < UInt64.size := n.toNat_lt
    simp only [Word.add?_eq, Word.ofNat?_eq_none_iff, Option.some_inj, exists_eq_left']
    show UInt64.size ≤ n.toNat + 1 ↔ _
    omega

/-- An operation on a fresh view goes on from where the view was taken. -/
theorem IndexGroup.run_withView (handler : Handler Scene) (group : IndexGroup)
    (operation : GroupView → Program (GroupView × Outcome α)) (s : Scene) :
    (group.withView operation).run handler s =
      match group.view.run handler s with
      | (s', .error cause) => (s', .error (.failed cause))
      | (s', .ok view) =>
        (((operation view).run handler s').1, ((operation view).run handler s').2.2) := by
  rw [IndexGroup.withView, run_bind]
  rcases group.view.run handler s with ⟨s', cause | view⟩
  · rfl
  · exact run_bind handler (operation view) _ s'

/-- What is to be said of a rotation and its overflow, with the view that it saw. -/
structure RotationOverflow (maxSegments : UInt32) (group : IndexGroup) (s : Scene)
    (seen : Except Error GroupView) (after : Scene × Outcome Rotation) : Prop where
  /-- It overflows exactly if there was a view, in which no index had the name of the alias and the
  highest number was the last one. -/
  overflow_iff : after.2 = .error .overflow ↔ ∃ view n, seen = .ok view ∧
    view.collision = false ∧ view.latest? = some n ∧ n.toNat + 1 = UInt64.size
  /-- It was not cut off by the engine. -/
  intact : s.Intact after.1
  /-- If it overflows, nothing has happened but that the engine was asked. -/
  consulted : after.2 = .error .overflow → s.Consulted after.1
  /-- Indices of the group can be removed as before. -/
  removeSegment : after.2 = .error .overflow →
    ∀ name, (group.removeSegment name).WorksAlike s after.1
  /-- The group can be set up as before. -/
  setUp : after.2 = .error .overflow → (group.setUp maxSegments).WorksAlike s after.1

section Runs

variable {handler : Handler Scene}

/-- A rotation overflows where its view shows the end of the numbers, and there it stops. -/
theorem rotate_overflows_iff (hhandler : handler.Within Environment.faulty)
    (hfull : ∀ name, ¬ s.engine.Full name) (group : IndexGroup) (maxSegments : UInt32) :
    let seen := group.view.run handler s
    let after := (group.rotate maxSegments).run handler s
    (after.2 = .error .overflow ↔
        ∃ view, seen.2 = .ok view ∧ view.collision = false ∧ view.next? = none) ∧
      (after.2 = .error .overflow → after.1 = seen.1) := by
  intro seen after
  have hfull₁ : ∀ name, ¬ seen.1.engine.Full name :=
    (upholds_view_not_full hfull group).run_within hhandler
  have hafter : after = _ := group.run_withView handler (fun view => view.rotate maxSegments) s
  rw [show group.view.run handler s = seen from rfl] at hafter
  rw [hafter]
  obtain ⟨s₁, cause | view⟩ := seen
  · exact ⟨⟨nofun, fun ⟨_, h, _⟩ => nomatch h⟩, nofun⟩
  dsimp only
  by_cases hend : view.collision = false ∧ view.next? = none
  · rw [view.rotate_of_exhausted maxSegments hend.1 hend.2]
    exact ⟨⟨fun _ => ⟨view, rfl, hend⟩, fun _ => rfl⟩, fun _ => rfl⟩
  · have hroom : view.collision = false → view.next? ≠ none :=
      fun hcollision hnext => hend ⟨hcollision, hnext⟩
    have hrotate := (upholds_rotate_affordable hfull₁ hroom maxSegments).run_within hhandler
    refine ⟨⟨fun h => absurd h hrotate, ?_⟩, fun h => absurd h hrotate⟩
    rintro ⟨other, hother, hcollision, hnext⟩
    obtain rfl := Except.ok.inj hother
    exact absurd ⟨hcollision, hnext⟩ hend

theorem rotationOverflow (hhandler : handler.Within Environment.faulty)
    (hfull : ∀ name, ¬ s.engine.Full name) (group : IndexGroup) (maxSegments : UInt32) :
    RotationOverflow maxSegments group s (group.view.run handler s).2
      ((group.rotate maxSegments).run handler s) := by
  obtain ⟨hiff, hstops⟩ := rotate_overflows_iff hhandler hfull group maxSegments
  have hseen : s.Consulted (group.view.run handler s).1 :=
    ((upholds_view_read group Environment.faulty s).consulted.run_within hhandler).2
  have hconsulted : ((group.rotate maxSegments).run handler s).2 = .error .overflow →
      s.Consulted ((group.rotate maxSegments).run handler s).1 := fun hover =>
    (hstops hover).symm ▸ hseen
  constructor
  · rw [hiff]
    simp only [GroupView.next?_eq_none_iff]
    constructor
    · rintro ⟨view, hview, hcollision, n, hlatest, hn⟩
      exact ⟨view, n, hview, hcollision, hlatest, hn⟩
    · rintro ⟨view, n, hview, hcollision, hlatest, hn⟩
      exact ⟨view, hview, hcollision, n, hlatest, hn⟩
  · exact ((upholds_group_rotate_affordable hfull group maxSegments).intact_of_affordable.run_within
      hhandler).2
  · exact hconsulted
  · exact fun hover name => worksAlike_of_consulted _ (hconsulted hover)
  · exact fun hover => worksAlike_of_consulted _ (hconsulted hover)

/-- On an engine that is only disturbed, the view shows what the engine holds. -/
theorem rotate_overflows_iff_of_disturbed (hhandler : handler.Within Environment.disturbed)
    (hfull : ∀ name, ¬ s.engine.Full name) (group : IndexGroup) (maxSegments : UInt32) :
    ((group.rotate maxSegments).run handler s).2 = .error .overflow ↔
      (∃ view, (group.view.run handler s).2 = .ok view) ∧
        s.engine.hasIndex group.aliasName = false ∧
        ∃ n, s.engine.HasNumber group n ∧ (∀ m, s.engine.HasNumber group m → m ≤ n) ∧
          n.toNat + 1 = UInt64.size := by
  have hoverflow := rotationOverflow (hhandler.mono Environment.faulty_of_disturbed) hfull group
    maxSegments
  have hseen : ∀ view, (group.view.run handler s).2 = .ok view →
      view = s.engine.viewOf group := by
    intro view hview
    rcases ((upholds_disturbed_view group s).run_within hhandler).2 with hok | ⟨cause, hfailed⟩
    · exact Except.ok.inj (hview.symm.trans hok)
    · cases hview.symm.trans hfailed
  rw [hoverflow.overflow_iff]
  constructor
  · rintro ⟨view, n, hview, hcollision, hlatest, hn⟩
    obtain rfl := hseen view hview
    rw [Engine.viewOf_collision] at hcollision
    obtain ⟨hnumber, hhighest⟩ := Engine.viewOf_latest?_eq_some_iff.mp hlatest
    exact ⟨⟨_, hview⟩, hcollision, n, hnumber, hhighest, hn⟩
  · rintro ⟨⟨view, hview⟩, hcollision, n, hnumber, hhighest, hn⟩
    obtain rfl := hseen view hview
    exact ⟨_, n, hview, (Engine.viewOf_collision ..).trans hcollision,
      Engine.viewOf_latest?_eq_some_iff.mpr ⟨hnumber, hhighest⟩, hn⟩

/-- The other operations come to a value or an error of their own, and the engine cuts none of them
off. -/
structure Handler.Endures (handler : Handler Scene) (maxSegments : UInt32) (s : Scene) : Prop where
  setUp : ∀ group : IndexGroup,
    ((group.setUp maxSegments).run handler s).2 ≠ .error .overflow ∧
      s.Intact ((group.setUp maxSegments).run handler s).1
  /-- Each of several groups has its turn. -/
  setUpEach : ∀ groups : List IndexGroup,
    ((setUpEach maxSegments groups).run handler s).2.map Prod.fst = groups ∧
      (∀ entry ∈ ((setUpEach maxSegments groups).run handler s).2,
        entry.2 ≠ .error .overflow) ∧
      s.Intact ((setUpEach maxSegments groups).run handler s).1
  removeSegment : ∀ (group : IndexGroup) (name : String),
    s.Intact ((group.removeSegment name).run handler s).1
  segmentNames : ∀ group : IndexGroup, s.Intact (group.segmentNames.run handler s).1
  currentTarget : ∀ group : IndexGroup, s.Intact (group.currentTarget.run handler s).1

theorem Handler.Within.endures (hhandler : handler.Within env) (maxSegments : UInt32) (s : Scene) :
    handler.Endures maxSegments s where
  setUp group :=
    (upholds_setUp_unflushing group maxSegments env s).intact_of_unflushing.run_within hhandler
  setUpEach groups := by
    obtain ⟨⟨hgroups, houtcomes⟩, hintact⟩ := (upholds_setUpEach_unflushing groups maxSegments env
      s).intact_of_unflushing.run_within hhandler
    exact ⟨hgroups, houtcomes, hintact⟩
  removeSegment group name := ((upholds_removeSegment_unflushing group name env
    s).intact_of_unflushing.run_within hhandler).2
  segmentNames group :=
    ((upholds_segmentNames_unflushing group env s).intact_of_unflushing.run_within hhandler).2
  currentTarget group :=
    ((upholds_currentTarget_unflushing group env s).intact_of_unflushing.run_within hhandler).2

/-- What is done to the tables of a registry has a result, lookups and cuts included. -/
structure Registry.Total (registry : Registry) : Prop where
  publish : ∀ groups, ∃ pairs, registry.publish? groups = some (registry.publish groups, pairs) ∧
    pairs.map Prod.snd = (GroupTable.distinct groups.toList).2
  reconcile : ∀ loaded, registry.reconcile? loaded = some (registry.reconcile loaded)
  route : ∀ messages, registry.route? messages = some (registry.route messages)

theorem Registry.total (registry : Registry) : registry.Total where
  publish groups := (registry.publish?_eq groups).imp fun _ h => ⟨h.1, h.2.1⟩
  reconcile := registry.reconcile?_eq
  route := registry.route?_eq

/-- **Nothing overflows but the numbers of indices, and then nothing has happened.** -/
theorem Handler.Within.overflow_spec (hhandler : handler.Within Environment.faulty) (s : Scene)
    (hfull : ∀ name, ¬ s.engine.Full name) (maxSegments : UInt32) :
    handler.Endures maxSegments s ∧
    (∀ group : IndexGroup, RotationOverflow maxSegments group s (group.view.run handler s).2
      ((group.rotate maxSegments).run handler s)) ∧
    (handler.Within Environment.disturbed → ∀ group : IndexGroup,
      (((group.rotate maxSegments).run handler s).2 = .error .overflow ↔
        (∃ view, (group.view.run handler s).2 = .ok view) ∧
          s.engine.hasIndex group.aliasName = false ∧
          ∃ n, s.engine.HasNumber group n ∧ (∀ m, s.engine.HasNumber group m → m ≤ n) ∧
            n.toNat + 1 = UInt64.size)) ∧
    (∀ registry : Registry, registry.Total) ∧
    (∀ stream, streamKey? stream = some (streamKey stream)) ∧
    (∀ name, Segment.number64? name = Segment.number? name) ∧
    ∀ (group : IndexGroup) (name : String), group.parse64 name = group.parse name :=
  ⟨hhandler.endures maxSegments s, fun group => rotationOverflow hhandler hfull group maxSegments,
    fun hdisturbed group => rotate_overflows_iff_of_disturbed hdisturbed hfull group maxSegments,
    Registry.total, streamKey?_eq, Segment.number64?_eq, IndexGroup.parse64_eq⟩

end Runs

/-- A rotation of a group that has come to its last number overflows, and removing the index with
that number works after it as it did before.  So it is on an engine that answers every call, and so
it is behind a fault which says that there is no alias. -/
theorem Handler.Within.overflow_spec_of_last_number :
    let group : IndexGroup := ⟨"graylog", "internal"⟩
    let s : Scene := { engine := Engine.serving group 18446744073709551615 }
    let desk : Scene → Job → Except Error Unit := fun _ _ => .ok ()
    let calm := Scene.handler desk
    let denying := Scene.handlerBehind
      (fun _ request => if request.kind = .aliasExists then some .no else none) desk
    let after := (group.rotate 1).run denying s
    calm.Within Environment.disturbed ∧ ((group.rotate 1).run calm s).2 = .error .overflow ∧
      denying.Within Environment.faulty ∧ (∀ name, ¬ s.engine.Full name) ∧
      (∃ view, (group.view.run denying s).2 = .ok view ∧ view.target = none) ∧
      after.2 = .error .overflow ∧ s.Consulted after.1 ∧
      (group.removeSegment "graylog_internal_18446744073709551615").WorksAlike s after.1 := by
  intro group s desk calm denying after
  have hfull := Engine.not_full_serving group 18446744073709551615
  have hnumber : ∀ {n}, s.engine.HasNumber group n ↔ n = 18446744073709551615 :=
    Engine.hasNumber_serving
  have hcollision : s.engine.hasIndex group.aliasName = false :=
    Engine.hasIndex_aliasName_serving group _
  have hhighest : ∀ n, s.engine.HasNumber group n → n ≤ 18446744073709551615 := fun n hn =>
    UInt64.le_of_eq (hnumber.mp hn)
  -- every call is answered
  have hdisturbed : calm.Within Environment.disturbed :=
    Handler.Within.mono (Scene.handle_handler _) Environment.disturbed_of_calm
  obtain ⟨-, -, hiff, -⟩ := Handler.Within.overflow_spec
    (hdisturbed.mono Environment.faulty_of_disturbed) s hfull 1
  have hview := (answered_view group s).run_answered rfl desk
  have hover : ((group.rotate 1).run calm s).2 = .error .overflow :=
    (hiff hdisturbed group).mpr ⟨⟨_, hview.2⟩, hcollision, _, hnumber.mpr rfl, hhighest, by decide⟩
  -- the alias is denied
  have hdenying : denying.Within Environment.faulty := Scene.handlerBehind_within _ desk
  obtain ⟨-, hrotation, -⟩ := Handler.Within.overflow_spec hdenying s hfull 1
  let view := GroupView.ofListing group s.engine.listing
  have hsame : (s.engine.viewOf group).latest? = view.latest? ∧
      (s.engine.viewOf group).collision = view.collision := by
    unfold Engine.viewOf
    dsimp only
    split <;> exact ⟨rfl, rfl⟩
  rw [Engine.viewOf_latest?_eq_some_iff.mpr ⟨hnumber.mpr rfl, hhighest⟩,
    Engine.viewOf_collision, hcollision] at hsame
  have hseen : (group.view.run denying s).2 = .ok view := eq_ok_of_toOption (by decide +kernel)
  have hover' : after.2 = .error .overflow :=
    (hrotation group).overflow_iff.mpr ⟨view, _, hseen, hsame.2.symm, hsame.1.symm, by decide⟩
  exact ⟨hdisturbed, hover, hdenying, hfull, ⟨view, hseen, rfl⟩, hover',
    (hrotation group).consulted hover', (hrotation group).removeSegment hover' _⟩

end Rollover
