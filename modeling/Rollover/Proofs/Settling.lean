import Rollover.Proofs.BestEffort
import Rollover.Proofs.Binding
import Rollover.Proofs.Outcome

/-!
# Once up, a group stays up

If a group is in order and calls are answered, setting up ends with the group's alias on one index
of the group, and there are three ways to it (`Scene.SetsUp`).  An alias that is on an index of the
group stays there, and nothing is done.  Another one goes to the latest index, and that is the one
thing that is done.  A group without an index gets its first one by a rotation.

From then on there is nothing left to do (`Engine.IsUp`).  A rotation that succeeds takes the alias
from one index to another, also when calls get lost on the way, and setting up finds an alias that
is on an index of its group.  So whenever the group is set up again, nothing comes of it
(`Scene.setUp_settles`).
-/

namespace Rollover

open Program Environment

variable {group : IndexGroup} {maxSegments : UInt32} {s s' t : Scene}

/-! ## How setting up ends -/

/-- What setting up a group in order comes to. -/
inductive Scene.SetsUp (maxSegments : UInt32) (group : IndexGroup) (s s' : Scene) :
    Outcome SetUp → Prop
  /-- The alias is on an index of the group, and nothing was done. -/
  | alreadyUp (n : UInt64)
      (htargets : s.engine.targetsOf group.aliasName = Std.ExtTreeSet.ofList [group.nameOf n])
      (hindex : s.engine.hasIndex (group.nameOf n) = true) (h : s.Quiet s') :
    SetsUp maxSegments group s s' (.ok .alreadyUp)
  /-- The alias was not on an index of the group, and was moved to the latest one. -/
  | repaired (n : UInt64) (s₂ : Scene)
      (hdown : ∀ m, group.nameOf m ∉ s.engine.targetsOf group.aliasName)
      (hlatest : s.engine.HasNumber group n ∧ ∀ m, s.engine.HasNumber group m → m ≤ n)
      (hindex : s.engine.hasIndex (group.nameOf n) = true) (hquiet : s.Quiet s₂)
      (hmoved : s' = s₂.next (.call (.moveAlias group.aliasName (group.nameOf n)
        (s.engine.targetsOf group.aliasName).min?)) (.ok ()) s'.engine)
      (htargets : s'.engine.targetsOf group.aliasName = Std.ExtTreeSet.ofList [group.nameOf n])
      (hothers : ∀ aliasName, aliasName ≠ group.aliasName →
        s'.engine.aliasState aliasName = s.engine.aliasState aliasName)
      (hindices : s'.engine.indices = s.engine.indices) :
    SetsUp maxSegments group s s' (.ok (.repaired (.ordinary group.fullName n)))
  /-- The group had no index.  An entry was written, and from there on it was a rotation. -/
  | bootstrapped (hempty : ∀ n, ¬ s.engine.HasNumber group n)
      (hrotates : (s.next (.record .creatingFirstIndex) () s.engine).Rotates maxSegments group s'
        none GroupView.firstNumber) :
    SetsUp maxSegments group s s' (.ok (.bootstrapped (.complete group none GroupView.firstNumber)))

/-- A group in order is set up. -/
theorem Engine.Orderly.setsUp (horderly : s.engine.Orderly group)
    (havailable : s.engine.unavailable = false) (hcreates : s.engine.refusesCreates = false)
    (desk : Scene → Job → Except Error Unit) :
    let after := (group.setUp maxSegments).run (Scene.handler desk) s
    s.SetsUp maxSegments group after.1 after.2 := by
  intro after
  have hneat : s.engine.Neat group.aliasName := ⟨horderly.size_le_one, horderly.hasIndex⟩
  have hcanonical : s.engine.Canonical group := horderly.canonical
  have hwrites : ∀ m, s.engine.writeNumber? group = some m ↔
      group.nameOf m ∈ s.engine.targetsOf group.aliasName := fun m =>
    hcanonical.writeNumber?_eq_some_iff hneat
  have hcourse : SetUpCourse s.engine.refusesCreates maxSegments group s after.1 after.2 :=
    (steady_setUp maxSegments fun n => hcanonical.hasNumber_iff.mp).run_steady havailable desk
  generalize after.2 = outcome at hcourse
  cases hcourse with
  | collision hcollision =>
    rw [horderly.noCollision] at hcollision
    cases hcollision
  | refused _ hrefused =>
    rw [hcreates, horderly.unclaimed] at hrefused
    exact absurd hrefused (not_or.mpr ⟨Bool.false_ne_true, Bool.false_ne_true⟩)
  | alreadyUp n htarget hquiet =>
    rw [Engine.viewOf_target horderly.noCollision, hwrites] at htarget
    refine .alreadyUp n (Std.ExtTreeSet.ext_mem fun other => ?_) (hneat.2 _ htarget) hquiet
    rw [mem_ofList_singleton]
    constructor
    · exact fun hother => eq_of_size_le_one hneat.1 hother htarget
    · rintro rfl
      exact htarget
  | repaired n s₂ hdown hlatest hpointed hquiet hmoved =>
    have hlatest' := Engine.viewOf_latest?_eq_some_iff.mp hlatest
    refine .repaired n s₂ (fun m hm => ?_) hlatest' (hcanonical.hasNumber_iff.mp hlatest'.1) hquiet
      hmoved ?_ (fun aliasName hother => ?_) hpointed.indices
    · rw [(hwrites m).mpr hm] at hdown
      cases hdown
    · rw [Engine.targetsOf, hpointed.aliasState, Engine.pointed, Engine.aliasState_insert,
        if_pos rfl]
      exact Engine.movedTargets_of_size_le_one hneat.1 _
    · rw [hpointed.aliasState, Engine.pointed, Engine.aliasState_insert, if_neg hother]
  | bootstrapped hempty hrotated hdeeds =>
    have hnone := Engine.viewOf_latest?_eq_none_iff.mp hempty
    refine .bootstrapped hnone (.of_rotated (fun m => ?_) hneat (Or.inl ⟨rfl, hnone⟩) hrotated ?_)
    · have hfree : group.nameOf m ∉ s.engine.targetsOf group.aliasName := fun hm =>
        hnone m (hcanonical.hasNumber_iff.mpr (hneat.2 _ hm))
      exact iff_of_false (Option.some_ne_none m).symm hfree
    · rw [hdeeds, Scene.deeds_next_of_isDeed rfl, List.append_assoc]
      rfl

/-- After setting up the alias is on one index of the group. -/
theorem Scene.SetsUp.onOne {outcome : Outcome SetUp}
    (h : s.SetsUp maxSegments group s' outcome) : s'.engine.OnOne group := by
  cases h with
  | alreadyUp n htargets hindex hquiet =>
    exact hquiet.same.onOne_iff.mpr ⟨_, n, htargets, hindex, group.numberOf?_nameOf n⟩
  | repaired n s₂ _ _ hindex _ _ htargets _ hindices =>
    refine ⟨_, n, htargets, ?_, group.numberOf?_nameOf n⟩
    rw [Engine.hasIndex, hindices]
    exact hindex
  | bootstrapped hempty hrotates =>
    exact ⟨_, _, hrotates.targetsOf, Engine.hasIndex_iff.mpr ⟨_, hrotates.fresh.2⟩,
      group.numberOf?_nameOf _⟩

/-! ## Staying up -/

/-- The engine is available, the group's alias is on one index of the group, and no index has the
alias's name. -/
structure Engine.IsUp (e : Engine) (group : IndexGroup) : Prop where
  available : e.unavailable = false
  noCollision : e.hasIndex group.aliasName = false
  onOne : e.OnOne group

/-- An operation that tends to a group leaves the engine available and the alias's name free. -/
theorem Program.TendsTo.keeps_open {α : Type} {p : Program α} {result : α} (hp : p.TendsTo group)
    (hleads : Leads disturbed (p, s) (.done result, s')) (havailable : s.engine.unavailable = false)
    (hcollision : s.engine.hasIndex group.aliasName = false) :
    s'.engine.unavailable = false ∧ s'.engine.hasIndex group.aliasName = false := by
  have hupholds := hp.bestEffort.upholds (.record _) disturbed s
  refine hupholds.preserves (P := fun e => e.unavailable = false ∧
    e.hasIndex group.aliasName = false) hleads ?_ ⟨havailable, hcollision⟩
  rintro s₁ effect reply engine hstays happens ⟨havailable₁, hcollision₁⟩
  exact ⟨(disturbed_switches happens).1.trans havailable₁,
    Engine.hasIndex_aliasName_of_gained hcollision₁ fun _ => hstays.gained happens⟩

/-- **A rotation that succeeds leaves a group up**, whichever calls get lost on the way. -/
theorem Engine.IsUp.rotate {rotation : Rotation} (h : s.engine.IsUp group)
    (hleads : Leads disturbed (group.rotate maxSegments, s) (.done (.ok rotation), s')) :
    s'.engine.IsUp group := by
  obtain ⟨havailable, hcollision⟩ :=
    (tendsTo_rotate group maxSegments).keeps_open hleads h.available h.noCollision
  refine ⟨havailable, hcollision, (RotationEnd.of_leads hleads).onOne_iff.mpr ?_⟩
  exact Engine.noOther_of_size_le_one h.onOne.neat.1 _

/-- Setting up leaves a group up. -/
theorem Engine.IsUp.setUp {found : SetUp} (h : s.engine.IsUp group)
    (hleads : Leads disturbed (group.setUp maxSegments, s) (.done (.ok found), s')) :
    s'.engine.IsUp group := by
  obtain ⟨havailable, hcollision⟩ :=
    (tendsTo_setUp group maxSegments).keeps_open hleads h.available h.noCollision
  refine ⟨havailable, hcollision, (SetUpEnd.of_leads hleads).onOne_iff.mpr ?_⟩
  cases found with
  | alreadyUp => exact h.onOne.neat
  | repaired => exact Engine.noOther_of_size_le_one h.onOne.neat.1 _
  | bootstrapped => exact Engine.noOther_of_size_le_one h.onOne.neat.1 _

/-- **Setting up a group that is up finds it so, and does nothing.** -/
theorem Engine.IsUp.answered_setUp (h : s.engine.IsUp group) (maxSegments : UInt32) :
    (group.setUp maxSegments).Upholds answered (fun _ _ => True) (fun outcome s' =>
      outcome = .ok .alreadyUp ∧ s.Quiet s') s := by
  obtain ⟨name, n, htargets, hindex, hnumber⟩ := h.onOne
  have hfirst : (s.engine.targetsOf group.aliasName).min? = some name := by
    rw [min?_eq_some_iff h.onOne.neat.1, htargets, mem_ofList_singleton]
  have htarget : (s.engine.viewOf group).target = some n := by
    rw [Engine.viewOf_target h.noCollision, Engine.writeNumber?_eq_some_iff]
    exact ⟨name, hfirst, hnumber, name, hindex, hnumber⟩
  have hcollision : (s.engine.viewOf group).collision = false := by
    rw [Engine.viewOf_collision, h.noCollision]
  have hup : (s.engine.viewOf group).isUp = true := by
    rw [GroupView.isUp, htarget, Option.isSome_some]
  unfold IndexGroup.setUp IndexGroup.withView GroupView.setUp
  refine upholds_bind.mpr ((answered_view group s).imp fun result s₁ h₁ => ?_)
  obtain ⟨hquiet, rfl⟩ := h₁
  simp only [hcollision, hup, if_true]
  exact ⟨rfl, hquiet⟩

/-- The group was rotated with success or set up with success, any number of times. -/
inductive Scene.GoesOn (maxSegments : UInt32) (group : IndexGroup) (s : Scene) : Scene → Prop
  | refl : GoesOn maxSegments group s s
  | rotate {t u : Scene} {rotation : Rotation} (h : GoesOn maxSegments group s t)
      (hleads : Leads disturbed (group.rotate maxSegments, t) (.done (.ok rotation), u)) :
    GoesOn maxSegments group s u
  | setUp {t u : Scene} {found : SetUp} (h : GoesOn maxSegments group s t)
      (hleads : Leads disturbed (group.setUp maxSegments, t) (.done (.ok found), u)) :
    GoesOn maxSegments group s u

theorem Scene.GoesOn.isUp (h : s.GoesOn maxSegments group t) (hs : s.engine.IsUp group) :
    t.engine.IsUp group := by
  induction h with
  | refl => exact hs
  | rotate _ hleads ih => exact ih.rotate hleads
  | setUp _ hleads ih => exact ih.setUp hleads

/-- A group in order is up after it was set up. -/
theorem Scene.SetsUp.isUp (horderly : s.engine.Orderly group)
    (havailable : s.engine.unavailable = false) (desk : Scene → Job → Except Error Unit) :
    let after := (group.setUp maxSegments).run (Scene.handler desk) s
    s.SetsUp maxSegments group after.1 after.2 → after.1.engine.IsUp group := by
  intro after hsetsUp
  have hleads := leads_run_disturbed (group.setUp maxSegments) s desk
  obtain ⟨havailable', hcollision⟩ := (tendsTo_setUp group maxSegments).keeps_open hleads havailable
    horderly.noCollision
  exact ⟨havailable', hcollision, hsetsUp.onOne⟩

/-- **Setting up ends with the alias on one index, and from then on there is nothing to set up.**
In a group that is in order, on an engine that answers and creates indices, setting up succeeds: it
does nothing, or moves the alias, or makes the first index.  After that, and after any number of
successful rotations, it finds the group up, and nothing comes of it. -/
theorem Scene.setUp_settles (horderly : s.engine.Orderly group)
    (havailable : s.engine.unavailable = false) (hcreates : s.engine.refusesCreates = false)
    (desk : Scene → Job → Except Error Unit) :
    let after := (group.setUp maxSegments).run (Scene.handler desk) s
    s.SetsUp maxSegments group after.1 after.2 ∧ after.1.engine.OnOne group ∧
      ∀ t, after.1.GoesOn maxSegments group t → ∀ desk',
        let again := (group.setUp maxSegments).run (Scene.handler desk') t
        again.2 = .ok .alreadyUp ∧ t.Quiet again.1 := by
  intro after
  have hsetsUp : s.SetsUp maxSegments group after.1 after.2 :=
    horderly.setsUp havailable hcreates desk
  have hup := hsetsUp.isUp horderly havailable desk
  refine ⟨hsetsUp, hup.onOne, fun t hgoes desk' => ?_⟩
  have ht : t.engine.IsUp group := hgoes.isUp hup
  exact (ht.answered_setUp maxSegments).run_answered ht.available desk'

/-- A group in use is up. -/
theorem Engine.isUp_serving (group : IndexGroup) (n : UInt64) : (serving group n).IsUp group := by
  refine ⟨rfl, hasIndex_aliasName_serving group n, group.nameOf n, n,
    Std.ExtTreeSet.ext_mem fun other => ?_, (hasIndex_serving ..).mpr rfl, group.numberOf?_nameOf n⟩
  rw [targetsOf_serving, mem_ofList_singleton]
  exact and_iff_right rfl

/-- A group in use is found up, and is found up again after a rotation. -/
theorem Scene.setUp_settles_serving :
    let group : IndexGroup := ⟨"graylog", "internal"⟩
    let s : Scene := { engine := Engine.serving group 3 }
    let desk : Scene → Job → Except Error Unit := fun _ _ => .ok ()
    let after := (group.setUp 1).run (Scene.handler desk) s
    let rotated := (group.rotate 1).run (Scene.handler desk) after.1
    (∃ rotation, rotated.2 = .ok rotation) ∧
      ((group.setUp 1).run (Scene.handler desk) rotated.1).2 = .ok .alreadyUp := by
  intro group s desk after rotated
  have horderly : s.engine.Orderly group := Engine.orderly_serving group 3
  obtain ⟨-, -, hagain⟩ := @Scene.setUp_settles group 1 s horderly rfl rfl desk
  have hready : s.engine.Ready group := horderly.ready fun n hn => by
    obtain rfl := Engine.hasNumber_serving.mp hn
    decide
  -- the rotation after setting up takes place, since its engine has what the first one had
  have hboth : (group.setUp 1 >>= fun _ => group.rotate 1).Upholds faultless (fun _ _ => True)
      (fun outcome _ => ∃ rotation, outcome = .ok rotation) s := by
    refine upholds_bind.mpr ((((Engine.isUp_serving group 3).answered_setUp 1).restrict
      fun _ _ _ _ => answered_of_faultless).imp fun _ s₁ h₁ => ?_)
    refine (faultless_rotate 1 (hready.of_same h₁.2.same)).imp fun outcome _ h₂ => ?_
    rcases h₂ with ⟨rotation, houtcome, -⟩ | ⟨-, m, -, hfull⟩
    · exact ⟨rotation, houtcome⟩
    · rw [Engine.Full, h₁.2.same.indices] at hfull
      exact absurd hfull (Engine.not_full_serving group 3 _)
  have hrotated : ∃ rotation, rotated.2 = .ok rotation := by
    have hrun := hboth.run rfl rfl desk
    rw [run_bind] at hrun
    exact hrun
  obtain ⟨rotation, hrotation⟩ := hrotated
  have hleads := leads_run_disturbed (group.rotate 1) after.1 desk
  rw [show (group.rotate 1).run (Scene.handler desk) after.1 = rotated from rfl,
    hrotation] at hleads
  exact ⟨⟨rotation, hrotation⟩, (hagain rotated.1 (.rotate .refl hleads) desk).1⟩

end Rollover
