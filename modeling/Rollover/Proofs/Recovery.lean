import Rollover.Proofs.Conduct
import Rollover.Proofs.Faultless

/-!
# Failure and recovery

A rotation can fail at any of its calls.  Whichever it is, nothing that matters has changed: the
aliases and their histories are as they were, the old indices are as they were, at most the next
index of the group exists by now, and the activity log reports no rotation (`Scene.Untouched`).  That
index does exist if the call to move the alias is the one that gets lost (`immovable_rotate`).

The next attempt starts from there.  If the group is in order (`Engine.Orderly`) and calls are
answered again, it succeeds.  A group whose alias was on an index of it is found to be up, and its
next rotation comes from that index; otherwise setting up points the alias at the latest index,
which may well be the one that the failed rotation left behind (`Engine.Orderly.setUp_bound`,
`Engine.Orderly.setUp_unbound`, `Engine.Orderly.rotate`).
-/

namespace Rollover

open Program Environment

variable {group : IndexGroup} {maxSegments : UInt32}

/-! ## Failure -/

/-- Setting up or rotating a group fails. -/
inductive Scene.Fails (maxSegments : UInt32) (group : IndexGroup) (s s' : Scene) : Prop
  /-- A rotation fails. -/
  | rotate (cause : Error) (h : Leads disturbed
      (group.rotate maxSegments, s) (.done (.error (.failed cause)), s'))
  /-- Setting up fails. -/
  | setUp (cause : Error) (h : Leads disturbed
      (group.setUp maxSegments, s) (.done (.error (.failed cause)), s'))

/-- Nothing that matters has changed. -/
structure Scene.Untouched (group : IndexGroup) (s s' : Scene) : Prop where
  /-- The aliases have the same targets and the same histories. -/
  aliasState : ∀ aliasName, s'.engine.aliasState aliasName = s.engine.aliasState aliasName
  /-- The indices that there were are as they were. -/
  index : ∀ name, s.engine.hasIndex name = true →
    s'.engine.indices[name]? = s.engine.indices[name]?
  /-- There is no index more, or the next index of the group. -/
  gained : (∀ name, s'.engine.hasIndex name = s.engine.hasIndex name) ∨
    ∃ n, (s.engine.viewOf group).next? = some n ∧ ∀ name,
      s'.engine.hasIndex name = true ↔ name = group.nameOf n ∨ s.engine.hasIndex name = true
  /-- No rotation was recorded. -/
  log : s'.rotations = s.rotations

theorem Scene.Fails.unchanged {s s' : Scene} (h : s.Fails maxSegments group s') :
    s.Unchanged group s' := by
  cases h with
  | rotate cause h =>
    have hend := RotationEnd.of_leads h
    cases hend with
    | failed _ hunchanged => exact hunchanged
  | setUp cause h =>
    have hend := SetUpEnd.of_leads h
    cases hend with
    | failed _ hunchanged => exact hunchanged

theorem Scene.Unchanged.untouched {s s' : Scene} (h : s.Unchanged group s') :
    s.Untouched group s' := by
  refine ⟨Engine.aliasState_congr h.aliases, ?_, ?_, h.rotations⟩
  · intro name hindex
    rcases h.indices with heq | ⟨n, -, hfree, heq⟩
    · rw [heq]
    · rw [heq, Std.ExtTreeMap.getElem?_insert, if_neg]
      rw [Std.LawfulEqOrd.compare_eq_iff_eq]
      rintro rfl
      rw [hfree] at hindex
      cases hindex
  · rcases h.indices with heq | ⟨n, hnext, -, heq⟩
    · refine Or.inl fun name => ?_
      rw [Engine.hasIndex, heq, ← Engine.hasIndex]
    · refine Or.inr ⟨n, hnext, fun name => ?_⟩
      rw [Engine.hasIndex, heq]
      exact Engine.hasIndex_insert

/-! ## A rotation that is half done -/

/-- Nothing comes in the way, except that no alias can be moved. -/
def Environment.immovable (cause : EngineError) : Environment
  | e, .call (.moveAlias _ _ _), reply, e' => reply = .error cause ∧ e' = e
  | e, effect, reply, e' => faultless e effect reply e'

namespace Environment

variable {cause : EngineError} {e e' : Engine}

theorem disturbed_of_immovable {effect : Effect} {reply : effect.Reply}
    (h : immovable cause e effect reply e') : disturbed e effect reply e' := by
  cases effect with
  | call request =>
    cases request with
    | moveAlias =>
      obtain ⟨rfl, rfl⟩ := h
      exact Or.inr ⟨.failed _ cause, rfl⟩
    | _ => exact disturbed_of_faultless h
  | submit | record => exact disturbed_of_faultless h

theorem immovable_read {request : EngineCall} {reply : request.Reply}
    (hread : request.isMutation = false) (h : immovable cause e (.call request) reply e') :
    e.Same e' ∧ reply = (e.respond request).2 := by
  cases request with
  | moveAlias => cases hread
  | _ => exact answered_read hread (answered_of_faultless h)

/-- There is always a way to go on. -/
theorem exists_immovable (cause : EngineError) (e : Engine) (effect : Effect)
    (h : e.unavailable = false ∧ e.refusesCreates = false) :
    ∃ reply e', immovable cause e effect reply e' ∧
      e'.unavailable = false ∧ e'.refusesCreates = false := by
  cases effect with
  | call request =>
    have hcalm : calm e (.call request) (e.perform request).2 (e.perform request).1 := rfl
    obtain ⟨havailable, hcreates⟩ := calm_switches hcalm
    cases request with
    | moveAlias => exact ⟨_, _, ⟨rfl, rfl⟩, h⟩
    | _ => exact ⟨_, _, ⟨hcalm, h⟩, havailable.trans h.1, hcreates.trans h.2⟩
  | submit => exact ⟨.ok (), e, ⟨rfl, h⟩, h⟩
  | record => exact ⟨(), e, ⟨rfl, h⟩, h⟩

end Environment

/-- **A rotation that cannot move the alias fails**, and the next index is left behind. -/
theorem immovable_rotate {s : Scene} (message : String) (hready : s.engine.Ready group) :
    (group.rotate maxSegments).Upholds (immovable (.unreachable message)) (fun _ _ => True)
      (fun outcome s' =>
        outcome = .error (.failed (.engineUnavailable (.unreachable message))) ∧
          ∃ n, (s.engine.viewOf group).next? = some n ∧
            (s.engine.grown group n).Same s'.engine) s := by
  obtain ⟨n, hnext, hfree⟩ := hready.next?
  have hview : group.view.Upholds (immovable (.unreachable message)) (fun _ _ => True)
      (fun result s' => s.Quiet s' ∧ (result = .ok (s.engine.viewOf group) ∨
        (False ∧ ∃ cause, result = .error (.engineUnavailable cause)))) s :=
    upholds_view (fun _ _ _ _ hread h => (immovable_read hread h).imp_right Or.inl)
      (fun _ _ _ => trivial) group s
  have hcollision : (s.engine.viewOf group).collision = false := by
    rw [Engine.viewOf_collision, hready.noCollision]
  unfold IndexGroup.rotate IndexGroup.withView
  refine upholds_bind.mpr (hview.imp fun result s₁ h₁ => ?_)
  obtain ⟨hquiet₁, rfl | ⟨⟨⟩, -⟩⟩ := h₁
  have hgroup := s.engine.viewOf_group group
  generalize s.engine.viewOf group = view at *
  subst hgroup
  refine upholds_bind.mpr ?_
  unfold GroupView.rotate
  simp only [hcollision, hnext]
  refine upholds_ask.mpr ⟨trivial, fun reply e₂ h₂ => ?_⟩
  obtain ⟨hsame₂, rfl⟩ := immovable_read rfl h₂
  have hsame : s.engine.Same e₂ := hquiet₁.same.trans hsame₂
  have hsteady : ∀ reply e', immovable (.unreachable message) e₂
      (.call (.createIndex (view.group.nameOf n))) reply e' →
        steady false e₂ (.call (.createIndex (view.group.nameOf n))) reply e' := fun _ _ h => h
  refine upholds_bind.mpr ((upholds_create_of_steady rfl ((hsame.hasIndex _).trans hfree)
    hsteady).imp fun result s₃ h₃ => ?_)
  rcases h₃ with ⟨-, -, hrefused⟩ | ⟨rfl, -, hgrown, -⟩
  · rw [Scene.engine_next, hsame.aliases] at hrefused
    exact absurd hrefused hready.not_refused
  refine upholds_bind.mpr (((disturbed_offerRebuild rfl s₃).restrict fun _ _ _ _ =>
    disturbed_of_immovable).imp fun _ s₄ h₄ => ?_)
  -- the alias stays where it is
  unfold GroupView.pointTo
  refine upholds_ask.mpr ⟨trivial, fun reply e₅ h₅ => ?_⟩
  obtain ⟨rfl, rfl⟩ := h₅
  refine ⟨rfl, n, rfl, ?_⟩
  rw [Scene.engine_next, h₄.1]
  exact (hsame.grown view.group n).trans hgrown

/-- So on every ready engine there is a rotation that fails with its work half done. -/
theorem Engine.Ready.exists_leads_rotate {s : Scene} (hready : s.engine.Ready group)
    (havailable : s.engine.unavailable = false) (hcreates : s.engine.refusesCreates = false)
    (maxSegments : UInt32) (message : String) :
    ∃ s' n, Leads disturbed (group.rotate maxSegments, s)
        (.done (.error (.failed (.engineUnavailable (.unreachable message)))), s') ∧
      (s.engine.viewOf group).next? = some n ∧ (s.engine.grown group n).Same s'.engine := by
  obtain ⟨outcome, s', hleads⟩ := exists_leads (exists_immovable (.unreachable message))
    (group.rotate maxSegments) ⟨havailable, hcreates⟩
  obtain ⟨rfl, n, hnext, hgrown⟩ := (immovable_rotate message hready).steps hleads
  exact ⟨s', n, hleads.mono disturbed_of_immovable, hnext, hgrown⟩

/-! ## Recovery -/

namespace Engine

variable {e e' : Engine}

/-- The engine has the group and its alias in order. -/
structure Orderly (e : Engine) (group : IndexGroup) : Prop where
  /-- The indices of the group have the names that it gives them. -/
  canonical : ∀ name n, e.hasIndex name = true → group.numberOf? name = some n →
    name = group.nameOf n
  /-- The alias has at most one target. -/
  size_le_one : (e.targetsOf group.aliasName).size ≤ 1
  /-- Its target exists. -/
  hasIndex : ∀ target, target ∈ e.targetsOf group.aliasName → e.hasIndex target = true
  /-- No index has its name. -/
  noCollision : e.hasIndex group.aliasName = false
  /-- No alias has the name of an index of the group. -/
  unclaimed : ∀ n, e.aliases.contains (group.nameOf n) = false

theorem Orderly.of_same (h : e.Orderly group) (hsame : e.Same e') : e'.Orderly group where
  canonical name n hindex := h.canonical name n (hsame.hasIndex name ▸ hindex)
  size_le_one := by rw [hsame.targetsOf]; exact h.size_le_one
  hasIndex target htarget := by
    rw [hsame.targetsOf] at htarget
    rw [hsame.hasIndex]
    exact h.hasIndex target htarget
  noCollision := by rw [hsame.hasIndex, h.noCollision]
  unclaimed n := by rw [hsame.aliases, h.unclaimed]

/-- A group is still in order when a next index has come. -/
theorem Orderly.of_unchanged {s s' : Scene} (h : s.engine.Orderly group)
    (hunchanged : s.Unchanged group s') : s'.engine.Orderly group := by
  have hindex : ∀ name, s'.engine.hasIndex name = true →
      (∃ n, name = group.nameOf n) ∨ s.engine.hasIndex name = true := by
    intro name hname
    rcases hunchanged.untouched.gained with hsame | ⟨n, -, hgained⟩
    · exact Or.inr (hsame name ▸ hname)
    · exact ((hgained name).mp hname).imp_left fun heq => ⟨n, heq⟩
  have htargets := targetsOf_congr hunchanged.aliases group.aliasName
  refine ⟨fun name n hname hnumber => ?_, ?_, fun target htarget => ?_, ?_, fun n => ?_⟩
  · rcases hindex name hname with ⟨m, rfl⟩ | hname
    · rw [Option.some.inj ((group.numberOf?_nameOf m).symm.trans hnumber)]
    · exact h.canonical name n hname hnumber
  · rw [htargets]
    exact h.size_le_one
  · have hold := h.hasIndex target (htargets ▸ htarget)
    rw [hasIndex_iff, hunchanged.untouched.index target hold, ← hasIndex_iff]
    exact hold
  · exact hasIndex_aliasName_of_gained h.noCollision hindex
  · rw [hunchanged.aliases]
    exact h.unclaimed n

/-- An engine in use has its group in order. -/
theorem orderly_serving (group : IndexGroup) (n : UInt64) : (serving group n).Orderly group := by
  have hs := sound_serving group n
  exact ⟨fun _ _ => canonical_serving, hs.size_le_one _, hs.hasIndex _,
    hasIndex_aliasName_serving group n, fun m => containsAlias_nameOf_serving group m n⟩

/-- A group in order that has not come to the last number is ready. -/
theorem Orderly.ready (h : e.Orderly group)
    (hroom : ∀ n, e.HasNumber group n → n.toNat + 1 < UInt64.size) : e.Ready group :=
  ⟨h.noCollision, h.unclaimed, h.canonical, hroom⟩

end Engine

/-- A rotation of a group took place as it should, from the index `old` if there was one. -/
structure Rotation.Succeeds (rotation : Rotation) (group : IndexGroup) (e e' : Engine)
    (old : Option UInt64) : Prop where
  previous : rotation.previous = old.map (.ordinary group.fullName)
  /-- It reports whether there was an index to seal. -/
  sealed : rotation.sealed = old.isSome
  /-- The index that the alias has left was flushed once more, and is read-only. -/
  left : ∀ m, old = some m → ∃ state, e.indices[group.nameOf m]? = some state ∧
    e'.indices[group.nameOf m]? = some { state with
      flushes := state.flushes + 1, stats := { state.stats with readOnly := true } }
  /-- The alias is on a new index with the highest number, and on no other. -/
  next : ∃ n, rotation.next = .ordinary group.fullName n ∧ (∀ m, e.HasNumber group m → m < n) ∧
    e'.hasIndex (group.nameOf n) = true ∧
    e'.targetsOf group.aliasName = Std.ExtTreeSet.ofList [group.nameOf n]

theorem RotationEnd.succeeds {s s' : Scene} {rotation : Rotation}
    (h : RotationEnd group s s' (.ok rotation))
    (hsize : (s.engine.targetsOf group.aliasName).size ≤ 1)
    (hsealed : rotation.previous.isSome = true → rotation.sealed = true)
    (hleft : ∀ m, s.engine.writeNumber? group = some m →
      ∃ state, s.engine.indices[group.nameOf m]? = some state ∧
        s'.engine.indices[group.nameOf m]? = some state.seal) :
    rotation.Succeeds group s.engine s'.engine (s.engine.writeNumber? group) := by
  cases h with
  | rotated n frozen advanced hrotations hfrozen =>
    rw [Option.isSome_map] at hsealed
    refine ⟨rfl, ?_, hleft, n, rfl, fun m hm => ?_, advanced.redirected.hasIndex,
      advanced.redirected.targetsOf hsize⟩
    · exact Bool.eq_iff_iff.mpr ⟨hfrozen, hsealed⟩
    · exact Engine.lt_of_viewOf_next? advanced.next? hm

/-! ### What comes after -/

section Recovery

variable {s : Scene} (desk : Scene → Job → Except Error Unit)

/-- **A rotation of a group in order succeeds**, unless the flush counter of the index that it
leaves is full.  -/
theorem Engine.Orderly.rotate (h : s.engine.Orderly group)
    (hroom : ∀ n, s.engine.HasNumber group n → n.toNat + 1 < UInt64.size)
    (havailable : s.engine.unavailable = false) (hcreates : s.engine.refusesCreates = false)
    (hflush : ¬ s.engine.FlushedUp group) :
    let after := (group.rotate maxSegments).run (Scene.handler desk) s
    ∃ rotation, after.2 = .ok rotation ∧
      rotation.Succeeds group s.engine after.1.engine (s.engine.writeNumber? group) := by
  intro after
  have hend : RotationEnd group s after.1 after.2 :=
    ((upholds_group_rotate group maxSegments s).restrict fun _ _ _ _ => disturbed_of_faultless).run
      havailable hcreates desk
  have hwell := (faultless_rotate maxSegments (h.ready hroom)).run havailable hcreates desk
  rcases hwell with ⟨rotation, houtcome, hsealed, hleft⟩ | ⟨-, hfull⟩
  · have houtcome' : after.2 = .ok rotation := houtcome
    rw [houtcome'] at hend
    exact ⟨rotation, houtcome',
      hend.succeeds h.size_le_one (fun hsome => hsealed.trans hsome) hleft⟩
  · exact absurd hfull hflush

/-- How setting up a group in order ends, whatever it finds. -/
theorem Engine.Orderly.setUp (h : s.engine.Orderly group)
    (hroom : ∀ n, s.engine.HasNumber group n → n.toNat + 1 < UInt64.size)
    (havailable : s.engine.unavailable = false) (hcreates : s.engine.refusesCreates = false) :
    let after := (group.setUp maxSegments).run (Scene.handler desk) s
    ∃ found, after.2 = .ok found ∧ SetUpEnd group s after.1 (.ok found) := by
  intro after
  have hend : SetUpEnd group s after.1 after.2 :=
    ((upholds_group_setUp group maxSegments s).restrict fun _ _ _ _ => disturbed_of_faultless).run
      havailable hcreates desk
  obtain ⟨found, hfound⟩ :=
    (faultless_setUp maxSegments (h.ready hroom)).run havailable hcreates desk
  have hfound' : after.2 = .ok found := hfound
  rw [hfound'] at hend
  exact ⟨found, hfound', hend⟩

/-- **A group in order that is up is found to be up.** -/
theorem Engine.Orderly.setUp_bound (h : s.engine.Orderly group)
    (hroom : ∀ n, s.engine.HasNumber group n → n.toNat + 1 < UInt64.size)
    (havailable : s.engine.unavailable = false) (hcreates : s.engine.refusesCreates = false)
    {m : UInt64} (hwrites : s.engine.writeNumber? group = some m) :
    let after := (group.setUp maxSegments).run (Scene.handler desk) s
    after.2 = .ok .alreadyUp ∧ s.Quiet after.1 := by
  intro after
  obtain ⟨found, hfound, hend⟩ := h.setUp desk hroom havailable hcreates
  cases hend with
  | alreadyUp hup hquiet => exact ⟨hfound, hquiet⟩
  | repaired n hdown =>
    rw [hwrites] at hdown
    cases hdown
  | bootstrapped rotation hempty =>
    rw [Engine.writeNumber?_of_empty hempty] at hwrites
    cases hwrites

/-- **A group in order that is not up is repaired**, or gets its first index. -/
theorem Engine.Orderly.setUp_unbound (h : s.engine.Orderly group)
    (hroom : ∀ n, s.engine.HasNumber group n → n.toNat + 1 < UInt64.size)
    (havailable : s.engine.unavailable = false) (hcreates : s.engine.refusesCreates = false)
    (hwrites : s.engine.writeNumber? group = none) :
    let after := (group.setUp maxSegments).run (Scene.handler desk) s
    (∃ n, (s.engine.viewOf group).latest? = some n ∧
        after.2 = .ok (.repaired (.ordinary group.fullName n)) ∧
        after.1.engine.hasIndex (group.nameOf n) = true ∧
        after.1.engine.targetsOf group.aliasName = Std.ExtTreeSet.ofList [group.nameOf n]) ∨
      ∃ rotation, (s.engine.viewOf group).latest? = none ∧ after.2 = .ok (.bootstrapped rotation) ∧
        rotation.Succeeds group s.engine after.1.engine none := by
  intro after
  obtain ⟨found, hfound, hend⟩ := h.setUp desk hroom havailable hcreates
  cases hend with
  | alreadyUp hup hquiet =>
    rw [GroupView.isUp, Engine.viewOf_target h.noCollision, hwrites] at hup
    cases hup
  | repaired n hdown hlatest redirected =>
    exact Or.inl ⟨n, hlatest, hfound, redirected.hasIndex, redirected.targetsOf h.size_le_one⟩
  | bootstrapped rotation hempty hrotation =>
    have hleft : ∀ m, s.engine.writeNumber? group = some m →
        ∃ state, s.engine.indices[group.nameOf m]? = some state ∧
          after.1.engine.indices[group.nameOf m]? = some state.seal := by
      intro m hm
      rw [hwrites] at hm
      cases hm
    refine Or.inr ⟨rotation, hempty, hfound, hwrites ▸ hrotation.succeeds h.size_le_one ?_ hleft⟩
    cases hrotation with
    | rotated n frozen advanced hrotations hfrozen =>
      intro hsome
      rw [hwrites] at hsome
      cases hsome

end Recovery

/-- What the next attempt in a scene `t` comes to, after one in a scene `s` has failed. -/
structure Scene.Recovers (maxSegments : UInt32) (group : IndexGroup)
    (desk : Scene → Job → Except Error Unit) (s t : Scene) : Prop where
  /-- If the alias was on an index of the group, the group is up and nothing is done. -/
  alreadyUp : ∀ target m, s.engine.WritesTo group target m →
    let after := (group.setUp maxSegments).run (handler desk) t
    after.2 = .ok .alreadyUp ∧ t.Quiet after.1
  /-- The next rotation comes from that index. -/
  rotated : ∀ target m, s.engine.WritesTo group target m → ¬ t.engine.FlushedUp group →
    let after := (group.rotate maxSegments).run (handler desk) t
    target = group.nameOf m ∧ ∃ rotation, after.2 = .ok rotation ∧
      rotation.Succeeds group t.engine after.1.engine (some m)
  /-- If it was not, the alias is pointed at the latest index, or the group gets its first one. -/
  repaired : (∀ target m, ¬ s.engine.WritesTo group target m) →
    let after := (group.setUp maxSegments).run (handler desk) t
    (∃ n, (t.engine.viewOf group).latest? = some n ∧
        after.2 = .ok (.repaired (.ordinary group.fullName n)) ∧
        after.1.engine.hasIndex (group.nameOf n) = true ∧
        after.1.engine.targetsOf group.aliasName = Std.ExtTreeSet.ofList [group.nameOf n]) ∨
      ∃ rotation, (t.engine.viewOf group).latest? = none ∧ after.2 = .ok (.bootstrapped rotation) ∧
        rotation.Succeeds group t.engine after.1.engine none
  /-- The next rotation comes from nowhere then. -/
  started : (∀ target m, ¬ s.engine.WritesTo group target m) →
    let after := (group.rotate maxSegments).run (handler desk) t
    ∃ rotation, after.2 = .ok rotation ∧ rotation.Succeeds group t.engine after.1.engine none

/-- **A failure changes nothing that matters, and the next attempt succeeds** once calls are
answered again, if the group was in order and is not at its last number.  -/
theorem Scene.Fails.untouched_and_recovers {s s' : Scene} (h : s.Fails maxSegments group s') :
    s.Untouched group s' ∧
      ∀ (t : Scene) (desk : Scene → Job → Except Error Unit), s.engine.Orderly group →
        s'.engine.Same t.engine → t.engine.unavailable = false → t.engine.refusesCreates = false →
        (∀ n, t.engine.HasNumber group n → n.toNat + 1 < UInt64.size) →
        s.Recovers maxSegments group desk t := by
  refine ⟨h.unchanged.untouched, ?_⟩
  intro t desk horderly hsame havailable hcreates hroom
  have haliases : t.engine.aliases = s.engine.aliases := hsame.aliases.trans h.unchanged.aliases
  have horderly' : t.engine.Orderly group := (horderly.of_unchanged h.unchanged).of_same hsame
  have hnumber : ∀ m, t.engine.writeNumber? group = some m ↔
      ∃ target, s.engine.WritesTo group target m := by
    intro m
    rw [Engine.writeNumber?_eq_some_iff_writesTo horderly'.size_le_one horderly'.hasIndex]
    exact exists_congr fun target => Engine.writesTo_congr haliases
  have hnone : (∀ target m, ¬ s.engine.WritesTo group target m) →
      t.engine.writeNumber? group = none := by
    intro hnot
    rw [Option.eq_none_iff_forall_ne_some]
    intro m hm
    obtain ⟨target, hwrites⟩ := (hnumber m).mp hm
    exact hnot target m hwrites
  constructor
  · intro target m hwrites
    exact horderly'.setUp_bound desk hroom havailable hcreates ((hnumber m).mpr ⟨target, hwrites⟩)
  · intro target m hwrites hflush
    refine ⟨horderly.canonical target m (horderly.hasIndex target hwrites.1) hwrites.2, ?_⟩
    rw [← (hnumber m).mpr ⟨target, hwrites⟩]
    exact horderly'.rotate desk hroom havailable hcreates hflush
  · intro hnot
    exact horderly'.setUp_unbound desk hroom havailable hcreates (hnone hnot)
  · intro hnot
    have hflush : ¬ t.engine.FlushedUp group := by
      rintro ⟨m, hm, -⟩
      rw [hnone hnot] at hm
      cases hm
    rw [← hnone hnot]
    exact horderly'.rotate desk hroom havailable hcreates hflush

/-- A rotation that has created its index when its call to move the alias gets lost, and then is
tried again, with the index left behind. -/
theorem Scene.Fails.untouched_and_recovers_of_lost_call :
    let group : IndexGroup := ⟨"graylog", "internal"⟩
    let desk : Scene → Job → Except Error Unit := fun _ _ => .ok ()
    let s : Scene := { engine := Engine.serving group 0 }
    let t : Scene := { engine := s.engine.grown group 1 }
    let after := (group.rotate 1).run (handler desk) t
    s.engine.hasIndex (group.nameOf 1) = false ∧ t.engine.hasIndex (group.nameOf 1) = true ∧
      (∃ s', s.Fails 1 group s' ∧ s'.engine.Same t.engine ∧ s.Untouched group s') ∧
      s.Recovers 1 group desk t ∧
      ∃ rotation, after.2 = .ok rotation ∧
        rotation.Succeeds group t.engine after.1.engine (some 0) := by
  intro group desk s t after
  have hafter : after = (group.rotate 1).run (handler desk) t := rfl
  have hserving : ∀ n, s.engine.HasNumber group n ↔ n = 0 := fun n => Engine.hasNumber_serving
  have hready : s.engine.Ready group := (Engine.orderly_serving group 0).ready fun n hn => by
    rw [(hserving n).mp hn]
    decide
  obtain ⟨s', n, hleads, hnext, hgrown⟩ := hready.exists_leads_rotate rfl rfl 1 "timeout"
  have hlatest : (s.engine.viewOf group).latest? = some 0 :=
    Engine.viewOf_latest?_eq_some_iff.mpr
      ⟨(hserving 0).mpr rfl, fun m hm => (hserving m).mp hm ▸ UInt64.le_refl 0⟩
  rw [GroupView.next?, hlatest] at hnext
  obtain rfl : n = 1 := (Option.some.inj hnext).symm
  have hfails : s.Fails 1 group s' := .rotate _ hleads
  obtain ⟨huntouched, hrecovers⟩ := hfails.untouched_and_recovers
  have hroom : ∀ n, t.engine.HasNumber group n → n.toNat + 1 < UInt64.size := by
    rintro n ⟨name, hindex, hnumber⟩
    rcases Engine.hasIndex_insert.mp hindex with rfl | hindex
    · rw [← Option.some.inj ((group.numberOf?_nameOf 1).symm.trans hnumber)]
      decide
    · exact hready.room n ⟨name, hindex, hnumber⟩
  have hrecovers' := hrecovers t desk (Engine.orderly_serving group 0) hgrown.symm rfl rfl hroom
  have hwrites : s.engine.WritesTo group (group.nameOf 0) 0 :=
    ⟨(Engine.targetsOf_serving ..).mpr ⟨rfl, rfl⟩, group.numberOf?_nameOf 0⟩
  have hflush : ¬ t.engine.FlushedUp group := by
    refine Engine.not_flushedUp_of_new fun name state hstate => ?_
    rw [Engine.getElem?_grown, Engine.getElem?_serving] at hstate
    split at hstate
    · exact (Option.some.inj hstate).symm
    · split at hstate
      · exact (Option.some.inj hstate).symm
      · cases hstate
  obtain ⟨-, rotation, hrotated, hsucceeds⟩ := hrecovers'.rotated _ 0 hwrites hflush
  rw [hafter]
  exact ⟨by decide +kernel, by decide +kernel, ⟨s', hfails, hgrown.symm, huntouched⟩, hrecovers',
    rotation, hrotated, hsucceeds⟩

end Rollover
