import Rollover.Proofs.Warrant

/-!
# What an operation does

This file walks through the operations on a group, once each.  For every effect it says why the
effect is warranted, and for every end what the operation has done by then, seen from the scene in
which it began.

The ends are data of their own.  `RotationEnd` has four cases: a rotation failed, and nothing has
changed but perhaps that the next index exists; it ran out of numbers; it was cut off by a full
flush counter, with the alias moved already; or it took place.  `SetUpEnd` and `RemovalEnd` are to
be read in the same way.  The engine is arbitrary throughout: soundness is what effects are
warranted by, but the ends are what they are on every engine.

Later files use the ends and do not look into the operations again.
-/

namespace Rollover

open Program Environment

/-! ## What the activity log shows -/

/-- The rotation that an entry of the activity log reports. -/
def Activity.rotation? : Activity → Option (Option String × String)
  | .rotated previous next => some (previous, next)
  | .creatingFirstIndex | .rangesNotRebuilt => none

/-- The rotation that was recorded at a moment. -/
def Moment.rotation? (m : Moment) : Option (Option String × String) :=
  match m.effect with
  | .record entry => entry.rotation?
  | .call _ | .submit _ => none

namespace Scene

/-- The rotations in the activity log, oldest first. -/
def rotations (s : Scene) : List (Option String × String) :=
  s.past.reverse.filterMap Moment.rotation?

theorem rotations_next (s : Scene) (effect : Effect) (reply : effect.Reply) (engine : Engine) :
    (s.next effect reply engine).rotations =
      s.rotations ++ (Moment.rotation? ⟨s.engine, effect, reply⟩).toList := by
  rw [rotations, past_next, List.reverse_cons, List.filterMap_append, ← rotations]
  cases h : Moment.rotation? ⟨s.engine, effect, reply⟩ <;> simp [h]

@[simp] theorem rotations_next_call (s : Scene) (request : EngineCall) (reply : request.Reply)
    (engine : Engine) : (s.next (.call request) reply engine).rotations = s.rotations := by
  simp [rotations_next, Moment.rotation?]

@[simp] theorem rotations_next_submit (s : Scene) (job : Job) (reply : Except Error Unit)
    (engine : Engine) : (s.next (.submit job) reply engine).rotations = s.rotations := by
  simp [rotations_next, Moment.rotation?]

@[simp] theorem rotations_next_record (s : Scene) (entry : Activity) (engine : Engine) :
    (s.next (.record entry) () engine).rotations = s.rotations ++ entry.rotation?.toList := by
  simp [rotations_next, Moment.rotation?]

/-- The engine has the same indices and aliases, and no rotation was recorded. -/
structure Still (s s' : Scene) : Prop where
  same : s.engine.Same s'.engine
  rotations : s'.rotations = s.rotations

namespace Still

variable {s s' s'' : Scene}

protected theorem refl (s : Scene) : s.Still s := ⟨.refl _, rfl⟩

protected theorem trans (h : s.Still s') (h' : s'.Still s'') : s.Still s'' :=
  ⟨h.same.trans h'.same, h'.rotations.trans h.rotations⟩

theorem next {effect : Effect} {reply : effect.Reply} {engine : Engine}
    (hrotation : Moment.rotation? ⟨s.engine, effect, reply⟩ = none) (h : s.engine.Same engine) :
    s.Still (s.next effect reply engine) :=
  ⟨h, by rw [rotations_next, hrotation, Option.toList_none, List.append_nil]⟩

end Still

theorem Quiet.still {s s' : Scene} (h : s.Quiet s') : s.Still s' := by
  obtain ⟨reads, hpast, hreads⟩ := h.past
  refine ⟨h.same, ?_⟩
  have hnone : reads.reverse.filterMap Moment.rotation? = [] := by
    rw [List.filterMap_eq_nil_iff]
    intro m hm
    have hread := hreads m (List.mem_reverse.mp hm)
    unfold Moment.rotation?
    split
    · next hentry => rw [hentry] at hread; cases hread
    · rfl
    · rfl
  rw [rotations, hpast, List.reverse_append, List.filterMap_append, hnone, List.append_nil,
    rotations]

end Scene

/-! ## How operations end -/

section Ends

variable (group : IndexGroup)

/-- The alias of the group left its first target for the index `n` of the group, and that index
exists.  All other aliases are as they were. -/
structure Engine.Redirected (e e' : Engine) (n : UInt64) : Prop where
  hasIndex : e'.hasIndex (group.nameOf n) = true
  aliasState : e'.aliasState group.aliasName =
    (e.aliasState group.aliasName).retarget
      (e.movedTargets group.aliasName (group.nameOf n) (e.targetsOf group.aliasName).min?)
  others : ∀ aliasName, aliasName ≠ group.aliasName →
    e'.aliasState aliasName = e.aliasState aliasName

/-- Nothing has changed, but perhaps the next index of the group exists. -/
structure Scene.Unchanged (s s' : Scene) : Prop where
  aliases : s'.engine.aliases = s.engine.aliases
  indices : s'.engine.indices = s.engine.indices ∨
    ∃ n, (s.engine.viewOf group).next? = some n ∧ s.engine.hasIndex (group.nameOf n) = false ∧
      s'.engine.indices = s.engine.indices.insert (group.nameOf n) {}
  rotations : s'.rotations = s.rotations

/-- The alias moved to the next index of the group. -/
structure Scene.Advanced (s s' : Scene) (n : UInt64) : Prop where
  next? : (s.engine.viewOf group).next? = some n
  redirected : s.engine.Redirected group s'.engine n

/-- How a rotation can end. -/
inductive RotationEnd (s s' : Scene) : Outcome Rotation → Prop
  /-- It failed. -/
  | failed (cause : Error) (h : s.Unchanged group s') : RotationEnd s s' (.error (.failed cause))
  /-- There was no number left. -/
  | exhausted (hnext : (s.engine.viewOf group).next? = none) (h : s.Still s') :
    RotationEnd s s' (.error .overflow)
  /-- The flush counter of the index that the alias had left was full. -/
  | cutOff (m n : UInt64) (e : Engine) (advanced : s.Advanced group s' n)
      (hwrites : s.engine.writeNumber? group = some m) (hrotations : s'.rotations = s.rotations)
      (hfull : ⟨e, .call (.flush (group.nameOf m)), .ok .counterFull⟩ ∈ s'.past) :
    RotationEnd s s' (.error .overflow)
  /-- The alias moved on. -/
  | rotated (n : UInt64) (frozen : Bool) (advanced : s.Advanced group s' n)
      (hrotations : s'.rotations = s.rotations ++
        [((s.engine.writeNumber? group).map group.nameOf, group.nameOf n)])
      (hfrozen : frozen = true → (s.engine.writeNumber? group).isSome) :
    RotationEnd s s' (.ok {
      previous := (s.engine.writeNumber? group).map (.ordinary group.fullName)
      next := .ordinary group.fullName n
      sealed := frozen })

/-- How setting up a group can end. -/
inductive SetUpEnd (s s' : Scene) : Outcome SetUp → Prop
  /-- It failed. -/
  | failed (cause : Error) (h : s.Unchanged group s') : SetUpEnd s s' (.error (.failed cause))
  /-- The alias was on an index of the group. -/
  | alreadyUp (hup : (s.engine.viewOf group).isUp = true) (h : s.Quiet s') :
    SetUpEnd s s' (.ok .alreadyUp)
  /-- The alias was not on an index of the group, and went to the latest one. -/
  | repaired (n : UInt64) (hdown : s.engine.writeNumber? group = none)
      (hlatest : (s.engine.viewOf group).latest? = some n)
      (redirected : s.engine.Redirected group s'.engine n)
      (hrotations : s'.rotations = s.rotations) :
    SetUpEnd s s' (.ok (.repaired (.ordinary group.fullName n)))
  /-- The group had no index, and got one by a rotation. -/
  | bootstrapped (rotation : Rotation) (hempty : (s.engine.viewOf group).latest? = none)
      (h : RotationEnd group s s' (.ok rotation)) :
    SetUpEnd s s' (.ok (.bootstrapped rotation))

/-- How removing an index ends: no rotation is recorded, and the aliases of a sound engine stay
where they are. -/
structure RemovalEnd (s s' : Scene) : Prop where
  rotations : s'.rotations = s.rotations
  aliasState : s.engine.Sound → ∀ aliasName,
    s'.engine.aliasState aliasName = s.engine.aliasState aliasName

end Ends

variable {group : IndexGroup} {view : GroupView} {s s₁ : Scene} {guard : Scene → Effect → Prop}

theorem Scene.Still.unchanged {s s' : Scene} (h : s.Still s') : s.Unchanged group s' :=
  ⟨h.same.aliases, Or.inl h.same.indices, h.rotations⟩

namespace Engine.Redirected

variable {e e₁ e' : Engine} {n : UInt64}

/-- A successful move redirects the alias. -/
theorem of_move (haliases : e₁.aliases = e.aliases) (hindex : e₁.hasIndex (group.nameOf n) = true)
    (h : Engine.Same { e₁ with
      aliases := e₁.aliases.insert group.aliasName
        ((e₁.aliasState group.aliasName).retarget (e₁.movedTargets group.aliasName (group.nameOf n)
          (e.targetsOf group.aliasName).min?)) } e') : e.Redirected group e' n := by
  have hstate : ∀ aliasName, e'.aliasState aliasName =
      if aliasName = group.aliasName then
        (e.aliasState group.aliasName).retarget (e.movedTargets group.aliasName (group.nameOf n)
          (e.targetsOf group.aliasName).min?)
      else e.aliasState aliasName := by
    intro aliasName
    rw [h.aliasState, aliasState_insert, aliasState_congr haliases, aliasState_congr haliases,
      movedTargets_congr haliases]
  constructor
  · rw [h.hasIndex]
    exact hindex
  · rw [hstate, if_pos rfl]
  · intro aliasName hne
    rw [hstate, if_neg hne]

/-- What happens to the indices afterwards leaves it redirected, if none gets lost. -/
theorem later (h : e.Redirected group e₁ n) (haliases : e'.aliases = e₁.aliases)
    (hkeeps : ∀ name, e₁.hasIndex name = true → e'.hasIndex name = true) :
    e.Redirected group e' n where
  hasIndex := hkeeps _ h.hasIndex
  aliasState := by rw [aliasState_congr haliases, h.aliasState]
  others aliasName hne := by rw [aliasState_congr haliases, h.others aliasName hne]

/-- An alias that had at most one target is on the new index alone. -/
theorem targetsOf (h : e.Redirected group e' n) (hsize : (e.targetsOf group.aliasName).size ≤ 1) :
    e'.targetsOf group.aliasName = Std.ExtTreeSet.ofList [group.nameOf n] := by
  rw [Engine.targetsOf, h.aliasState, AliasState.targets_retarget,
    movedTargets_of_size_le_one hsize]

theorem writesTo (h : e.Redirected group e' n) (hs : e.Sound) :
    e'.WritesTo group (group.nameOf n) n := by
  refine ⟨?_, group.numberOf?_nameOf n⟩
  rw [h.targetsOf (hs.size_le_one _), mem_ofList_singleton]

end Engine.Redirected

/-! ## The steps of a rotation -/

/-- Handing over a rebuild leaves the engine alone. -/
theorem upholds_offerRebuild (hsubmit : ∀ s, guard s (.submit (.rebuildRanges view.group)))
    (hrecord : ∀ s entry, guard s (.record entry)) :
    view.offerRebuild.Upholds disturbed guard
      (fun _ s' => s'.engine = s.engine ∧ s'.rotations = s.rotations) s := by
  unfold GroupView.offerRebuild
  refine upholds_submit.mpr ⟨hsubmit _, fun reply e₁ h₁ => ?_⟩
  obtain rfl : e₁ = s.engine := h₁
  cases reply with
  | ok => exact ⟨rfl, by simp⟩
  | error =>
    refine ⟨hrecord _ _, fun _ e₂ h₂ => ⟨h₂, ?_⟩⟩
    show ((s.next _ _ _).next (.record .rangesNotRebuilt) () e₂).rotations = s.rotations
    simp [Activity.rotation?]

/-- Asking for the target of an alias, after nothing has changed yet. -/
theorem upholds_aliasTarget {α : Type} {goal : α → Scene → Prop} {aliasName : String}
    {f : (EngineCall.aliasTarget aliasName).Reply → Program α} (h : s.Still s₁)
    (hanswered : ∀ s₂, s.Still s₂ → (f (.ok (s.engine.targetsOf aliasName).min?)).Upholds
      disturbed s.Permits goal s₂)
    (hfailed : ∀ cause s₂, s.Still s₂ → (f (.error cause)).Upholds disturbed s.Permits goal s₂) :
    (ask (.aliasTarget aliasName) >>= f).Upholds disturbed s.Permits goal s₁ := by
  refine upholds_ask.mpr ⟨s.permits_of_isRead _ rfl, fun reply e₂ h₂ => ?_⟩
  obtain ⟨hsame₂, hreply⟩ := disturbed_aliasTarget h₂
  have hstill₂ : s.Still (s₁.next _ reply e₂) := h.trans (.next rfl hsame₂)
  rw [h.same.targetsOf] at hreply
  obtain ⟨cause, rfl⟩ | rfl := hreply.symm
  · exact hfailed cause _ hstill₂
  · exact hanswered _ hstill₂

/-- Creating the index `n` of a group. -/
theorem upholds_create {n : UInt64} (hview : view.group = group)
    (hguard : guard s (.call (.createIndex (group.nameOf n)))) :
    (view.create (view.segment n)).Upholds disturbed guard (fun result s' =>
      s'.rotations = s.rotations ∧
        ((s.engine.Same s'.engine ∧
            (result = (view, .ok false) ∨ ∃ cause, result = (view, .error cause))) ∨
          (result = (view.insert n, .ok true) ∧ s.engine.hasIndex (group.nameOf n) = false ∧
            Engine.Same
              { s.engine with indices := s.engine.indices.insert (group.nameOf n) {} }
              s'.engine))) s := by
  subst hview
  unfold GroupView.create
  simp only [GroupView.requireMember_eq_ok_iff.mpr rfl]
  refine upholds_ask.mpr ⟨hguard, fun reply e₁ h₁ => ?_⟩
  rcases disturbed_createIndex h₁ with ⟨hsame, rfl | ⟨cause, rfl⟩⟩ | ⟨rfl, hfree, hsame⟩
  · exact ⟨by simp, Or.inl ⟨hsame, Or.inl rfl⟩⟩
  · exact ⟨by simp, Or.inl ⟨hsame, Or.inr ⟨_, rfl⟩⟩⟩
  · exact ⟨by simp, Or.inr ⟨rfl, hfree, hsame⟩⟩

/-- Pointing the alias at the index `n` of the group.  If that succeeds, it is the last thing that
happened. -/
theorem upholds_pointTo {n : UInt64} {old : Option String} (hview : view.group = group)
    (hguard : guard s (.call (.moveAlias group.aliasName (group.nameOf n) old))) :
    (view.pointTo n old).Upholds disturbed guard (fun result s' =>
      (s.Still s' ∧ ∃ moved cause, result = (moved, .error cause)) ∨
        (result = ({ view with target := some n }, .ok ()) ∧
          s.engine.hasIndex (group.nameOf n) = true ∧
          ∃ engine, s' = s.next (.call (.moveAlias group.aliasName (group.nameOf n) old)) (.ok ())
              engine ∧
            Engine.Same { s.engine with
              aliases := s.engine.aliases.insert group.aliasName
                ((s.engine.aliasState group.aliasName).retarget
                  (s.engine.movedTargets group.aliasName (group.nameOf n) old)) } engine)) s := by
  subst hview
  unfold GroupView.pointTo
  refine upholds_ask.mpr ⟨hguard, fun reply e₁ h₁ => ?_⟩
  rcases disturbed_moveAlias h₁ with ⟨hsame, cause, rfl⟩ | ⟨rfl, hindex, hsame⟩
  · cases cause with
    | invalidAliasName | unreachable | rejected | indexNotFound =>
      exact Or.inl ⟨.next rfl hsame, _, _, rfl⟩
  · exact Or.inr ⟨rfl, hindex, e₁, rfl, hsame⟩

/-- Sealing an index that its alias has just left.  It can end early, but only a full flush counter
cuts it off. -/
theorem upholds_sealIndex {maxSegments : UInt32} {name : String}
    (hleft : s.engine.Sound → Scene.HasLeft s₁.engine s₁.past name) :
    (GroupView.sealIndex maxSegments name).Upholds disturbed s.Permits (fun result s' =>
      s'.rotations = s₁.rotations ∧ s'.engine.aliases = s₁.engine.aliases ∧
        (∀ other, s₁.engine.hasIndex other = true → s'.engine.hasIndex other = true) ∧
        ((∃ frozen, result = .ok frozen) ∨ (result = .error .overflow ∧
          ⟨s₁.engine, .call (.flush name), .ok .counterFull⟩ ∈ s'.past))) s₁ := by
  unfold GroupView.sealIndex
  refine upholds_ask.mpr ⟨hleft, fun reply e₁ h₁ => ?_⟩
  rcases disturbed_flush h₁ with ⟨hsame, ⟨rfl, -⟩ | ⟨cause, rfl⟩⟩ | ⟨rfl, state, -, hsame⟩
  · refine ⟨by simp, hsame.aliases, fun other => ?_, Or.inr ⟨rfl, List.mem_cons_self⟩⟩
    exact (hsame.hasIndex other).symm ▸ id
  · refine ⟨by simp, hsame.aliases, fun other => ?_, Or.inl ⟨false, rfl⟩⟩
    exact (hsame.hasIndex other).symm ▸ id
  have haliases₁ : e₁.aliases = s₁.engine.aliases := hsame.aliases
  have hkeeps₁ : ∀ other, s₁.engine.hasIndex other = true → e₁.hasIndex other = true := by
    intro other hother
    rw [hsame.hasIndex, Engine.hasIndex_insert]
    exact Or.inr hother
  refine upholds_ask.mpr
    ⟨fun hs => ⟨_, _, rfl, (hleft hs).congr haliases₁⟩, fun reply e₂ h₂ => ?_⟩
  rcases disturbed_setReadOnly h₂ with ⟨hsame₂, cause, rfl⟩ | ⟨rfl, state₂, -, hsame₂⟩
  · refine ⟨by simp, hsame₂.aliases.trans haliases₁, fun other hother => ?_,
      Or.inl ⟨false, rfl⟩⟩
    rw [Scene.engine_next, hsame₂.hasIndex]
    exact hkeeps₁ other hother
  have haliases₂ : e₂.aliases = s₁.engine.aliases := hsame₂.aliases.trans haliases₁
  refine upholds_submit.mpr
    ⟨fun hs => ⟨_, _, _, rfl, (hleft hs).congr haliases₂⟩, fun reply e₃ h₃ => ?_⟩
  obtain rfl : e₃ = e₂ := h₃
  refine ⟨by simp, haliases₂, fun other hother => ?_, Or.inl ⟨true, rfl⟩⟩
  rw [Scene.engine_next, hsame₂.hasIndex, Engine.hasIndex_insert]
  exact Or.inr (hkeeps₁ other hother)

/-- The end of a rotation, after the alias has moved. -/
theorem upholds_retire {maxSegments : UInt32} {previous : Option UInt64} {n : UInt64}
    (hview : view.group = group)
    (hleft : ∀ m, previous = some m → s.engine.Sound →
      Scene.HasLeft s₁.engine s₁.past (group.nameOf m)) :
    (view.retire maxSegments previous n).Upholds disturbed s.Permits (fun result s' =>
      s'.engine.aliases = s₁.engine.aliases ∧
        (∀ other, s₁.engine.hasIndex other = true → s'.engine.hasIndex other = true) ∧
        ((∃ frozen, (frozen = true → previous.isSome) ∧ result = .ok {
              previous := previous.map (.ordinary group.fullName)
              next := .ordinary group.fullName n
              sealed := frozen } ∧
            s'.rotations = s₁.rotations ++ [(previous.map group.nameOf, group.nameOf n)]) ∨
          ∃ m e, previous = some m ∧ result = .error .overflow ∧ s'.rotations = s₁.rotations ∧
            ⟨e, .call (.flush (group.nameOf m)), .ok .counterFull⟩ ∈ s'.past)) s₁ := by
  subst hview
  unfold GroupView.retire
  cases previous with
  | none =>
    refine upholds_record.mpr ⟨fun _ => trivial, fun _ e₁ h₁ => ?_⟩
    obtain rfl : e₁ = s₁.engine := h₁
    refine ⟨rfl, fun _ => id, Or.inl ⟨false, nofun, rfl, ?_⟩⟩
    rw [Scene.rotations_next_record]
    rfl
  | some m =>
    refine upholds_bind.mpr ((upholds_sealIndex (hleft m rfl)).imp fun result s₂ h => ?_)
    obtain ⟨hrotations, haliases, hkeeps, ⟨frozen, rfl⟩ | ⟨rfl, hfull⟩⟩ := h
    · refine upholds_record.mpr ⟨fun _ => trivial, fun _ e₃ h₃ => ?_⟩
      obtain rfl : e₃ = s₂.engine := h₃
      refine ⟨haliases, hkeeps, Or.inl ⟨frozen, fun _ => rfl, rfl, ?_⟩⟩
      rw [Scene.rotations_next_record, hrotations]
      rfl
    · exact ⟨haliases, hkeeps, Or.inr ⟨m, _, rfl, rfl, hrotations, hfull⟩⟩

/-! ## Rotations -/

/-- In a sound engine, what the alias is on was there when the group was looked at. -/
theorem Engine.Sound.lt_of_next? {e : Engine} (hs : e.Sound) {m n : UInt64} {target : String}
    (hnext : (e.viewOf group).next? = some n) (hwrites : e.WritesTo group target m) : m < n :=
  Engine.lt_of_viewOf_next? hnext ⟨target, hs.hasIndex _ _ hwrites.1, hwrites.2⟩

/-- The second half of a rotation, once the next index is there. -/
theorem upholds_redirect {maxSegments : UInt32} {n : UInt64} {previous : Option UInt64}
    {bound : Option String} (hview : view.group = group)
    (hnext : (s.engine.viewOf group).next? = some n)
    (hbound : (s.engine.targetsOf group.aliasName).min? = bound)
    (hprevious : previous = s.engine.writeNumber? group)
    (haliases : s₁.engine.aliases = s.engine.aliases)
    (hindices : s₁.engine.indices = s.engine.indices.insert (group.nameOf n) {})
    (hfree : s.engine.hasIndex (group.nameOf n) = false) (hrotations : s₁.rotations = s.rotations) :
    Upholds disturbed s.Permits (fun result s' => RotationEnd group s s' result.2) (do
      view.offerRebuild
      match ← view.pointTo n bound with
      | (moved, .error cause) => return (moved, .error (.failed cause))
      | (moved, .ok ()) =>
        let outcome ← moved.retire maxSegments previous n
        return (moved, outcome)) s₁ := by
  refine upholds_bind.mpr ((upholds_offerRebuild (fun _ _ => trivial) (fun _ _ _ => trivial)).imp
    fun _ s₂ h₂ => ?_)
  obtain ⟨hengine₂, hrotations₂⟩ := h₂
  rw [hrotations] at hrotations₂
  rw [← hengine₂] at haliases hindices
  have hmove : s.Permits s₂ (.call (.moveAlias group.aliasName (group.nameOf n) bound)) := by
    refine fun hs => ⟨group, n, rfl, rfl, ?_, fun target m hwrites => ?_⟩
    · rw [Engine.targetsOf_congr haliases, hbound]
    · exact hs.lt_of_next? hnext ((Engine.writesTo_congr haliases).mp hwrites)
  refine upholds_bind.mpr ((upholds_pointTo hview hmove).imp fun result s₃ h₃ => ?_)
  rcases h₃ with ⟨hstill, moved, cause, rfl⟩ | ⟨rfl, hindex, engine, rfl, hsame⟩
  · exact .failed _ ⟨hstill.same.aliases.trans haliases,
      Or.inr ⟨n, hnext, hfree, hstill.same.indices.trans hindices⟩,
      hstill.rotations.trans hrotations₂⟩
  have hredirected : s.engine.Redirected group engine n :=
    .of_move haliases hindex (hbound ▸ hsame)
  have hleft : ∀ m, previous = some m → s.engine.Sound →
      Scene.HasLeft engine (s₂.next (.call (.moveAlias group.aliasName (group.nameOf n) bound))
        (Except.ok ()) engine).past (group.nameOf m) := by
    intro m hm hs
    obtain ⟨target, htarget, hnumber, -⟩ := Engine.writeNumber?_eq_some_iff.mp (hprevious ▸ hm)
    have hwrites : s.engine.WritesTo group target m := ⟨Std.ExtTreeSet.min?_mem htarget, hnumber⟩
    rw [← hbound, htarget]
    exact ⟨group, m, n, target, s₂.engine, s₂.past, rfl, hs.lt_of_next? hnext hwrites,
      hredirected.writesTo hs, (Engine.writesTo_congr haliases).mpr hwrites, rfl⟩
  refine upholds_bind.mpr ((upholds_retire hview hleft).imp fun result s₄ h₄ => ?_)
  obtain ⟨haliases₄, hkeeps, hend⟩ := h₄
  have hadvanced : s.Advanced group s₄ n := ⟨hnext, hredirected.later haliases₄ hkeeps⟩
  rcases hend with ⟨frozen, hfrozen, rfl, hrotations₄⟩ | ⟨m, e, hm, rfl, hrotations₄, hfull⟩
  · rw [Scene.rotations_next_call, hrotations₂, hprevious] at hrotations₄
    rw [hprevious] at hfrozen ⊢
    exact .rotated n frozen hadvanced hrotations₄ hfrozen
  · rw [Scene.rotations_next_call, hrotations₂] at hrotations₄
    exact .cutOff m n e hadvanced (hprevious ▸ hm) hrotations₄ hfull

/-- **What a rotation does.** -/
theorem upholds_rotate (maxSegments : UInt32) (hgroup : view.group = group)
    (hview : s.engine.viewOf group = view) (h : s.Still s₁) :
    (view.rotate maxSegments).Upholds disturbed s.Permits
      (fun result s' => RotationEnd group s s' result.2) s₁ := by
  subst hgroup
  unfold GroupView.rotate
  by_cases hcollision : view.collision = true
  · simp only [hcollision, if_true, upholds_pure]
    exact .failed _ h.unchanged
  simp only [hcollision]
  cases hnext : view.next? with
  | none => exact .exhausted (by rw [hview, hnext]) h
  | some n =>
    have hnext' : (s.engine.viewOf view.group).next? = some n := by rw [hview, hnext]
    -- the alias is asked after once more
    refine upholds_aliasTarget h (fun s₂ hstill₂ => ?_) fun cause s₂ hstill₂ =>
      .failed _ hstill₂.unchanged
    have hprevious : (s.engine.targetsOf view.group.aliasName).min?.bind view.held? =
        s.engine.writeNumber? view.group := by
      rw [Engine.writeNumber?, hview]
    -- the next index is created
    have hcreate : s.Permits s₂ (.call (.createIndex (view.group.nameOf n))) := by
      refine fun _ => ⟨view.group, n, rfl, fun m hm => ?_⟩
      exact Engine.lt_of_viewOf_next? hnext' (hstill₂.same.hasNumber_iff.mp hm)
    refine upholds_bind.mpr ((upholds_create rfl hcreate).imp fun result s₃ h₃ => ?_)
    obtain ⟨hrotations₃, hend⟩ := h₃
    have hrotations : s₃.rotations = s.rotations := hrotations₃.trans hstill₂.rotations
    rcases hend with ⟨hsame₃, rfl | ⟨cause, rfl⟩⟩ | ⟨rfl, hfree, hsame₃⟩
    · have hstill₃ : s.Still s₃ := ⟨hstill₂.same.trans hsame₃, hrotations⟩
      exact .failed _ hstill₃.unchanged
    · have hstill₃ : s.Still s₃ := ⟨hstill₂.same.trans hsame₃, hrotations⟩
      exact .failed _ hstill₃.unchanged
    have haliases₃ : s₃.engine.aliases = s.engine.aliases :=
      hsame₃.aliases.trans hstill₂.same.aliases
    have hindices₃ : s₃.engine.indices = s.engine.indices.insert (view.group.nameOf n) {} := by
      rw [hsame₃.indices, hstill₂.same.indices]
    rw [hstill₂.same.hasIndex] at hfree
    exact upholds_redirect rfl hnext' rfl hprevious haliases₃ hindices₃ hfree hrotations

/-! ## Setting up -/

/-- A rotation of an empty group takes place or fails. -/
theorem RotationEnd.of_empty {s' : Scene} {outcome : Outcome Rotation}
    (hempty : (s.engine.viewOf group).latest? = none) (h : RotationEnd group s s' outcome) :
    SetUpEnd group s s' (outcome.map .bootstrapped) := by
  cases h with
  | failed cause h => exact .failed cause h
  | exhausted hnext h =>
    rw [GroupView.next?, hempty] at hnext
    cases hnext
  | cutOff m n e advanced hwrites =>
    rw [Engine.writeNumber?_of_empty hempty] at hwrites
    cases hwrites
  | rotated n frozen advanced hrotations hfrozen =>
    exact .bootstrapped _ hempty (.rotated n frozen advanced hrotations hfrozen)

/-- A repair: the alias, which is on no index of its group, is pointed at the latest one. -/
theorem upholds_repair {n : UInt64} (hview : s.engine.viewOf view.group = view) (h : s.Still s₁)
    (hdown : s.engine.writeNumber? view.group = none) (hlatest : view.latest? = some n) :
    Upholds disturbed s.Permits (fun result s' => SetUpEnd view.group s s' result.2) (do
      match ← ask (.aliasTarget view.group.aliasName) with
      | .error cause => return (view, .error (.failed (.engineUnavailable cause)))
      | .ok stale =>
        match ← view.pointTo n stale with
        | (moved, .error cause) => return (moved, .error (.failed cause))
        | (moved, .ok ()) => return (moved, .ok (.repaired (moved.segment n)))) s₁ := by
  refine upholds_aliasTarget h (fun s₂ hstill₂ => ?_) fun cause s₂ hstill₂ =>
    .failed _ hstill₂.unchanged
  have hmove : s.Permits s₂ (.call (.moveAlias view.group.aliasName (view.group.nameOf n)
      (s.engine.targetsOf view.group.aliasName).min?)) := by
    refine fun hs => ⟨view.group, n, rfl, rfl, ?_, fun target m hwrites => ?_⟩
    · rw [hstill₂.same.targetsOf]
    · have hnumber := hs.writeNumber?_eq_some_iff.mpr
        ⟨target, (Engine.writesTo_congr hstill₂.same.aliases).mp hwrites⟩
      rw [hdown] at hnumber
      cases hnumber
  refine upholds_bind.mpr ((upholds_pointTo rfl hmove).imp fun result s₃ h₃ => ?_)
  rcases h₃ with ⟨hstill₃, moved, cause, rfl⟩ | ⟨rfl, hindex, engine, rfl, hsame₃⟩
  · exact .failed _ (hstill₂.trans hstill₃).unchanged
  refine .repaired n hdown (by rw [hview, hlatest])
    (.of_move hstill₂.same.aliases hindex hsame₃) ?_
  rw [Scene.rotations_next_call, hstill₂.rotations]

/-- **What setting up does.** -/
theorem upholds_setUp (maxSegments : UInt32) (hgroup : view.group = group)
    (hview : s.engine.viewOf group = view) (h : s.Quiet s₁) :
    (view.setUp maxSegments).Upholds disturbed s.Permits
      (fun result s' => SetUpEnd group s s' result.2) s₁ := by
  subst hgroup
  have hstill : s.Still s₁ := h.still
  unfold GroupView.setUp
  by_cases hcollision : view.collision = true
  · simp only [hcollision, if_true, upholds_pure]
    exact .failed _ hstill.unchanged
  simp only [hcollision]
  by_cases hup : view.isUp = true
  · simp only [hup, if_true]
    exact .alreadyUp (by rw [hview, hup]) h
  simp only [hup]
  have hdown : s.engine.writeNumber? view.group = none := by
    rw [← Engine.viewOf_target, hview]
    · simpa [GroupView.isUp] using hup
    · rw [← Engine.viewOf_collision, hview]
      exact Bool.eq_false_iff.mpr hcollision
  cases hlatest : view.latest? with
  | none =>
    refine upholds_record.mpr ⟨fun _ => trivial, fun _ e₂ h₂ => ?_⟩
    obtain rfl : e₂ = s₁.engine := h₂
    have hstill₂ : s.Still (s₁.next (.record .creatingFirstIndex) () s₁.engine) :=
      hstill.trans (.next rfl (.refl _))
    refine upholds_bind.mpr ((upholds_rotate maxSegments rfl hview hstill₂).imp
      fun result s' hend => ?_)
    exact hend.of_empty (by rw [hview, hlatest])
  | some n => exact upholds_repair hview hstill hdown hlatest

/-! ## Removing an index -/

/-- Deleting an index that the group's alias is not on. -/
theorem upholds_delete {segment : Segment} (h : s.Still s₁)
    (hfree : ∀ n, segment = view.segment n → s.engine.Sound →
      view.group.nameOf n ∉ s.engine.targetsOf view.group.aliasName) :
    (view.delete segment).Upholds disturbed s.Permits (fun _ s' => RemovalEnd s s') s₁ := by
  unfold GroupView.delete
  cases hmember : view.requireMember segment with
  | error cause => exact ⟨h.rotations, fun _ => h.same.aliasState⟩
  | ok n =>
    obtain rfl := GroupView.requireMember_eq_ok_iff.mp hmember
    have hguard : s.Permits s₁ (.call (.deleteIndex (view.group.nameOf n))) := by
      refine fun hs => ⟨view.group, n, rfl, ?_⟩
      rw [h.same.targetsOf]
      exact hfree n rfl hs
    refine upholds_ask.mpr ⟨hguard, fun reply e₂ h₂ => ?_⟩
    have hrotations : (s₁.next _ reply e₂).rotations = s.rotations := by
      rw [Scene.rotations_next_call, h.rotations]
    rcases disturbed_deleteIndex h₂ with ⟨hsame, rfl | ⟨cause, rfl⟩⟩ | ⟨rfl, -, hsame⟩
    · exact ⟨hrotations, fun _ => (h.same.trans hsame).aliasState⟩
    · exact ⟨hrotations, fun _ => (h.same.trans hsame).aliasState⟩
    · refine ⟨hrotations, fun hs aliasName => ?_⟩
      have hfree₁ := hfree n rfl hs
      rw [← h.same.targetsOf] at hfree₁
      rw [← h.same.aliasState]
      exact (h.same.sound hs).aliasState_of_delete hfree₁ hsame aliasName

/-- **What removing an index does.** -/
theorem upholds_removeSegment {segment : Segment} (h : s.Still s₁) :
    (view.removeSegment segment).Upholds disturbed s.Permits (fun _ s' => RemovalEnd s s') s₁ := by
  unfold GroupView.removeSegment
  have hend : ∀ s₂, s.Still s₂ → RemovalEnd s s₂ := fun s₂ hstill₂ =>
    ⟨hstill₂.rotations, fun _ => hstill₂.same.aliasState⟩
  refine upholds_aliasTarget h (fun s₂ hstill₂ => ?_) fun cause s₂ hstill₂ => hend s₂ hstill₂
  by_cases htarget : (s.engine.targetsOf view.group.aliasName).min? = some segment.name
  · simp only [htarget, if_true, upholds_pure]
    exact hend s₂ hstill₂
  simp only [htarget]
  have hfree : ∀ n, segment = view.segment n → s.engine.Sound →
      view.group.nameOf n ∉ s.engine.targetsOf view.group.aliasName := by
    rintro n rfl hs hmem
    exact htarget ((min?_eq_some_iff (hs.size_le_one _)).mpr hmem)
  refine upholds_bind.mpr ((upholds_delete hstill₂ hfree).imp fun result s₃ hend₃ => ?_)
  rcases result with ⟨shrunk, cause | answer⟩
  · exact hend₃
  cases answer with
  | false => exact hend₃
  | true =>
    refine upholds_bind.mpr ((upholds_offerRebuild (fun _ _ => trivial)
      (fun _ _ _ => trivial)).imp fun _ s₄ h₄ => ?_)
    refine ⟨h₄.2.trans hend₃.rotations, fun hs => ?_⟩
    rw [h₄.1]
    exact hend₃.aliasState hs

/-! ## Operations on a fresh view -/

/-- Taking a view under disturbance. -/
theorem upholds_disturbed_view (group : IndexGroup) (s : Scene) :
    group.view.Upholds disturbed s.Permits (fun result s' => s.Quiet s' ∧
      (result = .ok (s.engine.viewOf group) ∨
        ∃ cause, result = .error (.engineUnavailable cause))) s := by
  have henv : ∀ (e : Engine) (request : EngineCall) (reply : request.Reply) (e' : Engine),
      request.isMutation = false → disturbed e (.call request) reply e' → e.Same e' ∧
        (reply = (e.respond request).2 ∨ (True ∧ ∃ cause, reply = .error cause)) := by
    intro e request reply e' hread h
    rw [true_and]
    exact disturbed_read hread h
  have hview := upholds_view henv s.permits_of_isRead group s
  simpa only [true_and] using hview

/-- **What setting up a group does.** -/
theorem upholds_group_setUp (group : IndexGroup) (maxSegments : UInt32) (s : Scene) :
    (group.setUp maxSegments).Upholds disturbed s.Permits (fun outcome s' =>
      SetUpEnd group s s' outcome) s := by
  unfold IndexGroup.setUp IndexGroup.withView
  refine upholds_bind.mpr ((upholds_disturbed_view group s).imp fun result s₁ h => ?_)
  obtain ⟨hquiet, rfl | ⟨cause, rfl⟩⟩ := h
  · exact upholds_bind.mpr (upholds_setUp maxSegments (s.engine.viewOf_group group) rfl hquiet)
  · exact .failed _ hquiet.still.unchanged

/-- **What rotating a group does.** -/
theorem upholds_group_rotate (group : IndexGroup) (maxSegments : UInt32) (s : Scene) :
    (group.rotate maxSegments).Upholds disturbed s.Permits (fun outcome s' =>
      RotationEnd group s s' outcome) s := by
  unfold IndexGroup.rotate IndexGroup.withView
  refine upholds_bind.mpr ((upholds_disturbed_view group s).imp fun result s₁ h => ?_)
  obtain ⟨hquiet, rfl | ⟨cause, rfl⟩⟩ := h
  · exact upholds_bind.mpr
      (upholds_rotate maxSegments (s.engine.viewOf_group group) rfl hquiet.still)
  · exact .failed _ hquiet.still.unchanged

theorem SetUpEnd.of_leads {maxSegments : UInt32} {s' : Scene} {outcome : Outcome SetUp}
    (h : Leads disturbed (group.setUp maxSegments, s) (.done outcome, s')) :
    SetUpEnd group s s' outcome :=
  (upholds_group_setUp group maxSegments s).steps h

theorem RotationEnd.of_leads {maxSegments : UInt32} {s' : Scene} {outcome : Outcome Rotation}
    (h : Leads disturbed (group.rotate maxSegments, s) (.done outcome, s')) :
    RotationEnd group s s' outcome :=
  (upholds_group_rotate group maxSegments s).steps h

/-- **What removing an index of a group does.** -/
theorem upholds_group_removeSegment (group : IndexGroup) (name : String) (s : Scene) :
    (group.removeSegment name).Upholds disturbed s.Permits (fun _ s' => RemovalEnd s s') s := by
  unfold IndexGroup.removeSegment
  cases group.parse name with
  | error cause => exact ⟨rfl, fun _ _ => rfl⟩
  | ok segment =>
    refine upholds_bind.mpr ((upholds_disturbed_view group s).imp fun result s₁ h => ?_)
    obtain ⟨hquiet, rfl | ⟨cause, rfl⟩⟩ := h
    · exact upholds_bind.mpr (upholds_removeSegment hquiet.still)
    · exact ⟨hquiet.still.rotations, fun _ => hquiet.same.aliasState⟩

/-- How setting up groups one after the other ends: each of them begins where the one before it
ended. -/
inductive SetUpsEnd : Scene → Scene → List (IndexGroup × Outcome SetUp) → Prop
  | nil (s : Scene) : SetUpsEnd s s []
  | cons {s s' s'' : Scene} {group : IndexGroup} {outcome : Outcome SetUp}
      {outcomes : List (IndexGroup × Outcome SetUp)} (first : SetUpEnd group s s' outcome)
      (evolves : s.engine.Sound → s.Evolves s') (rest : SetUpsEnd s' s'' outcomes) :
      SetUpsEnd s s'' ((group, outcome) :: outcomes)

/-- **What setting up groups one after the other does.** -/
theorem upholds_setUpEach (maxSegments : UInt32) (groups : List IndexGroup) (s : Scene) :
    (setUpEach maxSegments groups).Upholds disturbed s.Permits (fun outcomes s' =>
      SetUpsEnd s s' outcomes ∧ outcomes.map Prod.fst = groups) s := by
  induction groups generalizing s with
  | nil => exact ⟨.nil s, rfl⟩
  | cons group groups ih =>
    refine upholds_bind.mpr (((upholds_group_setUp group maxSegments s).evolves
      fun _ => .refl).imp fun outcome s₁ h => ?_)
    obtain ⟨hfirst, hevolves⟩ := h
    have hpermits : ∀ s' effect, s₁.Permits s' effect → s.Permits s' effect :=
      fun s' effect h hs => h ((hevolves hs).sound hs)
    refine upholds_bind.mpr (((ih s₁).permit hpermits).imp fun outcomes s₂ h => ?_)
    exact ⟨.cons hfirst hevolves h.1, by rw [List.map_cons, h.2]⟩

end Rollover
