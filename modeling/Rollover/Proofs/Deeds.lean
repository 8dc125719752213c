import Rollover.Proofs.Sound

/-!
# What an operation does, to the letter

When every call is answered, nothing about a rotation is left open except whether its jobs are taken
on.  This file follows a rotation and setting up through such a run and writes down all that they
do: the result, what the engine has afterwards, and the *deeds* in between (`Scene.deeds`), which
are the calls that ask for a change, the jobs and the entries of the activity log, in the order in
which they came.  Questions are not counted among the deeds, and neither is the note that a rebuild
was not taken on.

`RotationCourse` has one case for each place at which a rotation can stop: an index is in the
alias's way, there is no number left, the engine does not create the index, the flush counter of the
index that the alias has left is full; or nothing stops it.  `SetUpCourse` adds the two ways in
which setting up does without a rotation.  The engine is arbitrary, except that the index which the
alias is on has the name that the group gives it.
-/

namespace Rollover

open Program Environment

/-! ## Deeds -/

/-- Whether an effect is more than a question, and other than the note that a rebuild was not taken
on. -/
def Effect.isDeed : Effect → Bool
  | .call request => request.isMutation
  | .submit _ => true
  | .record entry => entry != .rangesNotRebuilt

/-- The job that an effect hands over. -/
def Effect.job? : Effect → Option Job
  | .submit job => some job
  | .call _ | .record _ => none

theorem Effect.isDeed_of_isRead {effect : Effect} (h : effect.isRead = true) :
    effect.isDeed = false := by
  cases effect with
  | call request => simpa [isRead, isDeed] using h
  | submit | record => cases h

namespace Scene

variable {s s' s'' : Scene}

/-- What was done, oldest first. -/
def deeds (s : Scene) : List Effect :=
  (s.past.reverse.map Moment.effect).filter Effect.isDeed

theorem deeds_next (s : Scene) (effect : Effect) (reply : effect.Reply) (engine : Engine) :
    (s.next effect reply engine).deeds = s.deeds ++ [effect].filter Effect.isDeed := by
  simp [deeds]

theorem deeds_next_of_isDeed {effect : Effect} (h : effect.isDeed = true) (s : Scene)
    (reply : effect.Reply) (engine : Engine) :
    (s.next effect reply engine).deeds = s.deeds ++ [effect] := by
  rw [deeds_next, List.filter_cons_of_pos h, List.filter_nil]

/-- The jobs that were handed over, oldest first. -/
def handed (s : Scene) : List Job :=
  s.past.reverse.filterMap fun m => m.effect.job?

theorem handed_next (s : Scene) (effect : Effect) (reply : effect.Reply) (engine : Engine) :
    (s.next effect reply engine).handed = s.handed ++ effect.job?.toList := by
  rw [handed, past_next, List.reverse_cons, List.filterMap_append, ← handed]
  cases h : effect.job? <;> simp [h]

@[simp] theorem handed_next_call (s : Scene) (request : EngineCall) (reply : request.Reply)
    (engine : Engine) : (s.next (.call request) reply engine).handed = s.handed := by
  simp [handed_next, Effect.job?]

@[simp] theorem handed_next_submit (s : Scene) (job : Job) (reply : Except Error Unit)
    (engine : Engine) : (s.next (.submit job) reply engine).handed = s.handed ++ [job] := by
  simp [handed_next, Effect.job?]

@[simp] theorem handed_next_record (s : Scene) (entry : Activity) (engine : Engine) :
    (s.next (.record entry) () engine).handed = s.handed := by
  simp [handed_next, Effect.job?]

/-- Every job that was handed over is among the deeds. -/
theorem handed_eq_deeds (s : Scene) : s.handed = s.deeds.filterMap Effect.job? := by
  have hjob : ∀ effect : Effect,
      (if effect.isDeed = true then effect.job? else none) = effect.job? := by
    intro effect
    cases effect with
    | call request => exact ite_self none
    | submit job => rfl
    | record entry => exact ite_self none
  rw [handed, deeds, List.filterMap_filter, List.filterMap_map, funext hjob]
  rfl

theorem Quiet.deeds (h : s.Quiet s') : s'.deeds = s.deeds := by
  obtain ⟨reads, hpast, hreads⟩ := h.past
  have hnone : (reads.reverse.map Moment.effect).filter Effect.isDeed = [] := by
    rw [List.filter_eq_nil_iff]
    intro effect heffect
    obtain ⟨m, hm, rfl⟩ := List.mem_map.mp heffect
    rw [Effect.isDeed_of_isRead (hreads m (List.mem_reverse.mp hm))]
    exact Bool.false_ne_true
  rw [Scene.deeds, hpast, List.reverse_append, List.map_append, List.filter_append, hnone,
    List.append_nil, Scene.deeds]

/-- Nothing has come of what happened from one scene to another: the engine was called, and it has
what it had. -/
structure Unmoved (s s' : Scene) : Prop where
  same : s.engine.Same s'.engine
  past : ∃ calls : List Moment, s'.past = calls ++ s.past ∧
    ∀ m ∈ calls, ∃ request, m.effect = .call request

namespace Unmoved

protected theorem refl (s : Scene) : s.Unmoved s :=
  ⟨.refl _, [], rfl, fun _ h => absurd h List.not_mem_nil⟩

protected theorem trans (h : s.Unmoved s') (h' : s'.Unmoved s'') : s.Unmoved s'' := by
  obtain ⟨calls, hpast, hcalls⟩ := h.past
  obtain ⟨calls', hpast', hcalls'⟩ := h'.past
  refine ⟨h.same.trans h'.same, calls' ++ calls, by rw [hpast', hpast, List.append_assoc], ?_⟩
  intro m hm
  exact (List.mem_append.mp hm).elim (hcalls' m) (hcalls m)

theorem next {request : EngineCall} {reply : request.Reply} {engine : Engine}
    (h : s.engine.Same engine) : s.Unmoved (s.next (.call request) reply engine) :=
  ⟨h, [⟨s.engine, .call request, reply⟩], rfl, fun m hm => by
    rw [List.mem_singleton.mp hm]
    exact ⟨request, rfl⟩⟩

/-- No job was handed over. -/
theorem handed (h : s.Unmoved s') : s'.handed = s.handed := by
  obtain ⟨calls, hpast, hcalls⟩ := h.past
  have hnone : calls.reverse.filterMap (fun m => m.effect.job?) = [] := by
    rw [List.filterMap_eq_nil_iff]
    intro m hm
    obtain ⟨request, hrequest⟩ := hcalls m (List.mem_reverse.mp hm)
    rw [hrequest, Effect.job?]
  rw [Scene.handed, hpast, List.reverse_append, List.filterMap_append, hnone, List.append_nil,
    Scene.handed]

end Unmoved

theorem Quiet.unmoved (h : s.Quiet s') : s.Unmoved s' := by
  obtain ⟨reads, hpast, hreads⟩ := h.past
  refine ⟨h.same, reads, hpast, fun m hm => ?_⟩
  have hread := hreads m hm
  obtain ⟨engine, effect, reply⟩ := m
  cases effect with
  | call request => exact ⟨request, rfl⟩
  | submit | record => cases hread

end Scene

/-! ## How a rotation goes -/

/-- The index after it was sealed. -/
def IndexState.seal (state : IndexState) : IndexState :=
  { state with flushes := state.flushes + 1, stats := { state.stats with readOnly := true } }

/-- What is said to be sealed was sealed, and nothing else has changed. -/
structure Engine.Sealed (e : Engine) (old : Option String) (e' : Engine) : Prop where
  indices : ∀ name, e'.indices[name]? =
    if old = some name then e.indices[name]?.map IndexState.seal else e.indices[name]?
  aliases : e'.aliases = e.aliases

/-- The engine after the group's alias has moved from its first target to the index `n`. -/
def Engine.pointed (e : Engine) (group : IndexGroup) (n : UInt64) : Engine :=
  { e with
    aliases := e.aliases.insert group.aliasName
      ((e.aliasState group.aliasName).retarget
        (e.movedTargets group.aliasName (group.nameOf n) (e.targetsOf group.aliasName).min?)) }

/-- The engine after the index `n` of a group was created. -/
def Engine.grown (e : Engine) (group : IndexGroup) (n : UInt64) : Engine :=
  { e with indices := e.indices.insert (group.nameOf n) {} }

/-- A group was rotated from the index `old`, if there is one, to the index `n`. -/
def Engine.Rotated (e : Engine) (group : IndexGroup) (old : Option UInt64) (n : UInt64)
    (e' : Engine) : Prop :=
  ((e.grown group n).pointed group n).Sealed (old.map group.nameOf) e'

/-- A rotation from the index `old`, if there is one, to the index `n`, in which nothing has
failed. -/
def Rotation.complete (group : IndexGroup) (old : Option UInt64) (n : UInt64) : Rotation :=
  { previous := old.map (.ordinary group.fullName)
    next := .ordinary group.fullName n
    sealed := old.isSome }

/-- The deeds by which an index is sealed. -/
def sealingDeeds (maxSegments : UInt32) (name : String) : List Effect :=
  [.call (.flush name), .call (.setReadOnly name), .submit (.optimize name maxSegments)]

/-- The deeds of a rotation after the alias has moved. -/
def retiringDeeds (maxSegments : UInt32) (group : IndexGroup) (old : Option UInt64) (n : UInt64) :
    List Effect :=
  (old.toList.flatMap fun m => sealingDeeds maxSegments (group.nameOf m)) ++
    [.record (.rotated (old.map group.nameOf) (group.nameOf n))]

/-- The deeds of a rotation from the index `old`, if there is one, to the index `n`, when `bound` is
what the alias is on before. -/
def rotationDeeds (maxSegments : UInt32) (group : IndexGroup) (bound : Option String)
    (old : Option UInt64) (n : UInt64) : List Effect :=
  [.call (.createIndex (group.nameOf n)), .submit (.rebuildRanges group),
    .call (.moveAlias group.aliasName (group.nameOf n) bound)] ++
  retiringDeeds maxSegments group old n

/-- How a rotation goes when every call is answered. -/
inductive RotationCourse (refuses : Bool) (maxSegments : UInt32) (group : IndexGroup)
    (s s' : Scene) : Outcome Rotation → Prop
  /-- An index has the name of the alias. -/
  | collision (hcollision : s.engine.hasIndex group.aliasName = true) (h : s.Quiet s') :
    RotationCourse refuses maxSegments group s s'
      (.error (.failed (.aliasCollision group.aliasName)))
  /-- There is no number left. -/
  | exhausted (hcollision : s.engine.hasIndex group.aliasName = false)
      (hnext : (s.engine.viewOf group).next? = none) (h : s.Quiet s') :
    RotationCourse refuses maxSegments group s s' (.error .overflow)
  /-- The engine does not create the next index. -/
  | refused (n : UInt64) (hcollision : s.engine.hasIndex group.aliasName = false)
      (hnext : (s.engine.viewOf group).next? = some n)
      (hrefused : refuses = true ∨
        s.engine.aliases.contains (group.nameOf n) = true)
      (h : s.Unmoved s') :
    RotationCourse refuses maxSegments group s s'
      (.error (.failed (.createRefused (group.nameOf n))))
  /-- The flush counter of the index that the alias has left is full. -/
  | cutOff (m : UInt64) (hwrites : s.engine.writeNumber? group = some m)
      (hfull : s.engine.Full (group.nameOf m)) :
    RotationCourse refuses maxSegments group s s' (.error .overflow)
  /-- The rotation takes place. -/
  | rotated (n : UInt64) (hcollision : s.engine.hasIndex group.aliasName = false)
      (hnext : (s.engine.viewOf group).next? = some n)
      (hcreates : refuses = false ∧
        s.engine.aliases.contains (group.nameOf n) = false)
      (hrotated : s.engine.Rotated group (s.engine.writeNumber? group) n s'.engine)
      (hdeeds : s'.deeds = s.deeds ++ rotationDeeds maxSegments group
        (s.engine.targetsOf group.aliasName).min? (s.engine.writeNumber? group) n) :
    RotationCourse refuses maxSegments group s s'
      (.ok (.complete group (s.engine.writeNumber? group) n))

variable {group : IndexGroup} {view : GroupView} {s s₁ : Scene} {maxSegments : UInt32}
  {refuses : Bool}

namespace Engine

variable {e e' e'' : Engine} {m n : UInt64} {old : Option String}

theorem Same.pointed (h : e.Same e') (group : IndexGroup) (n : UInt64) :
    (e.pointed group n).Same (e'.pointed group n) := by
  refine ⟨h.indices, ?_⟩
  rw [Engine.pointed, Engine.pointed, h.aliases, h.aliasState, h.targetsOf,
    movedTargets_congr h.aliases]

theorem Same.grown (h : e.Same e') (group : IndexGroup) (n : UInt64) :
    (e.grown group n).Same (e'.grown group n) := by
  refine ⟨?_, h.aliases⟩
  rw [Engine.grown, Engine.grown, h.indices]

theorem Sealed.of_same (h : e.Same e') (hsealed : e'.Sealed old e'') : e.Sealed old e'' where
  indices name := by rw [hsealed.indices, h.indices]
  aliases := hsealed.aliases.trans h.aliases

/-- What an engine has under a name after a new index was created. -/
theorem getElem?_grown (e : Engine) (group : IndexGroup) (n : UInt64) (name : String) :
    (e.grown group n).indices[name]? =
      if group.nameOf n = name then some {} else e.indices[name]? := by
  rw [grown, Std.ExtTreeMap.getElem?_insert]
  simp only [Std.LawfulEqOrd.compare_eq_iff_eq]

/-- A new index has not made another one's flush counter full. -/
theorem full_of_grown (hne : m ≠ n) (h : (e.grown group n).Full (group.nameOf m)) :
    e.Full (group.nameOf m) := by
  obtain ⟨state, hstate, hfull⟩ := h
  rw [getElem?_grown, if_neg fun hname => hne (IndexGroup.nameOf_inj.mp hname).symm] at hstate
  exact ⟨state, hstate, hfull⟩

/-- The index that a rotation has left is sealed. -/
theorem Rotated.getElem?_left {old : Option UInt64} (h : e.Rotated group old n e')
    (hfree : e.hasIndex (group.nameOf n) = false) (hm : old = some m)
    (hindex : e.hasIndex (group.nameOf m) = true) :
    ∃ state, e.indices[group.nameOf m]? = some state ∧
      e'.indices[group.nameOf m]? = some state.seal := by
  obtain ⟨state, hstate⟩ := hasIndex_iff.mp hindex
  have hname : ¬ group.nameOf n = group.nameOf m := by
    intro hname
    rw [hname, hindex] at hfree
    cases hfree
  have hleft := h.indices (group.nameOf m)
  rw [hm, Option.map_some, if_pos rfl] at hleft
  refine ⟨state, hstate, hleft.trans ?_⟩
  show (e.grown group n).indices[group.nameOf m]?.map IndexState.seal = some state.seal
  rw [getElem?_grown, if_neg hname, hstate, Option.map_some]

end Engine

/-- The target of an alias is asked for, after nothing but questions. -/
theorem steady_aliasTarget {α : Type} {goal : α → Scene → Prop} {aliasName : String}
    {f : (EngineCall.aliasTarget aliasName).Reply → Program α} (h : s.Quiet s₁)
    (hf : ∀ s₂, s.Quiet s₂ → (f (.ok (s.engine.targetsOf aliasName).min?)).Upholds (steady refuses)
      (fun _ _ => True) goal s₂) :
    (ask (.aliasTarget aliasName) >>= f).Upholds (steady refuses) (fun _ _ => True) goal s₁ := by
  refine upholds_ask.mpr ⟨trivial, fun reply e₂ h₂ => ?_⟩
  obtain ⟨hsame₂, hreply⟩ := answered_read rfl (answered_of_steady h₂)
  rw [Engine.respond, h.same.targetsOf] at hreply
  subst hreply
  exact hf _ (h.trans (.next rfl hsame₂))

/-- The next index is created, unless the engine refuses or an alias has its name.  Nothing is
asked of the environment but that it is steady about this one call. -/
theorem upholds_create_of_steady {env : Environment} {n : UInt64} (hview : view.group = group)
    (hfree : s.engine.hasIndex (group.nameOf n) = false)
    (hsteady : ∀ reply e', env s.engine (.call (.createIndex (group.nameOf n))) reply e' →
      steady refuses s.engine (.call (.createIndex (group.nameOf n))) reply e') :
    (view.create (view.segment n)).Upholds env (fun _ _ => True) (fun result s' =>
      (result = (view, .ok false) ∧ s.Unmoved s' ∧ (refuses = true ∨
          s.engine.aliases.contains (group.nameOf n) = true)) ∨
        (result = (view.insert n, .ok true) ∧ (refuses = false ∧
            s.engine.aliases.contains (group.nameOf n) = false) ∧
          (s.engine.grown group n).Same s'.engine ∧
          s'.deeds = s.deeds ++ [.call (.createIndex (group.nameOf n))])) s := by
  subst hview
  unfold GroupView.create
  simp only [GroupView.requireMember_eq_ok_iff.mpr rfl]
  refine upholds_ask.mpr ⟨trivial, fun reply e₁ h₁ => ?_⟩
  rcases steady_createIndex hfree (hsteady reply e₁ h₁) with
    ⟨rfl, hsame, hrefused⟩ | ⟨rfl, hcreates, hsame⟩
  · exact Or.inl ⟨rfl, .next hsame, hrefused⟩
  · exact Or.inr ⟨rfl, hcreates, hsame, Scene.deeds_next_of_isDeed rfl _ _ _⟩

/-- A rebuild is handed over, and whoever takes it does not touch the engine. -/
theorem disturbed_offerRebuild (hview : view.group = group) (s : Scene) :
    view.offerRebuild.Upholds disturbed (fun _ _ => True) (fun _ s' => s'.engine = s.engine ∧
      s'.deeds = s.deeds ++ [.submit (.rebuildRanges group)]) s := by
  subst hview
  unfold GroupView.offerRebuild
  refine upholds_submit.mpr ⟨trivial, fun reply e₁ h₁ => ?_⟩
  obtain rfl : e₁ = s.engine := h₁
  have hdeeds : (s.next (.submit (.rebuildRanges view.group)) reply s.engine).deeds =
      s.deeds ++ [.submit (.rebuildRanges view.group)] := Scene.deeds_next_of_isDeed rfl _ _ _
  cases reply with
  | ok => exact ⟨rfl, hdeeds⟩
  | error cause =>
    -- the note is no deed
    refine upholds_record.mpr ⟨trivial, fun _ e₂ h₂ => ⟨h₂, ?_⟩⟩
    exact (Scene.deeds_next _ (.record .rangesNotRebuilt) _ _).trans
      ((List.append_nil _).trans hdeeds)

/-- The alias is pointed at an index of the group that exists. -/
theorem steady_pointTo {n : UInt64} {bound : Option String} (hview : view.group = group)
    (hcollision : s.engine.hasIndex group.aliasName = false)
    (hindex : s.engine.hasIndex (group.nameOf n) = true)
    (hbound : (s.engine.targetsOf group.aliasName).min? = bound) :
    (view.pointTo n bound).Upholds (steady refuses) (fun _ _ => True) (fun result s' =>
      result = ({ view with target := some n }, .ok ()) ∧
        (s.engine.pointed group n).Same s'.engine ∧
        s' = s.next (.call (.moveAlias group.aliasName (group.nameOf n) bound)) (.ok ())
          s'.engine) s := by
  subst hview
  subst hbound
  unfold GroupView.pointTo
  refine upholds_ask.mpr ⟨trivial, fun reply e₁ h₁ => ?_⟩
  obtain ⟨rfl, hsame⟩ := answered_moveAlias hcollision hindex (answered_of_steady h₁)
  exact ⟨rfl, hsame, rfl⟩

/-- A flush and a change to read-only seal an index. -/
theorem Engine.Sealed.of_insert {e e₁ e₂ : Engine} {name : String} {state : IndexState}
    (hstate : e.indices[name]? = some state)
    (hflushed : Engine.Same { e with
      indices := e.indices.insert name { state with flushes := state.flushes + 1 } } e₁)
    (hfrozen : Engine.Same { e₁ with indices := e₁.indices.insert name state.seal } e₂) :
    e.Sealed (some name) e₂ where
  indices other := by
    rw [hfrozen.indices, Std.ExtTreeMap.getElem?_insert, hflushed.indices,
      Std.ExtTreeMap.getElem?_insert]
    simp only [Std.LawfulEqOrd.compare_eq_iff_eq, Option.some.injEq]
    by_cases hname : name = other
    · rw [if_pos hname, if_pos hname, ← hname, hstate]
      rfl
    · rw [if_neg hname, if_neg hname, if_neg hname]
  aliases := hfrozen.aliases.trans hflushed.aliases

/-- An index that exists is sealed, unless its flush counter is full. -/
theorem steady_sealIndex {name : String} (hindex : s.engine.hasIndex name = true) :
    (GroupView.sealIndex maxSegments name).Upholds (steady refuses) (fun _ _ => True)
      (fun result s' => (result = .ok true ∧ s.engine.Sealed (some name) s'.engine ∧
          s'.deeds = s.deeds ++ sealingDeeds maxSegments name) ∨
        (result = .error .overflow ∧ s.engine.Full name)) s := by
  obtain ⟨state, hstate⟩ := Engine.hasIndex_iff.mp hindex
  unfold GroupView.sealIndex
  refine upholds_ask.mpr ⟨trivial, fun reply e₁ h₁ => ?_⟩
  rcases answered_flush hstate (answered_of_steady h₁) with ⟨rfl, -, hfull⟩ | ⟨rfl, hflushed⟩
  · exact Or.inr ⟨rfl, hfull⟩
  have hstate₁ : e₁.indices[name]? = some { state with flushes := state.flushes + 1 } := by
    rw [hflushed.indices, Std.ExtTreeMap.getElem?_insert_self]
  refine upholds_ask.mpr ⟨trivial, fun reply e₂ h₂ => ?_⟩
  obtain ⟨rfl, hfrozen⟩ := answered_setReadOnly hstate₁ (answered_of_steady h₂)
  refine upholds_submit.mpr ⟨trivial, fun reply e₃ h₃ => ?_⟩
  obtain rfl := h₃.1
  refine Or.inl ⟨rfl, .of_insert hstate hflushed hfrozen, ?_⟩
  rw [Scene.deeds_next_of_isDeed rfl, Scene.deeds_next_of_isDeed rfl,
    Scene.deeds_next_of_isDeed rfl, List.append_assoc, List.append_assoc]
  rfl

/-- The end of a rotation: what the alias has left is sealed, unless its flush counter is full. -/
theorem steady_retire {previous : Option UInt64} {n : UInt64} (hview : view.group = group)
    (hprevious : ∀ m, previous = some m → s.engine.hasIndex (group.nameOf m) = true) :
    (view.retire maxSegments previous n).Upholds (steady refuses) (fun _ _ => True)
      (fun outcome s' => (outcome = .ok (.complete group previous n) ∧
          s.engine.Sealed (previous.map group.nameOf) s'.engine ∧
          s'.deeds = s.deeds ++ retiringDeeds maxSegments group previous n) ∨
        (outcome = .error .overflow ∧
          ∃ m, previous = some m ∧ s.engine.Full (group.nameOf m))) s := by
  subst hview
  unfold GroupView.retire
  cases previous with
  | none =>
    refine upholds_record.mpr ⟨trivial, fun _ e₁ h₁ => ?_⟩
    obtain rfl := h₁.1
    exact Or.inl ⟨rfl, ⟨fun _ => rfl, rfl⟩, Scene.deeds_next_of_isDeed rfl _ _ _⟩
  | some m =>
    refine upholds_bind.mpr ((steady_sealIndex (hprevious m rfl)).imp fun result s₂ h₂ => ?_)
    rcases h₂ with ⟨rfl, hsealed, hdeeds⟩ | ⟨rfl, hfull⟩
    · refine upholds_record.mpr ⟨trivial, fun _ e₃ h₃ => ?_⟩
      obtain rfl := h₃.1
      refine Or.inl ⟨rfl, hsealed, ?_⟩
      rw [Scene.deeds_next_of_isDeed rfl, hdeeds, List.append_assoc]
      rfl
    · exact Or.inr ⟨rfl, m, rfl, hfull⟩

/-- The second half of a rotation, once the next index is there. -/
theorem steady_redirect {n : UInt64} {previous : Option UInt64} {bound : Option String}
    (hview : view.group = group) (hcollision : s.engine.hasIndex group.aliasName = false)
    (hindex : s.engine.hasIndex (group.nameOf n) = true)
    (hbound : (s.engine.targetsOf group.aliasName).min? = bound)
    (hprevious : ∀ m, previous = some m → s.engine.hasIndex (group.nameOf m) = true) :
    Upholds (steady refuses) (fun _ _ => True) (fun (result : GroupView × Outcome Rotation) s' =>
      (result.2 = .ok (.complete group previous n) ∧
          (s.engine.pointed group n).Sealed (previous.map group.nameOf) s'.engine ∧
          s'.deeds = s.deeds ++ [.submit (.rebuildRanges group),
            .call (.moveAlias group.aliasName (group.nameOf n) bound)] ++
              retiringDeeds maxSegments group previous n) ∨
        (result.2 = .error .overflow ∧
          ∃ m, previous = some m ∧ s.engine.Full (group.nameOf m))) (do
      view.offerRebuild
      match ← view.pointTo n bound with
      | (moved, .error cause) => return (moved, .error (.failed cause))
      | (moved, .ok ()) =>
        let outcome ← moved.retire maxSegments previous n
        return (moved, outcome)) s := by
  refine upholds_bind.mpr (((disturbed_offerRebuild hview s).restrict fun _ _ _ _ h =>
    disturbed_of_answered (answered_of_steady h)).imp fun _ s₁ h₁ => ?_)
  obtain ⟨hengine₁, hdeeds₁⟩ := h₁
  rw [← hengine₁] at hcollision hindex hbound hprevious ⊢
  refine upholds_bind.mpr ((steady_pointTo hview hcollision hindex hbound).imp
    fun result s₂ h₂ => ?_)
  obtain ⟨rfl, hsame₂, hmoved⟩ := h₂
  have hdeeds₂ := congrArg Scene.deeds hmoved
  rw [Scene.deeds_next_of_isDeed rfl] at hdeeds₂
  have hprevious₂ : ∀ m, previous = some m → s₂.engine.hasIndex (group.nameOf m) = true := by
    intro m hm
    rw [hsame₂.hasIndex]
    exact hprevious m hm
  refine upholds_bind.mpr ((steady_retire hview hprevious₂).imp fun outcome s₃ h₃ => ?_)
  rcases h₃ with ⟨rfl, hsealed, hdeeds₃⟩ | ⟨rfl, m, hm, hfull⟩
  · refine Or.inl ⟨rfl, ⟨fun name => ?_, hsealed.aliases.trans hsame₂.aliases⟩, ?_⟩
    · rw [hsealed.indices, hsame₂.indices]
    · rw [hdeeds₃, hdeeds₂, hdeeds₁]
      simp
  · rw [Engine.Full, hsame₂.indices] at hfull
    exact Or.inr ⟨rfl, m, hm, hfull⟩

/-- A rotation on a view of the group. -/
theorem steady_rotate_view (hgroup : view.group = group) (hview : s.engine.viewOf group = view)
    (hown : ∀ m, s.engine.writeNumber? group = some m →
      s.engine.hasIndex (group.nameOf m) = true)
    (hquiet : s.Quiet s₁) :
    (view.rotate maxSegments).Upholds (steady refuses) (fun _ _ => True) (fun result s' =>
      RotationCourse refuses maxSegments group s s' result.2) s₁ := by
  subst hgroup
  have hcollides : s.engine.hasIndex view.group.aliasName = view.collision := by
    rw [← Engine.viewOf_collision, hview]
  unfold GroupView.rotate
  by_cases hcollision : view.collision = true
  · simp only [hcollision, if_true, upholds_pure]
    exact .collision (hcollides.trans hcollision) hquiet
  simp only [hcollision]
  rw [Bool.not_eq_true] at hcollision
  rw [hcollision] at hcollides
  cases hnext : view.next? with
  | none => exact .exhausted hcollides (by rw [hview, hnext]) hquiet
  | some n =>
    have hnext' : (s.engine.viewOf view.group).next? = some n := by rw [hview, hnext]
    have hfree : s.engine.hasIndex (view.group.nameOf n) = false :=
      Engine.hasIndex_nameOf_of_above fun m hm => Engine.lt_of_viewOf_next? hnext' hm
    have hprevious : (s.engine.targetsOf view.group.aliasName).min?.bind view.held? =
        s.engine.writeNumber? view.group := by
      rw [Engine.writeNumber?, hview]
    refine steady_aliasTarget hquiet fun s₂ hquiet₂ => ?_
    -- the next index is created
    have hfree₂ : s₂.engine.hasIndex (view.group.nameOf n) = false :=
      (hquiet₂.same.hasIndex _).trans hfree
    refine upholds_bind.mpr ((upholds_create_of_steady rfl hfree₂ fun _ _ h => h).imp
      fun result s₃ h₃ => ?_)
    rw [hquiet₂.same.aliases] at h₃
    rcases h₃ with ⟨rfl, hunmoved, hrefused⟩ | ⟨rfl, hcreates, hgrown₃, hdeeds₃⟩
    · exact .refused n hcollides hnext' hrefused (hquiet₂.unmoved.trans hunmoved)
    have hgrown : (s.engine.grown view.group n).Same s₃.engine :=
      (hquiet₂.same.grown view.group n).trans hgrown₃
    have hcollision₃ : s₃.engine.hasIndex view.group.aliasName = false := by
      refine Engine.hasIndex_aliasName_of_gained hcollides fun name hname => ?_
      rw [hgrown.hasIndex] at hname
      exact (Engine.hasIndex_insert.mp hname).imp_left fun heq => ⟨n, heq⟩
    have hindex₃ : ∀ name, name = view.group.nameOf n ∨ s.engine.hasIndex name = true →
        s₃.engine.hasIndex name = true := fun name hname =>
      (hgrown.hasIndex name).trans (Engine.hasIndex_insert.mpr hname)
    have hbound : (s₃.engine.targetsOf view.group.aliasName).min? =
        (s.engine.targetsOf view.group.aliasName).min? := by
      rw [hgrown.targetsOf]
      rfl
    refine (steady_redirect (view.group_insert n) hcollision₃ (hindex₃ _ (Or.inl rfl)) hbound
      fun m hm => hindex₃ _ (Or.inr (hown m (hprevious ▸ hm)))).imp fun result s₄ h₄ => ?_
    rw [hprevious] at h₄
    rcases h₄ with ⟨hresult, hsealed, hdeeds₄⟩ | ⟨hresult, m, hm, hfull⟩
    · rw [hresult]
      refine .rotated n hcollides hnext' hcreates ?_ ?_
      · exact .of_same (hgrown.pointed view.group n) hsealed
      · rw [hdeeds₄, hdeeds₃, hquiet₂.deeds]
        simp [rotationDeeds]
    · have hne : m ≠ n := by
        rintro rfl
        rw [hown m hm] at hfree
        cases hfree
      rw [hresult]
      refine .cutOff m hm (Engine.full_of_grown hne ?_)
      rw [Engine.Full, ← hgrown.indices]
      exact hfull

/-! ## How setting up goes -/

/-- How setting up goes when every call is answered. -/
inductive SetUpCourse (refuses : Bool) (maxSegments : UInt32) (group : IndexGroup)
    (s s' : Scene) : Outcome SetUp → Prop
  /-- An index has the name of the alias. -/
  | collision (hcollision : s.engine.hasIndex group.aliasName = true) (h : s.Quiet s') :
    SetUpCourse refuses maxSegments group s s'
      (.error (.failed (.aliasCollision group.aliasName)))
  /-- The alias is on an index of the group. -/
  | alreadyUp (n : UInt64) (htarget : (s.engine.viewOf group).target = some n) (h : s.Quiet s') :
    SetUpCourse refuses maxSegments group s s' (.ok .alreadyUp)
  /-- The alias is not on an index of the group, and goes to the latest one. -/
  | repaired (n : UInt64) (s₂ : Scene) (hdown : s.engine.writeNumber? group = none)
      (hlatest : (s.engine.viewOf group).latest? = some n)
      (hpointed : (s.engine.pointed group n).Same s'.engine) (hquiet : s.Quiet s₂)
      (hmoved : s' = s₂.next (.call (.moveAlias group.aliasName (group.nameOf n)
        (s.engine.targetsOf group.aliasName).min?)) (.ok ()) s'.engine) :
    SetUpCourse refuses maxSegments group s s' (.ok (.repaired (.ordinary group.fullName n)))
  /-- The group has no index, and the engine does not create one. -/
  | refused (hempty : (s.engine.viewOf group).latest? = none)
      (hrefused : refuses = true ∨
        s.engine.aliases.contains (group.nameOf GroupView.firstNumber) = true)
      (h : s.engine.Same s'.engine) :
    SetUpCourse refuses maxSegments group s s'
      (.error (.failed (.createRefused (group.nameOf GroupView.firstNumber))))
  /-- The group has no index, and gets its first one by a rotation. -/
  | bootstrapped (hempty : (s.engine.viewOf group).latest? = none)
      (hrotated : s.engine.Rotated group none GroupView.firstNumber s'.engine)
      (hdeeds : s'.deeds = s.deeds ++ .record .creatingFirstIndex ::
        rotationDeeds maxSegments group (s.engine.targetsOf group.aliasName).min? none
          GroupView.firstNumber) :
    SetUpCourse refuses maxSegments group s s'
      (.ok (.bootstrapped (.complete group none GroupView.firstNumber)))

/-- Setting up an empty group goes on as a rotation once the first entry was written. -/
theorem RotationCourse.of_empty {s' : Scene} {outcome : Outcome Rotation} (hquiet : s.Quiet s₁)
    (hcollision : s.engine.hasIndex group.aliasName = false)
    (hempty : (s.engine.viewOf group).latest? = none)
    (h : RotationCourse refuses maxSegments group
      (s₁.next (.record .creatingFirstIndex) () s₁.engine) s' outcome) :
    SetUpCourse refuses maxSegments group s s' (outcome.map .bootstrapped) := by
  have hsame : s.engine.Same s₁.engine := hquiet.same
  have hdown : s₁.engine.writeNumber? group = none :=
    Engine.writeNumber?_of_empty (by rw [hsame.viewOf, hempty])
  have hfirst : (s₁.engine.viewOf group).next? = some GroupView.firstNumber := by
    rw [hsame.viewOf, GroupView.next?, hempty]
  cases h with
  | collision hcollides =>
    rw [Scene.engine_next, hsame.hasIndex, hcollision] at hcollides
    cases hcollides
  | exhausted _ hnext =>
    rw [Scene.engine_next, hfirst] at hnext
    cases hnext
  | refused n _ hnext hrefused hunmoved =>
    obtain rfl := Option.some.inj (hfirst.symm.trans hnext)
    rw [Scene.engine_next, hsame.aliases] at hrefused
    exact .refused hempty hrefused (hsame.trans hunmoved.same)
  | cutOff m hwrites =>
    rw [Scene.engine_next, hdown] at hwrites
    cases hwrites
  | rotated n _ hnext hcreates hrotated hdeeds =>
    obtain rfl := Option.some.inj (hfirst.symm.trans hnext)
    rw [Scene.engine_next, hdown] at hrotated hdeeds ⊢
    rw [Scene.deeds_next_of_isDeed rfl, hquiet.deeds, hsame.targetsOf] at hdeeds
    refine .bootstrapped hempty (.of_same ((hsame.grown _ _).pointed _ _) hrotated) ?_
    rw [hdeeds, List.append_assoc]
    rfl

/-- A repair: the alias, which is on no index of its group, is pointed at the latest one. -/
theorem steady_repair {n : UInt64} (hview : s.engine.viewOf view.group = view)
    (hquiet : s.Quiet s₁) (hcollision : s.engine.hasIndex view.group.aliasName = false)
    (hdown : s.engine.writeNumber? view.group = none) (hlatest : view.latest? = some n)
    (hindex : s.engine.hasIndex (view.group.nameOf n) = true) :
    Upholds (steady refuses) (fun _ _ => True)
      (fun result s' => SetUpCourse refuses maxSegments view.group s s' result.2) (do
      match ← ask (.aliasTarget view.group.aliasName) with
      | .error cause => return (view, .error (.failed (.engineUnavailable cause)))
      | .ok stale =>
        match ← view.pointTo n stale with
        | (moved, .error cause) => return (moved, .error (.failed cause))
        | (moved, .ok ()) => return (moved, .ok (.repaired (moved.segment n)))) s₁ := by
  refine steady_aliasTarget hquiet fun s₂ hquiet₂ => ?_
  have hsame₂ := hquiet₂.same
  refine upholds_bind.mpr ((steady_pointTo rfl ((hsame₂.hasIndex _).trans hcollision)
    ((hsame₂.hasIndex _).trans hindex) (by rw [hsame₂.targetsOf])).imp fun result s₃ h₃ => ?_)
  obtain ⟨rfl, hpointed, hmoved⟩ := h₃
  exact .repaired n s₂ hdown (by rw [hview, hlatest]) ((hsame₂.pointed _ n).trans hpointed) hquiet₂
    hmoved

/-- Setting up on a view of the group. -/
theorem steady_setUp_view (hgroup : view.group = group) (hview : s.engine.viewOf group = view)
    (hown : ∀ n, s.engine.HasNumber group n → s.engine.hasIndex (group.nameOf n) = true)
    (hquiet : s.Quiet s₁) :
    (view.setUp maxSegments).Upholds (steady refuses) (fun _ _ => True) (fun result s' =>
      SetUpCourse refuses maxSegments group s s' result.2) s₁ := by
  subst hgroup
  have hcollides : s.engine.hasIndex view.group.aliasName = view.collision := by
    rw [← Engine.viewOf_collision, hview]
  unfold GroupView.setUp
  by_cases hcollision : view.collision = true
  · simp only [hcollision, if_true, upholds_pure]
    exact .collision (hcollides.trans hcollision) hquiet
  simp only [hcollision]
  rw [Bool.not_eq_true] at hcollision
  rw [hcollision] at hcollides
  have htarget := Engine.viewOf_target hcollides
  rw [hview] at htarget
  by_cases hup : view.isUp = true
  · simp only [hup, if_true]
    obtain ⟨n, hn⟩ := Option.isSome_iff_exists.mp hup
    exact .alreadyUp n (by rw [hview, hn]) hquiet
  simp only [hup]
  have hdown : s.engine.writeNumber? view.group = none := by
    rw [← htarget]
    simpa [GroupView.isUp] using hup
  cases hlatest : view.latest? with
  | none =>
    have hempty : (s.engine.viewOf view.group).latest? = none := by rw [hview, hlatest]
    refine upholds_record.mpr ⟨trivial, fun _ e₂ h₂ => ?_⟩
    obtain rfl : e₂ = s₁.engine := h₂.1
    -- from here it is a rotation that begins where the entry was written
    let s₂ := s₁.next (.record .creatingFirstIndex) () s₁.engine
    have hsame₂ : s.engine.Same s₂.engine := hquiet.same
    have hdown₂ : s₂.engine.writeNumber? view.group = none :=
      Engine.writeNumber?_of_empty (by rw [hsame₂.viewOf, hempty])
    have hrotate : (view.rotate maxSegments).Upholds (steady refuses) (fun _ _ => True)
        (fun result s' => RotationCourse refuses maxSegments view.group s₂ s' result.2) s₂ :=
      steady_rotate_view rfl ((hsame₂.viewOf _).trans hview)
        (fun m hm => by rw [hdown₂] at hm; cases hm) (.refl s₂)
    exact upholds_bind.mpr (hrotate.imp fun result s₃ h₃ => h₃.of_empty hquiet hcollides hempty)
  | some n =>
    have hnumber := (Engine.viewOf_latest?_eq_some_iff.mp (hview ▸ hlatest)).1
    exact steady_repair hview hquiet hcollides hdown hlatest (hown n hnumber)

/-! ## Operations on the group -/

/-- **How a rotation goes when every call is answered.** -/
theorem steady_rotate (maxSegments : UInt32)
    (hown : ∀ m, s.engine.writeNumber? group = some m →
      s.engine.hasIndex (group.nameOf m) = true) :
    (group.rotate maxSegments).Upholds (steady refuses) (fun _ _ => True) (fun outcome s' =>
      RotationCourse refuses maxSegments group s s' outcome) s := by
  unfold IndexGroup.rotate IndexGroup.withView
  refine upholds_bind.mpr (((answered_view group s).restrict fun _ _ _ _ =>
    answered_of_steady).imp fun result s₁ h => ?_)
  obtain ⟨hquiet, rfl⟩ := h
  exact upholds_bind.mpr (steady_rotate_view (Engine.viewOf_group _ _) rfl hown hquiet)

/-- **How setting up goes when every call is answered.** -/
theorem steady_setUp (maxSegments : UInt32)
    (hown : ∀ n, s.engine.HasNumber group n → s.engine.hasIndex (group.nameOf n) = true) :
    (group.setUp maxSegments).Upholds (steady refuses) (fun _ _ => True) (fun outcome s' =>
      SetUpCourse refuses maxSegments group s s' outcome) s := by
  unfold IndexGroup.setUp IndexGroup.withView
  refine upholds_bind.mpr (((answered_view group s).restrict fun _ _ _ _ =>
    answered_of_steady).imp fun result s₁ h => ?_)
  obtain ⟨hquiet, rfl⟩ := h
  exact upholds_bind.mpr (steady_setUp_view (Engine.viewOf_group _ _) rfl hown hquiet)

end Rollover
