import Rollover.Proofs.Checked
import Rollover.Proofs.Faults

/-!
# Operations that do not flush

The one call that counts something up is the flush: it cannot be carried out on an index whose
counter is full, and the operation under way is cut off there.  This file tells apart the effects
that flush from those that do not.

* A program that does not flush is not cut off by the engine, whatever faults the engine is behind
  (`Program.Upholds.intact_of_unflushing`); nor is one that flushes only indices whose counter is not
  full (`Program.Upholds.intact_of_affordable`).
* Effects that do not flush fill no counter (`Environment.faulty_not_full`).
* Setting up a group does not flush: it rotates the group only if the group has no index, and then
  there is a first number and nothing to seal (`upholds_setUp_unflushing`).

What a rotation does up to its end is followed once, in `upholds_rotate_of_room`, for any end.
-/

namespace Rollover

open Program

variable {α : Type} {view : GroupView} {s s' : Scene} {env : Environment}
  {guard : Scene → Effect → Prop} {goal : α → Scene → Prop}

/-! ## Counting flushes -/

/-- Whether an effect counts up the flushes of an index. -/
def Effect.isFlush : Effect → Bool
  | .call (.flush _) => true
  | .call _ | .submit _ | .record _ => false

/-- Whether a flush was cut off, because the flush counter was full. -/
def Moment.isCutOff : Moment → Bool
  | ⟨_, .call (.flush _), .ok .counterFull⟩ => true
  | _ => false

/-- From one scene to another no flush was cut off. -/
def Scene.Intact (s s' : Scene) : Prop :=
  ∃ moments : List Moment, s'.past = moments ++ s.past ∧ ∀ m ∈ moments, m.isCutOff = false

protected theorem Scene.Intact.refl (s : Scene) : s.Intact s :=
  ⟨[], rfl, fun _ h => absurd h List.not_mem_nil⟩

protected theorem Scene.Intact.trans {s'' : Scene} (h : s.Intact s') (h' : s'.Intact s'') :
    s.Intact s'' := by
  obtain ⟨moments, hpast, hmoments⟩ := h
  obtain ⟨moments', hpast', hmoments'⟩ := h'
  refine ⟨moments' ++ moments, by rw [hpast', hpast, List.append_assoc], fun m hm => ?_⟩
  exact (List.mem_append.mp hm).elim (hmoments' m) (hmoments m)

theorem Moment.isCutOff_of_not_flush {e : Engine} {effect : Effect} {reply : effect.Reply}
    (h : effect.isFlush = false) : Moment.isCutOff ⟨e, effect, reply⟩ = false := by
  cases effect with
  | call request =>
    cases request with
    | flush => cases h
    | listIndices | aliasExists | aliasTarget | createIndex | deleteIndex | setReadOnly | optimize
    | moveAlias => rfl
  | submit | record => rfl

/-- If the permitted effects are not cut off, the whole program is not. -/
theorem Program.Upholds.intact {p : Program α} (h : p.Upholds env guard goal s)
    (hguard : ∀ (s : Scene) (effect : Effect) (reply : effect.Reply) (engine : Engine),
      guard s effect → env s.engine effect reply engine →
        Moment.isCutOff ⟨s.engine, effect, reply⟩ = false) :
    p.Upholds env guard (fun result s' => goal result s' ∧ s.Intact s') s := by
  refine h.carries (fun s₁ effect reply engine hpermitted hreply hintact => ?_) (.refl s)
  refine hintact.trans ⟨[⟨s₁.engine, effect, reply⟩], rfl, fun m hm => ?_⟩
  rw [List.mem_singleton.mp hm]
  exact hguard s₁ effect reply engine hpermitted hreply

/-- The effect is not a flush. -/
abbrev Unflushing (_ : Scene) (effect : Effect) : Prop :=
  effect.isFlush = false

/-- A program that does not flush is not cut off by the engine. -/
theorem Program.Upholds.intact_of_unflushing {p : Program α} (h : p.Upholds env Unflushing goal s) :
    p.Upholds env Unflushing (fun result s' => goal result s' ∧ s.Intact s') s :=
  h.intact fun _ _ _ _ hflush _ => Moment.isCutOff_of_not_flush hflush

/-! ## Counters that are not full -/

namespace Engine

variable {e e' : Engine} {name : String}

theorem not_full_insert {state : IndexState} (hstate : state.flushes.toNat + 1 < UInt32.size)
    (hfull : ∀ name, ¬ e.Full name) (hindices : e'.indices = e.indices.insert name state)
    (other : String) : ¬ e'.Full other := by
  rintro ⟨found, hfound, hend⟩
  rw [hindices, Std.ExtTreeMap.getElem?_insert] at hfound
  split at hfound
  · exact hend (Option.some.inj hfound ▸ hstate)
  · exact hfull other ⟨found, hfound, hend⟩

theorem room_of_not_full {state : IndexState} (hfull : ∀ name, ¬ e.Full name)
    (hstate : e.indices[name]? = some state) : state.flushes.toNat + 1 < UInt32.size :=
  Decidable.not_not.mp fun hend => hfull name ⟨state, hstate, hend⟩

/-- Calls other than flushes fill no counter. -/
theorem respond_not_full (hfull : ∀ name, ¬ e.Full name) {request : EngineCall}
    (hflush : Effect.isFlush (.call request) = false) (other : String) :
    ¬ (e.respond request).1.Full other := by
  have hupdate : ∀ (name : String) (change : IndexState → IndexState),
      (∀ state, (change state).flushes = state.flushes) →
        ¬ (e.updateIndex name change).1.Full other := by
    intro name change hchange
    unfold updateIndex
    split
    · exact hfull other
    · next state hstate =>
      exact not_full_insert ((hchange state).symm ▸ room_of_not_full hfull hstate) hfull rfl other
  cases request with
  | listIndices | aliasExists | aliasTarget => exact hfull other
  | createIndex name =>
    simp only [respond]
    split
    · exact hfull other
    · exact not_full_insert (by decide) hfull rfl other
  | deleteIndex name =>
    simp only [respond]
    split
    · rintro ⟨state, hstate, hend⟩
      rw [Std.ExtTreeMap.getElem?_erase] at hstate
      split at hstate
      · cases hstate
      · exact hfull other ⟨state, hstate, hend⟩
    · exact hfull other
  | flush => cases hflush
  | setReadOnly name => exact hupdate name _ fun _ => rfl
  | optimize name maxSegments => exact hupdate name _ fun _ => rfl
  | moveAlias aliasName add remove =>
    simp only [respond]
    split
    · exact hfull other
    · split
      · exact hfull other
      · exact hfull other

end Engine

namespace Environment

variable {e e' : Engine}

/-- Effects other than flushes fill no counter, whatever faults there are. -/
theorem faulty_not_full {effect : Effect} {reply : effect.Reply} (hflush : effect.isFlush = false)
    (h : faulty e effect reply e') (hfull : ∀ name, ¬ e.Full name) (name : String) :
    ¬ e'.Full name := by
  cases effect with
  | call request =>
    rcases h with h | ⟨-, rfl⟩
    · rw [show e' = (e.perform request).1 from congrArg Prod.fst h]
      cases havailable : e.unavailable with
      | true =>
        rw [Engine.perform_of_unavailable havailable]
        exact hfull name
      | false =>
        rw [Engine.perform_of_available havailable]
        exact Engine.respond_not_full (e := e.logged request) hfull hflush name
    · exact hfull name
  | submit job => exact h ▸ hfull name
  | record entry => exact h ▸ hfull name

/-- A counter that is not full does not cut a flush off, and no fault does. -/
theorem faulty_flush {name : String} {reply : (EngineCall.flush name).Reply}
    (h : faulty e (.call (.flush name)) reply e') (hfull : ¬ e.Full name) :
    reply ≠ .ok .counterFull := by
  rintro rfl
  rcases h with h | ⟨⟨fault, hfault⟩, -⟩
  · rcases disturbed_flush (disturbed_of_calm h) with ⟨-, ⟨-, hfull'⟩ | ⟨cause, hcause⟩⟩ | ⟨hok, -⟩
    · exact hfull hfull'
    · cases hcause
    · cases hok
  · cases fault with
    | error => cases hfault
    | no => cases hfault

end Environment

/-- If the effect is a flush, the counter that it counts up is not full. -/
def Affordable (s : Scene) (effect : Effect) : Prop :=
  ∀ name, effect = .call (.flush name) → ¬ s.engine.Full name

theorem Unflushing.affordable {effect : Effect} (h : effect.isFlush = false) :
    Affordable s effect := by
  rintro name rfl
  cases h

/-- A program that flushes only what it can is not cut off by the engine. -/
theorem Program.Upholds.intact_of_affordable {p : Program α}
    (h : p.Upholds Environment.faulty Affordable goal s) :
    p.Upholds Environment.faulty Affordable (fun result s' => goal result s' ∧ s.Intact s') s := by
  refine h.intact fun s effect reply engine hafford hreply => ?_
  unfold Moment.isCutOff
  split
  · next name hmoment =>
    cases hmoment
    exact absurd rfl (Environment.faulty_flush hreply (hafford _ rfl))
  · rfl

/-! ## Operations that do not flush -/

/-- Taking a view asks only. -/
theorem upholds_view_read (group : IndexGroup) (env : Environment) (s : Scene) :
    group.view.Upholds env (fun _ effect => effect.isRead = true) (fun _ _ => True) s := by
  unfold IndexGroup.view
  refine upholds_ask.mpr ⟨rfl, fun reply _ _ => ?_⟩
  rcases reply with cause | listing
  · trivial
  dsimp only
  split
  · trivial
  refine upholds_ask.mpr ⟨rfl, fun reply _ _ => ?_⟩
  rcases reply with cause | ⟨_ | _⟩
  · trivial
  · trivial
  refine upholds_ask.mpr ⟨rfl, fun reply _ _ => ?_⟩
  cases reply <;> trivial

theorem Effect.isFlush_of_isRead {effect : Effect} (h : effect.isRead = true) :
    effect.isFlush = false := by
  cases effect with
  | call request =>
    cases request with
    | flush => cases h
    | listIndices | aliasExists | aliasTarget | createIndex | deleteIndex | setReadOnly | optimize
    | moveAlias => rfl
  | submit | record => rfl

theorem upholds_view_unflushing (group : IndexGroup) (env : Environment) (s : Scene) :
    group.view.Upholds env Unflushing (fun _ _ => True) s :=
  (upholds_view_read group env s).permit fun _ _ => Effect.isFlush_of_isRead

theorem upholds_segmentNames_unflushing (group : IndexGroup) (env : Environment) (s : Scene) :
    group.segmentNames.Upholds env Unflushing (fun _ _ => True) s :=
  upholds_bind.mpr ((upholds_view_unflushing group env s).imp fun _ _ _ => trivial)

theorem upholds_currentTarget_unflushing (group : IndexGroup) (env : Environment) (s : Scene) :
    group.currentTarget.Upholds env Unflushing (fun _ _ => True) s := by
  refine upholds_ask.mpr ⟨rfl, fun reply _ _ => ?_⟩
  cases reply <;> trivial

theorem upholds_removeSegment_unflushing (group : IndexGroup) (name : String) (env : Environment)
    (s : Scene) : (group.removeSegment name).Upholds env Unflushing (fun _ _ => True) s := by
  refine ((bestEffort_group_removeSegment group name).upholds (.record _) env s).permit ?_
  intro _ effect h
  cases h with
  | ask request hread => exact Effect.isFlush_of_isRead (by simp [Effect.isRead, hread])
  | deleteIndex | submit | record => rfl

/-! ## Rotations -/

section Parts

variable {P : Engine → Prop}

theorem upholds_offerRebuild_unflushing (view : GroupView) (env : Environment) (s : Scene) :
    view.offerRebuild.Upholds env Unflushing (fun _ _ => True) s := by
  refine upholds_submit.mpr ⟨rfl, fun reply _ _ => ?_⟩
  cases reply with
  | ok => trivial
  | error => exact ⟨rfl, fun _ _ _ => trivial⟩

theorem upholds_create_unflushing (view : GroupView) (segment : Segment) (env : Environment)
    (s : Scene) : (view.create segment).Upholds env Unflushing (fun _ _ => True) s := by
  unfold GroupView.create
  split
  · trivial
  · refine upholds_ask.mpr ⟨rfl, fun reply _ _ => ?_⟩
    rcases reply with cause | ⟨_ | _⟩ <;> trivial

theorem upholds_pointTo_unflushing (view : GroupView) (n : UInt64) (old : Option String)
    (env : Environment) (s : Scene) :
    (view.pointTo n old).Upholds env Unflushing (fun _ _ => True) s := by
  refine upholds_ask.mpr ⟨rfl, fun reply _ _ => ?_⟩
  split <;> trivial

/-- A rotation for which there is no number left does nothing. -/
theorem GroupView.rotate_of_exhausted (maxSegments : UInt32) (hcollision : view.collision = false)
    (hnext : view.next? = none) : view.rotate maxSegments = .done (view, .error .overflow) := by
  unfold rotate
  rw [hcollision, hnext]
  rfl

/-- A rotation for which there is a number left does not overflow, provided that its end does not.
The end may count on whatever effects other than flushes leave standing. -/
theorem upholds_rotate_of_room (maxSegments : UInt32)
    (hroom : view.collision = false → view.next? ≠ none)
    (hP : ∀ (e : Engine) (effect : Effect) (reply : effect.Reply) (e' : Engine),
      effect.isFlush = false → env e effect reply e' → P e → P e')
    (hguard : ∀ (s : Scene) (effect : Effect), effect.isFlush = false → guard s effect)
    (hretire : ∀ (moved : GroupView) (bound : Option String) (next : UInt64) (s' : Scene),
      P s'.engine → (moved.retire maxSegments (bound.bind view.held?) next).Upholds env guard
        (fun outcome _ => outcome ≠ .error .overflow) s')
    (hs : P s.engine) :
    (view.rotate maxSegments).Upholds env guard
      (fun result _ => result.2 ≠ .error .overflow) s := by
  have hkeeps : ∀ {β : Type} {p : Program β} {s₁ : Scene},
      p.Upholds env Unflushing (fun _ _ => True) s₁ → P s₁.engine →
        p.Upholds env guard (fun _ s' => P s'.engine) s₁ := fun h hs₁ =>
    ((h.keeps (fun _ _ _ _ => hP _ _ _ _) hs₁).permit hguard).imp fun _ _ h => h.2
  unfold GroupView.rotate
  by_cases hcollision : view.collision = true
  · rw [if_pos hcollision]
    exact nofun
  rw [if_neg hcollision]
  cases hnext : view.next? with
  | none => exact absurd hnext (hroom (Bool.eq_false_iff.mpr hcollision))
  | some next =>
    refine upholds_ask.mpr ⟨hguard _ _ rfl, fun reply engine hreply => ?_⟩
    have hs₁ : P engine := hP _ _ _ _ rfl hreply hs
    cases reply with
    | error cause => exact nofun
    | ok bound =>
      refine upholds_bind.mpr ((hkeeps (upholds_create_unflushing view _ env _) hs₁).imp
        fun result s₂ hs₂ => ?_)
      rcases result with ⟨grown, cause | ⟨_ | _⟩⟩
      · exact nofun
      · exact nofun
      refine upholds_bind.mpr ((hkeeps (upholds_offerRebuild_unflushing grown env _) hs₂).imp
        fun _ s₃ hs₃ => ?_)
      refine upholds_bind.mpr ((hkeeps (upholds_pointTo_unflushing grown next bound env _) hs₃).imp
        fun result s₄ hs₄ => ?_)
      rcases result with ⟨moved, cause | ⟨⟩⟩
      · exact nofun
      · exact upholds_bind.mpr (hretire moved bound next s₄ hs₄)

end Parts

/-! ## Setting up -/

/-- In an empty view no name is held. -/
theorem GroupView.held?_of_empty (h : view.latest? = none) (name : String) :
    view.held? name = none := by
  rw [Option.eq_none_iff_forall_ne_some]
  intro n hn
  exact GroupView.latest?_eq_none_iff.mp h n (GroupView.held?_eq_some_iff.mp hn).2

/-- The rotation of an empty group has a first number, and nothing to seal. -/
theorem upholds_rotate_of_empty (h : view.latest? = none) (maxSegments : UInt32)
    (env : Environment) (s : Scene) :
    (view.rotate maxSegments).Upholds env Unflushing
      (fun result _ => result.2 ≠ .error .overflow) s := by
  have hroom : view.next? ≠ none := by
    rw [GroupView.next?_eq, h]
    exact Option.some_ne_none _
  refine upholds_rotate_of_room (P := fun _ => True) maxSegments (fun _ => hroom)
    (fun _ _ _ _ _ _ _ => trivial) (fun _ _ h => h) (fun moved bound next s' _ => ?_) trivial
  have hnothing : bound.bind view.held? = none := by
    cases bound with
    | none => rfl
    | some name => exact GroupView.held?_of_empty h name
  rw [hnothing]
  exact upholds_record.mpr ⟨rfl, fun _ _ _ => nofun⟩

theorem upholds_view_setUp_unflushing (view : GroupView) (maxSegments : UInt32) (env : Environment)
    (s : Scene) :
    (view.setUp maxSegments).Upholds env Unflushing
      (fun result _ => result.2 ≠ .error .overflow) s := by
  unfold GroupView.setUp
  by_cases hcollision : view.collision = true
  · rw [if_pos hcollision]
    exact nofun
  rw [if_neg hcollision]
  by_cases hup : view.isUp = true
  · rw [if_pos hup]
    exact nofun
  rw [if_neg hup]
  cases hlatest : view.latest? with
  | none =>
    refine upholds_record.mpr ⟨rfl, fun _ _ _ => ?_⟩
    refine upholds_bind.mpr ((upholds_rotate_of_empty hlatest maxSegments env _).imp
      fun result _ h => ?_)
    rcases result with ⟨_, halt | rotation⟩
    · exact fun hover => h (congrArg Except.error (Except.error.inj hover))
    · exact nofun
  | some latest =>
    refine upholds_ask.mpr ⟨rfl, fun reply _ _ => ?_⟩
    cases reply with
    | error cause => exact nofun
    | ok stale =>
      refine upholds_bind.mpr ((upholds_pointTo_unflushing view latest stale env _).imp
        fun result _ _ => ?_)
      rcases result with ⟨moved, cause | ⟨⟩⟩ <;> exact nofun

/-- **Setting up does not flush, and does not overflow.** -/
theorem upholds_setUp_unflushing (group : IndexGroup) (maxSegments : UInt32) (env : Environment)
    (s : Scene) :
    (group.setUp maxSegments).Upholds env Unflushing
      (fun outcome _ => outcome ≠ .error .overflow) s := by
  refine upholds_bind.mpr ((upholds_view_unflushing group env s).imp fun result s₁ _ => ?_)
  cases result with
  | error cause => exact nofun
  | ok view => exact upholds_bind.mpr (upholds_view_setUp_unflushing view maxSegments env s₁)

theorem upholds_setUpEach_unflushing (groups : List IndexGroup) (maxSegments : UInt32)
    (env : Environment) (s : Scene) :
    (setUpEach maxSegments groups).Upholds env Unflushing (fun outcomes _ =>
      outcomes.map Prod.fst = groups ∧ ∀ entry ∈ outcomes, entry.2 ≠ .error .overflow) s := by
  induction groups generalizing s with
  | nil => exact ⟨rfl, nofun⟩
  | cons group groups ih =>
    refine upholds_bind.mpr ((upholds_setUp_unflushing group maxSegments env s).imp
      fun outcome s₁ houtcome => ?_)
    refine upholds_bind.mpr ((ih s₁).imp fun outcomes s₂ h => ?_)
    exact ⟨by rw [List.map_cons, h.1], List.forall_mem_cons.mpr ⟨houtcome, h.2⟩⟩

end Rollover
