import Rollover.Proofs.Listing

/-!
# Views that are kept

An operation on a group takes a view, works on it, and lets it go.  The view that comes out of it is
worth as much as a new one: whoever keeps it, and has the next operation work on it, sees the group
as it is.  This is so although nothing is read again.  A view learns of a change only because the
operation that made it says so, and calls may get lost in between.

A view is *current* if it holds the numbers of the group's indices, knows whether an index has the
alias's name, and otherwise is on what the alias is on (`GroupView.Current`).  A fresh view of a
group in order is current (`Engine.current_viewOf`), and it is the only view that is
(`GroupView.Current.unique`).  So it is enough that operations keep a view current.  There are four
changes to follow: an index comes, an index goes, the alias moves, and an index changes in a way
that no view shows.  The operations are put together from these.

Calls may get lost, but not in every way.  An error that blames the name of the alias is believed,
and the view shows a collision from then on.  So this file has an environment of its own
(`Environment.interrupted`): a lost call has not reached the engine or was rejected, or an index was
not created, and no other reply is invented.
-/

namespace Rollover

open Program

/-! ## Calls that get lost -/

/-- The replies by which a call gets lost. -/
inductive EngineCall.Lost : (call : EngineCall) → call.Reply → Prop
  /-- The engine is not reached. -/
  | unreachable (call : EngineCall) (message : String) : Lost call (.error (.unreachable message))
  /-- The call is rejected. -/
  | rejected (call : EngineCall) (message : String) : Lost call (.error (.rejected message))
  /-- An index is not created. -/
  | notCreated (name : String) : Lost (.createIndex name) (.ok false)

theorem EngineCall.Lost.turnedDown {call : EngineCall} {reply : call.Reply}
    (h : call.Lost reply) : call.TurnedDown reply := by
  cases h with
  | unreachable | rejected => exact .failed _ _
  | notCreated name => exact .notCreated name

namespace Environment

variable {e e' : Engine}

/-- Any call may get lost, and then the engine does not hear of it. -/
def interrupted : Environment
  | e, .call request, reply, e' =>
    (e', reply) = e.perform request ∨ (request.Lost reply ∧ e' = e)
  | e, .submit _, _, e' => e' = e
  | e, .record _, _, e' => e' = e

theorem disturbed_of_interrupted {effect : Effect} {reply : effect.Reply}
    (h : interrupted e effect reply e') : disturbed e effect reply e' := by
  cases effect with
  | call => exact h.imp_right fun hlost => ⟨hlost.1.turnedDown, hlost.2⟩
  | submit => exact h
  | record => exact h

theorem interrupted_of_calm {effect : Effect} {reply : effect.Reply}
    (h : calm e effect reply e') : interrupted e effect reply e' := by
  cases effect with
  | call => exact Or.inl h
  | submit => exact h
  | record => exact h

/-- If the name of an alias is blamed, an index has it. -/
theorem interrupted_moveAlias {aliasName add other : String} {remove : Option String}
    (h : interrupted e (.call (.moveAlias aliasName add remove))
      (Except.error (.invalidAliasName other)) e') : e.hasIndex aliasName = true := by
  rcases h with h | ⟨hlost, -⟩
  · cases havailable : e.unavailable with
    | true =>
      rw [Engine.perform_of_unavailable havailable] at h
      cases h
    | false =>
      rw [Engine.perform_of_available havailable] at h
      simp only [Engine.respond] at h
      split at h
      · next hcollision => exact hcollision
      · split at h <;> cases h
  · cases hlost

end Environment

open Environment

/-! ## Current views -/

/-- The group is in order, and the view shows it as it is. -/
structure GroupView.Current (view : GroupView) (group : IndexGroup) (e : Engine) : Prop where
  group_eq : view.group = group
  /-- The indices of the group have the names that it gives them. -/
  canonical : e.Canonical group
  /-- The alias has one target at most, and that exists. -/
  neat : e.Neat group.aliasName
  mem_numbers : ∀ n, n ∈ view.numbers ↔ e.hasIndex (group.nameOf n) = true
  collision_eq : view.collision = e.hasIndex group.aliasName
  target_eq_some_iff : ∀ n, view.target = some n ↔
    view.collision = false ∧ group.nameOf n ∈ e.targetsOf group.aliasName

namespace Engine

variable {e : Engine} {group : IndexGroup} {n : UInt64}

/-- **A fresh view of a group in order is current.** -/
theorem current_viewOf (hcanonical : e.Canonical group) (hneat : e.Neat group.aliasName) :
    (e.viewOf group).Current group e where
  group_eq := e.viewOf_group group
  canonical := hcanonical
  neat := hneat
  mem_numbers n := mem_viewOf_numbers.trans hcanonical.hasNumber_iff
  collision_eq := e.viewOf_collision group
  target_eq_some_iff n := by
    rw [← hcanonical.writeNumber?_eq_some_iff hneat, viewOf_collision, viewOf_target_eq_some_iff,
      writeNumber?_eq_some_iff]

end Engine

namespace GroupView.Current

variable {view view' : GroupView} {group : IndexGroup} {e e' : Engine} {n : UInt64}

/-- **There is one current view.** -/
theorem unique (h : view.Current group e) (h' : view'.Current group e) : view = view' := by
  have hcollision : view.collision = view'.collision := h.collision_eq.trans h'.collision_eq.symm
  refine GroupView.ext (h.group_eq.trans h'.group_eq.symm) ?_ ?_ hcollision
  · exact Std.ExtTreeSet.ext_mem fun n => (h.mem_numbers n).trans (h'.mem_numbers n).symm
  · ext n
    rw [h.target_eq_some_iff, h'.target_eq_some_iff, hcollision]

/-- It is the one that would be taken afresh. -/
theorem viewOf_eq (h : view.Current group e) : e.viewOf group = view :=
  (Engine.current_viewOf h.canonical h.neat).unique h

/-- The alias is on an index that the view holds, if it is on one of the group. -/
theorem target_mem_numbers (h : view.Current group e) (htarget : view.target = some n) :
    n ∈ view.numbers :=
  (h.mem_numbers n).mpr (h.neat.2 _ ((h.target_eq_some_iff n).mp htarget).2)

/-! ### Changes that a view follows -/

/-- A view need not follow what it does not show. -/
theorem of_alike (h : view.Current group e)
    (hindex : ∀ name, e'.hasIndex name = e.hasIndex name)
    (htargets : e'.targetsOf group.aliasName = e.targetsOf group.aliasName) :
    view.Current group e' where
  group_eq := h.group_eq
  canonical name n hname := h.canonical name n (hindex name ▸ hname)
  neat := by
    refine ⟨htargets ▸ h.neat.1, fun target htarget => ?_⟩
    rw [htargets] at htarget
    rw [hindex]
    exact h.neat.2 target htarget
  mem_numbers n := by rw [hindex, h.mem_numbers]
  collision_eq := by rw [hindex, h.collision_eq]
  target_eq_some_iff n := by rw [htargets, h.target_eq_some_iff]

theorem of_same (h : view.Current group e) (hsame : e.Same e') : view.Current group e' :=
  h.of_alike hsame.hasIndex (hsame.targetsOf _)

/-- An index has changed that there was before. -/
theorem of_update (h : view.Current group e) {name : String} {old new : IndexState}
    (hindex : e.indices[name]? = some old)
    (hsame : Engine.Same { e with indices := e.indices.insert name new } e') :
    view.Current group e' := by
  refine h.of_alike (fun other => ?_) (hsame.targetsOf _)
  rw [hsame.hasIndex, Engine.hasIndex_update (Engine.hasIndex_iff.mpr ⟨old, hindex⟩)]

/-- An index of the group has come. -/
theorem insert (h : view.Current group e)
    (hsame : Engine.Same { e with indices := e.indices.insert (group.nameOf n) {} } e') :
    (view.insert n).Current group e' := by
  have hindex : ∀ name, e'.hasIndex name = true ↔
      name = group.nameOf n ∨ e.hasIndex name = true := by
    intro name
    rw [hsame.hasIndex, Engine.hasIndex_insert]
  have htargets : e'.targetsOf group.aliasName = e.targetsOf group.aliasName :=
    hsame.targetsOf group.aliasName
  constructor
  · exact h.group_eq
  · intro name m hname hnumber
    rcases (hindex name).mp hname with rfl | hold
    · rw [Option.some.inj ((group.numberOf?_nameOf n).symm.trans hnumber)]
    · exact h.canonical name m hold hnumber
  · refine ⟨htargets ▸ h.neat.1, fun target htarget => ?_⟩
    rw [htargets] at htarget
    exact (hindex target).mpr (Or.inr (h.neat.2 target htarget))
  · intro m
    rw [GroupView.insert, Std.ExtTreeSet.mem_insert, Std.LawfulEqOrd.compare_eq_iff_eq, hindex,
      IndexGroup.nameOf_inj, h.mem_numbers, eq_comm]
  · show view.collision = _
    rw [h.collision_eq, Bool.eq_iff_iff, hindex]
    exact (or_iff_right (IndexGroup.nameOf_ne_aliasName group group n).symm).symm
  · intro m
    rw [htargets]
    exact h.target_eq_some_iff m

/-- An index of the group has gone that the alias was not on. -/
theorem erase (h : view.Current group e)
    (hoff : group.nameOf n ∉ e.targetsOf group.aliasName)
    (hsame : Engine.Same { e with
      indices := e.indices.erase (group.nameOf n)
      aliases := e.aliases.map fun _ state => state.forget (group.nameOf n) } e') :
    (view.erase n).Current group e' := by
  have hindex : ∀ name, e'.hasIndex name = true ↔
      name ≠ group.nameOf n ∧ e.hasIndex name = true := by
    intro name
    rw [hsame.hasIndex, Engine.hasIndex_erase]
  have htargets : e'.targetsOf group.aliasName = e.targetsOf group.aliasName := by
    rw [hsame.targetsOf, Engine.targetsOf, Engine.aliasState_forget, AliasState.forget]
    exact congrArg AliasState.targets (if_neg hoff)
  have htarget : (view.erase n).target = view.target := by
    refine if_neg fun hbound => hoff ?_
    exact ((h.target_eq_some_iff n).mp hbound).2
  constructor
  · exact h.group_eq
  · intro name m hname hnumber
    exact h.canonical name m ((hindex name).mp hname).2 hnumber
  · refine ⟨htargets ▸ h.neat.1, fun target hmem => ?_⟩
    rw [htargets] at hmem
    refine (hindex target).mpr ⟨?_, h.neat.2 target hmem⟩
    rintro rfl
    exact hoff hmem
  · intro m
    rw [GroupView.erase, Std.ExtTreeSet.mem_erase, Ne, Std.LawfulEqOrd.compare_eq_iff_eq, hindex,
      Ne, IndexGroup.nameOf_inj, h.mem_numbers, eq_comm]
  · show view.collision = _
    rw [h.collision_eq, Bool.eq_iff_iff, hindex]
    exact (and_iff_right (IndexGroup.nameOf_ne_aliasName group group n).symm).symm
  · intro m
    rw [htarget, htargets]
    exact h.target_eq_some_iff m

/-- The alias has moved to an index of the group, away from what it was on. -/
theorem point (h : view.Current group e) (hcollision : view.collision = false)
    (hindex : e.hasIndex (group.nameOf n) = true)
    (hsame : Engine.Same { e with
      aliases := e.aliases.insert group.aliasName
        ((e.aliasState group.aliasName).retarget (e.movedTargets group.aliasName (group.nameOf n)
          (e.targetsOf group.aliasName).min?)) } e') :
    ({ view with target := some n } : GroupView).Current group e' := by
  have htargets : e'.targetsOf group.aliasName = Std.ExtTreeSet.ofList [group.nameOf n] :=
    (Engine.Redirected.of_move rfl hindex hsame).targetsOf h.neat.1
  have hindices : ∀ name, e'.hasIndex name = e.hasIndex name := hsame.hasIndex
  constructor
  · exact h.group_eq
  · intro name m hname
    exact h.canonical name m (hindices name ▸ hname)
  · refine ⟨htargets ▸ Nat.le_of_eq (size_ofList_singleton _), fun target hmem => ?_⟩
    rw [htargets, mem_ofList_singleton] at hmem
    rw [hmem, hindices]
    exact hindex
  · intro m
    rw [hindices]
    exact h.mem_numbers m
  · rw [hindices]
    exact h.collision_eq
  · intro m
    rw [htargets, mem_ofList_singleton, IndexGroup.nameOf_inj, and_iff_right hcollision,
      Option.some.injEq, eq_comm]

end GroupView.Current

/-! ## Operations keep a view current -/

variable {group : IndexGroup} {view : GroupView} {s : Scene} {maxSegments : UInt32} {n : UInt64}

/-- Asking for the target of the alias. -/
theorem interrupted_aliasTarget {α : Type} {goal : α → Scene → Prop}
    {f : (EngineCall.aliasTarget group.aliasName).Reply → Program α}
    (h : view.Current group s.engine)
    (hanswered : ∀ s₁, view.Current group s₁.engine →
      (f (.ok (s₁.engine.targetsOf group.aliasName).min?)).Upholds interrupted (fun _ _ => True)
        goal s₁)
    (hfailed : ∀ cause s₁, view.Current group s₁.engine →
      (f (.error cause)).Upholds interrupted (fun _ _ => True) goal s₁) :
    (ask (.aliasTarget group.aliasName) >>= f).Upholds interrupted (fun _ _ => True) goal s := by
  refine upholds_ask.mpr ⟨trivial, fun reply e₁ h₁ => ?_⟩
  obtain ⟨hsame, hreply⟩ := disturbed_aliasTarget (disturbed_of_interrupted h₁)
  rw [← hsame.targetsOf] at hreply
  obtain ⟨cause, rfl⟩ | rfl := hreply.symm
  · exact hfailed cause _ (h.of_same hsame)
  · exact hanswered (s.next _ _ e₁) (h.of_same hsame)

theorem interrupted_create (h : view.Current group s.engine) :
    (view.create (view.segment n)).Upholds interrupted (fun _ _ => True) (fun result s' =>
      result.1.Current group s'.engine ∧ s'.engine.aliases = s.engine.aliases ∧
        (result.2 = .ok true → result.1 = view.insert n)) s := by
  refine ((upholds_create h.group_eq trivial).restrict
    fun _ _ _ _ => disturbed_of_interrupted).imp fun result s' hend => ?_
  rcases hend.2 with ⟨hsame, rfl | ⟨cause, rfl⟩⟩ | ⟨rfl, -, hsame⟩
  · exact ⟨h.of_same hsame, hsame.aliases, nofun⟩
  · exact ⟨h.of_same hsame, hsame.aliases, nofun⟩
  · exact ⟨h.insert hsame, hsame.aliases, fun _ => rfl⟩

theorem interrupted_offerRebuild (view : GroupView) (s : Scene) :
    view.offerRebuild.Upholds interrupted (fun _ _ => True)
      (fun _ s' => s'.engine = s.engine) s :=
  ((upholds_offerRebuild (fun _ => trivial) fun _ _ => trivial).restrict
    fun _ _ _ _ => disturbed_of_interrupted).imp fun _ _ h => h.1

/-- Only if the view has overlooked an index with the alias's name could the name be blamed. -/
theorem interrupted_pointTo (h : view.Current group s.engine) (hcollision : view.collision = false)
    {old : Option String} (hold : (s.engine.targetsOf group.aliasName).min? = old) :
    (view.pointTo n old).Upholds interrupted (fun _ _ => True)
      (fun result s' => result.1.Current group s'.engine) s := by
  obtain rfl := h.group_eq
  unfold GroupView.pointTo
  refine upholds_ask.mpr ⟨trivial, fun reply e₁ h₁ => ?_⟩
  rcases disturbed_moveAlias (disturbed_of_interrupted h₁) with
    ⟨hsame, cause, rfl⟩ | ⟨rfl, hindex, hsame⟩
  · cases cause with
    | invalidAliasName other =>
      have htaken := interrupted_moveAlias h₁
      rw [← h.collision_eq, hcollision] at htaken
      cases htaken
    | unreachable | rejected | indexNotFound => exact h.of_same hsame
  · exact h.point hcollision hindex (hold ▸ hsame)

/-- What sealing does to an index is not shown. -/
theorem interrupted_sealIndex (h : view.Current group s.engine) (name : String) :
    (GroupView.sealIndex maxSegments name).Upholds interrupted (fun _ _ => True)
      (fun _ s' => view.Current group s'.engine) s := by
  unfold GroupView.sealIndex
  refine upholds_ask.mpr ⟨trivial, fun reply e₁ h₁ => ?_⟩
  rcases disturbed_flush (disturbed_of_interrupted h₁) with
    ⟨hsame, ⟨rfl, -⟩ | ⟨cause, rfl⟩⟩ | ⟨rfl, state, hstate, hsame⟩
  · exact h.of_same hsame
  · exact h.of_same hsame
  have hcurrent₁ : view.Current group e₁ := h.of_update hstate hsame
  refine upholds_ask.mpr ⟨trivial, fun reply e₂ h₂ => ?_⟩
  rcases disturbed_setReadOnly (disturbed_of_interrupted h₂) with
    ⟨hsame₂, cause, rfl⟩ | ⟨rfl, state₂, hstate₂, hsame₂⟩
  · exact hcurrent₁.of_same hsame₂
  refine upholds_submit.mpr ⟨trivial, fun reply e₃ h₃ => ?_⟩
  obtain rfl : e₃ = e₂ := h₃
  exact hcurrent₁.of_update hstate₂ hsame₂

theorem interrupted_retire (h : view.Current group s.engine) (previous : Option UInt64)
    (next : UInt64) :
    (view.retire maxSegments previous next).Upholds interrupted (fun _ _ => True)
      (fun _ s' => view.Current group s'.engine) s := by
  unfold GroupView.retire
  cases previous with
  | none =>
    refine upholds_record.mpr ⟨trivial, fun _ e₁ h₁ => ?_⟩
    obtain rfl : e₁ = s.engine := h₁
    exact h
  | some m =>
    refine upholds_bind.mpr ((interrupted_sealIndex h _).imp fun result s₁ hcurrent => ?_)
    cases result with
    | error halt => exact hcurrent
    | ok frozen =>
      refine upholds_record.mpr ⟨trivial, fun _ e₂ h₂ => ?_⟩
      obtain rfl : e₂ = s₁.engine := h₂
      exact hcurrent

/-- **A rotation keeps a view current.** -/
theorem interrupted_rotate (h : view.Current group s.engine) (maxSegments : UInt32) :
    (view.rotate maxSegments).Upholds interrupted (fun _ _ => True)
      (fun result s' => result.1.Current group s'.engine) s := by
  obtain rfl := h.group_eq
  unfold GroupView.rotate
  by_cases hcollision : view.collision = true
  · simp only [hcollision, if_true, upholds_pure]
    exact h
  simp only [hcollision]
  rw [Bool.not_eq_true] at hcollision
  cases view.next? with
  | none => exact h
  | some n =>
    refine interrupted_aliasTarget h (fun s₁ hcurrent₁ => ?_) fun _ _ hcurrent => hcurrent
    refine upholds_bind.mpr ((interrupted_create hcurrent₁).imp fun result s₂ h₂ => ?_)
    obtain ⟨hcurrent₂, haliases₂, hgrown⟩ := h₂
    rcases result with ⟨grown, cause | answer⟩
    · exact hcurrent₂
    cases answer with
    | false => exact hcurrent₂
    | true =>
      obtain rfl : grown = view.insert n := hgrown rfl
      refine upholds_bind.mpr ((interrupted_offerRebuild _ _).imp fun _ s₃ h₃ => ?_)
      rw [← h₃] at hcurrent₂ haliases₂
      -- the alias is still on what the engine named at first
      have hbound : (s₃.engine.targetsOf view.group.aliasName).min? =
          (s₁.engine.targetsOf view.group.aliasName).min? := by
        rw [Engine.targetsOf_congr haliases₂]
      refine upholds_bind.mpr ((interrupted_pointTo hcurrent₂ hcollision hbound).imp
        fun result s₄ hcurrent₄ => ?_)
      rcases result with ⟨moved, cause | ⟨⟨⟩⟩⟩
      · exact hcurrent₄
      · exact upholds_bind.mpr ((interrupted_retire hcurrent₄ _ n).imp fun _ _ hcurrent => hcurrent)

/-- **Setting up keeps a view current.** -/
theorem interrupted_setUp (h : view.Current group s.engine) (maxSegments : UInt32) :
    (view.setUp maxSegments).Upholds interrupted (fun _ _ => True)
      (fun result s' => result.1.Current group s'.engine) s := by
  obtain rfl := h.group_eq
  unfold GroupView.setUp
  by_cases hcollision : view.collision = true
  · simp only [hcollision, if_true, upholds_pure]
    exact h
  simp only [hcollision]
  rw [Bool.not_eq_true] at hcollision
  by_cases hup : view.isUp = true
  · simp only [hup, if_true]
    exact h
  simp only [hup]
  cases view.latest? with
  | none =>
    refine upholds_record.mpr ⟨trivial, fun _ e₁ h₁ => ?_⟩
    have hcurrent₁ : view.Current view.group e₁ := h.of_same (h₁ ▸ .refl _)
    exact upholds_bind.mpr (interrupted_rotate (s := s.next _ _ e₁) hcurrent₁ maxSegments)
  | some n =>
    refine interrupted_aliasTarget h (fun s₁ hcurrent₁ => ?_) fun _ _ hcurrent => hcurrent
    refine upholds_bind.mpr ((interrupted_pointTo hcurrent₁ hcollision rfl).imp
      fun result s₂ hcurrent₂ => ?_)
    rcases result with ⟨moved, cause | ⟨⟨⟩⟩⟩
    · exact hcurrent₂
    · exact hcurrent₂

/-- Deleting an index that the alias is not on keeps a view current. -/
theorem interrupted_delete (h : view.Current group s.engine) {segment : Segment}
    (hoff : segment.name ∉ s.engine.targetsOf group.aliasName) :
    (view.delete segment).Upholds interrupted (fun _ _ => True)
      (fun result s' => result.1.Current group s'.engine) s := by
  obtain rfl := h.group_eq
  unfold GroupView.delete
  cases hmember : view.requireMember segment with
  | error cause => exact h
  | ok n =>
    obtain rfl := GroupView.requireMember_eq_ok_iff.mp hmember
    refine upholds_ask.mpr ⟨trivial, fun reply e₁ h₁ => ?_⟩
    rcases disturbed_deleteIndex (disturbed_of_interrupted h₁) with
      ⟨hsame, rfl | ⟨cause, rfl⟩⟩ | ⟨rfl, -, hsame⟩
    · exact h.of_same hsame
    · exact h.of_same hsame
    · exact h.erase hoff hsame

/-- **Removing a segment keeps a view current.** -/
theorem interrupted_removeSegment (h : view.Current group s.engine) (segment : Segment) :
    (view.removeSegment segment).Upholds interrupted (fun _ _ => True)
      (fun result s' => result.1.Current group s'.engine) s := by
  obtain rfl := h.group_eq
  unfold GroupView.removeSegment
  refine interrupted_aliasTarget h (fun s₁ hcurrent₁ => ?_) fun _ _ hcurrent => hcurrent
  by_cases htarget : (s₁.engine.targetsOf view.group.aliasName).min? = some segment.name
  · simp only [htarget, if_true, upholds_pure]
    exact hcurrent₁
  simp only [htarget]
  have hoff : segment.name ∉ s₁.engine.targetsOf view.group.aliasName :=
    fun hmem => htarget ((min?_eq_some_iff hcurrent₁.neat.1).mpr hmem)
  refine upholds_bind.mpr ((interrupted_delete hcurrent₁ hoff).imp
    fun result s₂ hcurrent₂ => ?_)
  rcases result with ⟨shrunk, cause | answer⟩
  · exact hcurrent₂
  cases answer with
  | false => exact hcurrent₂
  | true =>
    refine upholds_bind.mpr ((interrupted_offerRebuild _ _).imp fun _ s₃ h₃ => ?_)
    show shrunk.Current view.group s₃.engine
    rw [h₃]
    exact hcurrent₂

/-! ## A view that is kept -/

/-- A view of a group was taken of an engine, and was kept while operations worked on it one after
the other.  No call did anything else to the engine; many may have been lost. -/
inductive GroupView.Kept (maxSegments : UInt32) (group : IndexGroup) (e : Engine) :
    GroupView → Scene → Prop
  /-- The view was taken. -/
  | taken {view : GroupView} {s : Scene}
      (h : Leads interrupted (group.view, { engine := e }) (.done (.ok view), s)) :
    Kept maxSegments group e view s
  /-- The group was set up. -/
  | setUp {view view' : GroupView} {s s' : Scene} {outcome : Outcome SetUp}
      (kept : Kept maxSegments group e view s)
      (h : Leads interrupted (view.setUp maxSegments, s) (.done (view', outcome), s')) :
    Kept maxSegments group e view' s'
  /-- The alias was rotated. -/
  | rotate {view view' : GroupView} {s s' : Scene} {outcome : Outcome Rotation}
      (kept : Kept maxSegments group e view s)
      (h : Leads interrupted (view.rotate maxSegments, s) (.done (view', outcome), s')) :
    Kept maxSegments group e view' s'
  /-- A segment was removed. -/
  | removeSegment {view view' : GroupView} {s s' : Scene} {result : Except Error Bool}
      (kept : Kept maxSegments group e view s) (segment : Segment)
      (h : Leads interrupted (view.removeSegment segment, s) (.done (view', result), s')) :
    Kept maxSegments group e view' s'
  /-- The engine's switches were set. -/
  | switch {view : GroupView} {s : Scene} (kept : Kept maxSegments group e view s)
      (unavailable refusesCreates : Bool) :
    Kept maxSegments group e view (s.switch unavailable refusesCreates)

theorem interrupted_view (group : IndexGroup) (s : Scene) :
    group.view.Upholds interrupted (fun _ _ => True) (fun result s' =>
      s.Quiet s' ∧ (result = .ok (s.engine.viewOf group) ∨
        ∃ cause, result = .error (.engineUnavailable cause))) s :=
  ((upholds_disturbed_view group s).restrict fun _ _ _ _ => disturbed_of_interrupted).permit
    fun _ _ _ => trivial

/-- **A view that is kept stays current.** -/
theorem GroupView.Kept.current {e : Engine} (h : Kept maxSegments group e view s)
    (hcanonical : e.Canonical group) (hneat : e.Neat group.aliasName) :
    view.Current group s.engine := by
  induction h with
  | taken h =>
    obtain ⟨hquiet, hview | ⟨cause, hcause⟩⟩ := (interrupted_view group _).steps h
    · obtain rfl := Except.ok.inj hview
      exact (Engine.current_viewOf hcanonical hneat).of_same hquiet.same
    · cases hcause
  | setUp kept h ih => exact (interrupted_setUp ih maxSegments).steps h
  | rotate kept h ih => exact (interrupted_rotate ih maxSegments).steps h
  | removeSegment kept segment h ih => exact (interrupted_removeSegment ih segment).steps h
  | switch kept unavailable refusesCreates ih => exact ih.of_same (Scene.same_switch ..)

/-- **A view that is kept is as good as a fresh one.**  If the group was in order when the view was
taken, then after any operations on it, and whatever calls got lost, it is the view that would be
taken of an engine that answers; and what it is on is one of the segments that it holds. -/
theorem GroupView.Kept.eq_fresh {e : Engine} (h : Kept maxSegments group e view s)
    (hcanonical : e.Canonical group) (hneat : e.Neat group.aliasName) :
    (∀ refusesCreates desk, (group.view.run (Scene.handler desk)
      (s.switch false refusesCreates)).2 = .ok view) ∧
    ∀ n, view.target = some n → view.segment n ∈ view.segments := by
  have hcurrent := h.current hcanonical hneat
  constructor
  · intro refusesCreates desk
    have hview := ((answered_view group (s.switch false refusesCreates)).run_answered rfl desk).2
    rw [hview, (Scene.same_switch s false refusesCreates).viewOf, hcurrent.viewOf_eq]
  · intro n htarget
    refine List.mem_map_of_mem ?_
    rw [GroupView.toList, Std.ExtTreeSet.mem_toList]
    exact hcurrent.target_mem_numbers htarget

theorem leads_run_interrupted {α : Type} (p : Program α) (s : Scene)
    (desk : Scene → Job → Except Error Unit) :
    Leads interrupted (p, s)
      (.done (p.run (Scene.handler desk) s).2, (p.run (Scene.handler desk) s).1) :=
  Leads.mono (leads_run p s desk) interrupted_of_calm

/-- A view is kept over a removal that gets no further than its first call, and then over a
rotation. -/
theorem GroupView.Kept.eq_fresh_of_lost_call :
    let group : IndexGroup := ⟨"graylog", "internal"⟩
    let desk : Scene → Job → Except Error Unit := fun _ _ => .ok ()
    let s : Scene := { engine := Engine.serving group 0 }
    let view := s.engine.viewOf group
    let taken := (group.view.run (Scene.handler desk) s).1
    let lost := taken.next (.call (.aliasTarget view.group.aliasName))
      (Except.error (.unreachable "timeout")) taken.engine
    let rotated := (view.rotate 1).run (Scene.handler desk) lost
    Kept 1 group s.engine view lost ∧ Kept 1 group s.engine rotated.2.1 rotated.1 ∧
      view.target = some 0 ∧ view.segment 0 ∈ view.segments ∧
      (group.view.run (Scene.handler desk) (rotated.1.switch false false)).2 = .ok rotated.2.1 := by
  intro group desk s view taken lost rotated
  have hcanonical : s.engine.Canonical group := fun _ _ => Engine.canonical_serving
  have hneat : s.engine.Neat group.aliasName := (Engine.sound_serving group 0).neat _
  have hkept : Kept 1 group s.engine view taken := by
    have hleads := leads_run_interrupted group.view s desk
    rw [((answered_view group s).run_answered rfl desk).2] at hleads
    exact .taken hleads
  have hlost : Kept 1 group s.engine view lost := by
    have happens : interrupted taken.engine (.call (.aliasTarget view.group.aliasName))
        (Except.error (.unreachable "timeout")) taken.engine :=
      Or.inr ⟨.unreachable _ _, rfl⟩
    exact hkept.removeSegment (view.segment 0)
      (.single (@Step.perform _ interrupted taken _ _ _ _ happens))
  have hrotated : Kept 1 group s.engine rotated.2.1 rotated.1 :=
    hlost.rotate (leads_run_interrupted (view.rotate 1) lost desk)
  have htarget : view.target = some 0 := by
    refine ((Engine.current_viewOf hcanonical hneat).target_eq_some_iff 0).mpr ⟨?_, ?_⟩
    · rw [Engine.viewOf_collision]
      exact (Engine.orderly_serving group 0).noCollision
    · exact (Engine.targetsOf_serving ..).mpr ⟨rfl, rfl⟩
  exact ⟨hlost, hrotated, htarget, (hlost.eq_fresh hcanonical hneat).2 0 htarget,
    (hrotated.eq_fresh hcanonical hneat).1 false desk⟩

end Rollover
