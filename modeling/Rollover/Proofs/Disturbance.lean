import Rollover.Engine.Memory
import Rollover.Program

/-!
# Engines under disturbance

An engine in memory always does what it is asked.  Between it and its callers lies a network, and
calls can get lost there: the caller sees an error, or sees a creation refused, and the engine never
heard of it.  An `Environment` says what may come of an effect, as a relation between the engine
before, the reply, and the engine after.  There are five of them.

* `Environment.calm`: every call reaches the engine.
* `Environment.disturbed`: any call may be turned down on the way instead.
* `Environment.answered`: every call reaches the engine, which is available.
* `Environment.steady`: it is also known whether the engine creates indices.
* `Environment.faultless`: the engine creates indices, too.

In all of them jobs are taken on or turned away at will, and the activity log takes every entry;
neither touches the engine.

What an operation can rely on is one statement for each call, `Environment.disturbed_createIndex`
and so on.  Each of them says the same thing: the engine has the same indices and aliases as
before, unless the reply reports the change.  The statements `Environment.answered_moveAlias` and so
on say in turn which reply there is; for the creation of an index that takes a steady environment
(`Environment.steady_createIndex`).  Everything that is proved about operations below is proved from
these two families; the engine's code is not looked at again.
-/

namespace Rollover

/-! ## Engines that hold the same -/

namespace Engine

variable {e e' e'' : Engine}

theorem hasIndex_iff {name : String} :
    e.hasIndex name = true ↔ ∃ state, e.indices[name]? = some state := by
  rw [hasIndex, Std.ExtTreeMap.contains_eq_isSome_getElem?, Option.isSome_iff_exists]

theorem aliasState_congr (h : e'.aliases = e.aliases) (aliasName : String) :
    e'.aliasState aliasName = e.aliasState aliasName := by
  rw [aliasState, h, aliasState]

theorem targetsOf_congr (h : e'.aliases = e.aliases) (aliasName : String) :
    e'.targetsOf aliasName = e.targetsOf aliasName := by
  rw [targetsOf, aliasState_congr h, targetsOf]

theorem movedTargets_congr (h : e'.aliases = e.aliases) (aliasName add : String)
    (remove : Option String) :
    e'.movedTargets aliasName add remove = e.movedTargets aliasName add remove := by
  cases remove with
  | none | some => simp only [movedTargets, targetsOf_congr h]

/-- There is such an index, and its flush counter is full. -/
def Full (e : Engine) (name : String) : Prop :=
  ∃ state, e.indices[name]? = some state ∧ ¬ state.flushes.toNat + 1 < UInt32.size

/-- Two engines that have the same indices and the same aliases. -/
structure Same (e e' : Engine) : Prop where
  indices : e'.indices = e.indices
  aliases : e'.aliases = e.aliases

namespace Same

protected theorem refl (e : Engine) : e.Same e := ⟨rfl, rfl⟩

protected theorem symm (h : e.Same e') : e'.Same e := ⟨h.indices.symm, h.aliases.symm⟩

protected theorem trans (h : e.Same e') (h' : e'.Same e'') : e.Same e'' :=
  ⟨h'.indices.trans h.indices, h'.aliases.trans h.aliases⟩

theorem hasIndex (h : e.Same e') (name : String) : e'.hasIndex name = e.hasIndex name := by
  rw [Engine.hasIndex, h.indices, Engine.hasIndex]

theorem aliasState (h : e.Same e') (aliasName : String) :
    e'.aliasState aliasName = e.aliasState aliasName :=
  aliasState_congr h.aliases aliasName

theorem targetsOf (h : e.Same e') (aliasName : String) :
    e'.targetsOf aliasName = e.targetsOf aliasName :=
  targetsOf_congr h.aliases aliasName

theorem listing (h : e.Same e') : e'.listing = e.listing := by
  rw [Engine.listing, h.indices, Engine.listing]

end Same

/-- The engine after a call was logged. -/
def logged (e : Engine) (call : EngineCall) : Engine :=
  { e with log := e.log.push call }

theorem same_logged (e : Engine) (call : EngineCall) : e.Same (e.logged call) := ⟨rfl, rfl⟩

theorem perform_of_unavailable {e : Engine} (h : e.unavailable = true) (call : EngineCall) :
    e.perform call =
      (e.logged call, .error (.unreachable "in-memory engine marked unavailable")) := by
  simp [perform, logged, h]

theorem perform_of_available {e : Engine} (h : e.unavailable = false) (call : EngineCall) :
    e.perform call = (e.logged call).respond call := by
  simp [perform, logged, h]

end Engine

/-! ## Environments -/

/-- The replies by which a call is turned down on its way to the engine. -/
inductive EngineCall.TurnedDown : (call : EngineCall) → call.Reply → Prop
  /-- The call fails. -/
  | failed (call : EngineCall) (cause : EngineError) : TurnedDown call (.error cause)
  /-- An index is not created. -/
  | notCreated (name : String) : TurnedDown (.createIndex name) (.ok false)

/-- What may come of an effect: a reply to it, and the engine afterwards. -/
abbrev Environment : Type :=
  Engine → (effect : Effect) → effect.Reply → Engine → Prop

namespace Environment

/-- Every call reaches the engine. -/
def calm : Environment
  | e, .call request, reply, e' => (e', reply) = e.perform request
  | e, .submit _, _, e' => e' = e
  | e, .record _, _, e' => e' = e

/-- Any call may be turned down instead, and then the engine does not hear of it. -/
def disturbed : Environment
  | e, .call request, reply, e' =>
    (e', reply) = e.perform request ∨ (request.TurnedDown reply ∧ e' = e)
  | e, .submit _, _, e' => e' = e
  | e, .record _, _, e' => e' = e

/-- Every call reaches the engine, which is available. -/
def answered : Environment
  | e, effect, reply, e' => calm e effect reply e' ∧ e.unavailable = false

/-- Every call reaches the engine, which is available, and either creates indices or refuses to. -/
def steady (refuses : Bool) : Environment
  | e, effect, reply, e' =>
    calm e effect reply e' ∧ e.unavailable = false ∧ e.refusesCreates = refuses

/-- Every call reaches the engine, which is available and creates indices. -/
def faultless : Environment
  | e, effect, reply, e' =>
    calm e effect reply e' ∧ e.unavailable = false ∧ e.refusesCreates = false

variable {e e' : Engine}

theorem disturbed_of_calm {effect : Effect} {reply : effect.Reply} (h : calm e effect reply e') :
    disturbed e effect reply e' := by
  cases effect with
  | call => exact Or.inl h
  | submit => exact h
  | record => exact h

theorem disturbed_of_answered {effect : Effect} {reply : effect.Reply}
    (h : answered e effect reply e') : disturbed e effect reply e' :=
  disturbed_of_calm h.1

theorem disturbed_of_faultless {effect : Effect} {reply : effect.Reply}
    (h : faultless e effect reply e') : disturbed e effect reply e' :=
  disturbed_of_calm h.1

/-- A call is turned down, or the engine responds to it. -/
theorem disturbed_call {request : EngineCall} {reply : request.Reply}
    (h : disturbed e (.call request) reply e') :
    (e.Same e' ∧ request.TurnedDown reply) ∨ (e', reply) = (e.logged request).respond request := by
  rcases h with h | ⟨h, rfl⟩
  · cases havailable : e.unavailable with
    | true =>
      rw [Engine.perform_of_unavailable havailable, Prod.mk.injEq] at h
      obtain ⟨rfl, rfl⟩ := h
      exact Or.inl ⟨e.same_logged request, .failed _ _⟩
    | false =>
      rw [Engine.perform_of_available havailable] at h
      exact Or.inr h
  · exact Or.inl ⟨.refl _, h⟩

/-! ## Calls that ask for information -/

/-- A call that asks for information is answered by what the engine holds, or it fails. -/
theorem disturbed_read {request : EngineCall} {reply : request.Reply}
    (hread : request.isMutation = false) (h : disturbed e (.call request) reply e') :
    e.Same e' ∧ (reply = (e.respond request).2 ∨ ∃ cause, reply = .error cause) := by
  rcases disturbed_call h with ⟨hsame, hdown⟩ | h
  · cases hdown with
    | failed _ cause => exact ⟨hsame, Or.inr ⟨cause, rfl⟩⟩
    | notCreated => cases hread
  · cases request with
    | listIndices | aliasExists | aliasTarget =>
      obtain ⟨rfl, rfl⟩ := Prod.mk.inj h
      exact ⟨e.same_logged _, Or.inl rfl⟩
    | createIndex | deleteIndex | flush | setReadOnly | optimize | moveAlias => cases hread

theorem disturbed_aliasTarget {aliasName : String}
    {reply : (EngineCall.aliasTarget aliasName).Reply}
    (h : disturbed e (.call (.aliasTarget aliasName)) reply e') :
    e.Same e' ∧ (reply = .ok (e.targetsOf aliasName).min? ∨ ∃ cause, reply = .error cause) :=
  disturbed_read rfl h

/-! ## Calls that ask for a change -/

/-- An index is created under a name that was free, or nothing happens. -/
theorem disturbed_createIndex {name : String} {reply : (EngineCall.createIndex name).Reply}
    (h : disturbed e (.call (.createIndex name)) reply e') :
    (e.Same e' ∧ (reply = .ok false ∨ ∃ cause, reply = .error cause)) ∨
      (reply = .ok true ∧ e.hasIndex name = false ∧
        Engine.Same { e with indices := e.indices.insert name {} } e') := by
  rcases disturbed_call h with ⟨hsame, hdown⟩ | h
  · cases hdown with
    | failed cause => exact Or.inl ⟨hsame, Or.inr ⟨_, rfl⟩⟩
    | notCreated => exact Or.inl ⟨hsame, Or.inl rfl⟩
  · simp only [Engine.respond] at h
    split at h
    · obtain ⟨rfl, rfl⟩ := Prod.mk.inj h
      exact Or.inl ⟨e.same_logged _, Or.inl rfl⟩
    · next hfree =>
      obtain ⟨rfl, rfl⟩ := Prod.mk.inj h
      have hfree' : e.hasIndex name = false := by
        have : (e.logged (.createIndex name)).hasIndex name = false := by simp_all
        rwa [(e.same_logged _).hasIndex] at this
      exact Or.inr ⟨rfl, hfree', rfl, rfl⟩

/-- An index is deleted and every alias forgets it, or nothing happens. -/
theorem disturbed_deleteIndex {name : String} {reply : (EngineCall.deleteIndex name).Reply}
    (h : disturbed e (.call (.deleteIndex name)) reply e') :
    (e.Same e' ∧ (reply = .ok false ∨ ∃ cause, reply = .error cause)) ∨
      (reply = .ok true ∧ e.hasIndex name = true ∧
        Engine.Same { e with
          indices := e.indices.erase name
          aliases := e.aliases.map fun _ state => state.forget name } e') := by
  rcases disturbed_call h with ⟨hsame, hdown⟩ | h
  · cases hdown with
    | failed cause => exact Or.inl ⟨hsame, Or.inr ⟨_, rfl⟩⟩
  · simp only [Engine.respond] at h
    split at h
    · next hindex =>
      obtain ⟨rfl, rfl⟩ := Prod.mk.inj h
      exact Or.inr ⟨rfl, hindex, rfl, rfl⟩
    · obtain ⟨rfl, rfl⟩ := Prod.mk.inj h
      exact Or.inl ⟨e.same_logged _, Or.inl rfl⟩

/-- The flush counter of an index goes up by one, or nothing happens. -/
theorem disturbed_flush {name : String} {reply : (EngineCall.flush name).Reply}
    (h : disturbed e (.call (.flush name)) reply e') :
    (e.Same e' ∧ ((reply = .ok .counterFull ∧ e.Full name) ∨ ∃ cause, reply = .error cause)) ∨
      (reply = .ok .flushed ∧ ∃ state, e.indices[name]? = some state ∧
        Engine.Same { e with
          indices := e.indices.insert name { state with flushes := state.flushes + 1 } } e') := by
  rcases disturbed_call h with ⟨hsame, hdown⟩ | h
  · cases hdown with
    | failed cause => exact Or.inl ⟨hsame, Or.inr ⟨_, rfl⟩⟩
  · simp only [Engine.respond] at h
    split at h
    · obtain ⟨rfl, rfl⟩ := Prod.mk.inj h
      exact Or.inl ⟨e.same_logged _, Or.inr ⟨_, rfl⟩⟩
    · next state hstate =>
      split at h
      · obtain ⟨rfl, rfl⟩ := Prod.mk.inj h
        exact Or.inr ⟨rfl, state, hstate, rfl, rfl⟩
      · next hfull =>
        obtain ⟨rfl, rfl⟩ := Prod.mk.inj h
        exact Or.inl ⟨e.same_logged _, Or.inl ⟨rfl, state, hstate, hfull⟩⟩

/-- An index stops accepting writes, or nothing happens. -/
theorem disturbed_setReadOnly {name : String} {reply : (EngineCall.setReadOnly name).Reply}
    (h : disturbed e (.call (.setReadOnly name)) reply e') :
    (e.Same e' ∧ ∃ cause, reply = .error cause) ∨
      (reply = .ok () ∧ ∃ state, e.indices[name]? = some state ∧
        Engine.Same { e with
          indices := e.indices.insert name
            { state with stats := { state.stats with readOnly := true } } } e') := by
  rcases disturbed_call h with ⟨hsame, hdown⟩ | h
  · cases hdown with
    | failed cause => exact Or.inl ⟨hsame, _, rfl⟩
  · simp only [Engine.respond, Engine.updateIndex] at h
    split at h
    · obtain ⟨rfl, rfl⟩ := Prod.mk.inj h
      exact Or.inl ⟨e.same_logged _, _, rfl⟩
    · next state hstate =>
      obtain ⟨rfl, rfl⟩ := Prod.mk.inj h
      exact Or.inr ⟨rfl, state, hstate, rfl, rfl⟩

/-- An alias moves to an index that exists, or nothing happens. -/
theorem disturbed_moveAlias {aliasName add : String} {remove : Option String}
    {reply : (EngineCall.moveAlias aliasName add remove).Reply}
    (h : disturbed e (.call (.moveAlias aliasName add remove)) reply e') :
    (e.Same e' ∧ ∃ cause, reply = .error cause) ∨
      (reply = .ok () ∧ e.hasIndex add = true ∧
        Engine.Same { e with
          aliases := e.aliases.insert aliasName
            ((e.aliasState aliasName).retarget (e.movedTargets aliasName add remove)) } e') := by
  rcases disturbed_call h with ⟨hsame, hdown⟩ | h
  · cases hdown with
    | failed cause => exact Or.inl ⟨hsame, _, rfl⟩
  · simp only [Engine.respond] at h
    split at h
    · obtain ⟨rfl, rfl⟩ := Prod.mk.inj h
      exact Or.inl ⟨e.same_logged _, _, rfl⟩
    · split at h
      · obtain ⟨rfl, rfl⟩ := Prod.mk.inj h
        exact Or.inl ⟨e.same_logged _, _, rfl⟩
      · next hindex =>
        obtain ⟨rfl, rfl⟩ := Prod.mk.inj h
        have hindex' : e.hasIndex add = true := by
          rw [← (e.same_logged (.moveAlias aliasName add remove)).hasIndex]
          simpa using hindex
        exact Or.inr ⟨rfl, hindex', rfl, rfl⟩

/-! ## Calls that are answered -/

section Answered

variable {refuses : Bool}

theorem answered_of_steady {effect : Effect} {reply : effect.Reply}
    (h : steady refuses e effect reply e') : answered e effect reply e' :=
  ⟨h.1, h.2.1⟩

theorem answered_of_faultless {effect : Effect} {reply : effect.Reply}
    (h : faultless e effect reply e') : answered e effect reply e' :=
  ⟨h.1, h.2.1⟩

theorem answered_call {request : EngineCall} {reply : request.Reply}
    (h : answered e (.call request) reply e') :
    (e', reply) = (e.logged request).respond request := by
  obtain ⟨hcalm, havailable⟩ := h
  rw [← Engine.perform_of_available havailable]
  exact hcalm

/-- A call that asks for information is answered by what the engine holds. -/
theorem answered_read {request : EngineCall} {reply : request.Reply}
    (hread : request.isMutation = false) (h : answered e (.call request) reply e') :
    e.Same e' ∧ reply = (e.respond request).2 := by
  have hrespond := answered_call h
  cases request with
  | listIndices | aliasExists | aliasTarget =>
    obtain ⟨rfl, rfl⟩ := Prod.mk.inj hrespond
    exact ⟨e.same_logged _, rfl⟩
  | createIndex | deleteIndex | flush | setReadOnly | optimize | moveAlias => cases hread

/-- An index whose name is free is created, unless the engine refuses or an alias has the name. -/
theorem steady_createIndex {name : String} {reply : (EngineCall.createIndex name).Reply}
    (hfree : e.hasIndex name = false) (h : steady refuses e (.call (.createIndex name)) reply e') :
    (reply = .ok false ∧ e.Same e' ∧ (refuses = true ∨ e.aliases.contains name = true)) ∨
      (reply = .ok true ∧ (refuses = false ∧ e.aliases.contains name = false) ∧
        Engine.Same { e with indices := e.indices.insert name {} } e') := by
  have hrespond := answered_call (answered_of_steady h)
  have hfree' : (e.logged (.createIndex name)).hasIndex name = false := hfree
  have hrefuses : (e.logged (.createIndex name)).refusesCreates = refuses := h.2.2
  simp only [Engine.respond, hrefuses, hfree', Bool.or_false] at hrespond
  split at hrespond
  · next hrefused =>
    obtain ⟨rfl, rfl⟩ := Prod.mk.inj hrespond
    exact Or.inl ⟨rfl, e.same_logged _, Bool.or_eq_true_iff.mp hrefused⟩
  · next hcreates =>
    obtain ⟨rfl, rfl⟩ := Prod.mk.inj hrespond
    exact Or.inr ⟨rfl, Bool.or_eq_false_iff.mp (Bool.eq_false_iff.mpr hcreates), rfl, rfl⟩

/-- An index is deleted if it exists. -/
theorem answered_deleteIndex {name : String} {reply : (EngineCall.deleteIndex name).Reply}
    (h : answered e (.call (.deleteIndex name)) reply e') : reply = .ok (e.hasIndex name) := by
  have hrespond := answered_call h
  have hindex : (e.logged (.deleteIndex name)).hasIndex name = e.hasIndex name := rfl
  simp only [Engine.respond, hindex] at hrespond
  split at hrespond
  · next hpresent =>
    rw [hpresent]
    exact (Prod.mk.inj hrespond).2
  · next habsent =>
    rw [Bool.eq_false_iff.mpr habsent]
    exact (Prod.mk.inj hrespond).2

/-- An alias moves to an index that exists, if no index has its name. -/
theorem answered_moveAlias {aliasName add : String} {remove : Option String}
    {reply : (EngineCall.moveAlias aliasName add remove).Reply}
    (hcollision : e.hasIndex aliasName = false) (hindex : e.hasIndex add = true)
    (h : answered e (.call (.moveAlias aliasName add remove)) reply e') :
    reply = .ok () ∧ Engine.Same { e with
      aliases := e.aliases.insert aliasName
        ((e.aliasState aliasName).retarget (e.movedTargets aliasName add remove)) } e' := by
  have hrespond := answered_call h
  have hcollision' : (e.logged (.moveAlias aliasName add remove)).hasIndex aliasName = false :=
    hcollision
  have hindex' : (e.logged (.moveAlias aliasName add remove)).hasIndex add = true := hindex
  simp only [Engine.respond, hcollision', hindex'] at hrespond
  obtain ⟨rfl, rfl⟩ := Prod.mk.inj hrespond
  exact ⟨rfl, rfl, rfl⟩

/-- An index that exists is flushed, unless its flush counter is full. -/
theorem answered_flush {name : String} {state : IndexState}
    {reply : (EngineCall.flush name).Reply} (hstate : e.indices[name]? = some state)
    (h : answered e (.call (.flush name)) reply e') :
    (reply = .ok .counterFull ∧ e.Same e' ∧ e.Full name) ∨
      (reply = .ok .flushed ∧ Engine.Same { e with
        indices := e.indices.insert name { state with flushes := state.flushes + 1 } } e') := by
  have hrespond := answered_call h
  have hstate' : (e.logged (.flush name)).indices[name]? = some state := hstate
  simp only [Engine.respond, hstate'] at hrespond
  split at hrespond
  · obtain ⟨rfl, rfl⟩ := Prod.mk.inj hrespond
    exact Or.inr ⟨rfl, rfl, rfl⟩
  · next hfull =>
    obtain ⟨rfl, rfl⟩ := Prod.mk.inj hrespond
    exact Or.inl ⟨rfl, e.same_logged _, state, hstate, hfull⟩

/-- An index that exists is set read-only. -/
theorem answered_setReadOnly {name : String} {state : IndexState}
    {reply : (EngineCall.setReadOnly name).Reply} (hstate : e.indices[name]? = some state)
    (h : answered e (.call (.setReadOnly name)) reply e') :
    reply = .ok () ∧ Engine.Same { e with
      indices := e.indices.insert name
        { state with stats := { state.stats with readOnly := true } } } e' := by
  have hrespond := answered_call h
  have hstate' : (e.logged (.setReadOnly name)).indices[name]? = some state := hstate
  simp only [Engine.respond, Engine.updateIndex, hstate'] at hrespond
  obtain ⟨rfl, rfl⟩ := Prod.mk.inj hrespond
  exact ⟨rfl, rfl, rfl⟩

end Answered

end Environment

namespace Engine

/-- No call touches the engine's switches. -/
theorem perform_switches (e : Engine) (call : EngineCall) :
    (e.perform call).1.unavailable = e.unavailable ∧
      (e.perform call).1.refusesCreates = e.refusesCreates := by
  have hrespond : ∀ e : Engine, (e.respond call).1.unavailable = e.unavailable ∧
      (e.respond call).1.refusesCreates = e.refusesCreates := by
    intro e
    cases call with
    | listIndices | aliasExists | aliasTarget => exact ⟨rfl, rfl⟩
    | createIndex | deleteIndex =>
      simp only [respond]
      split <;> exact ⟨rfl, rfl⟩
    | setReadOnly | optimize =>
      simp only [respond, updateIndex]
      split <;> exact ⟨rfl, rfl⟩
    | flush | moveAlias =>
      simp only [respond]
      split
      · exact ⟨rfl, rfl⟩
      · split <;> exact ⟨rfl, rfl⟩
  unfold perform
  dsimp only
  split
  · exact ⟨rfl, rfl⟩
  · exact hrespond _

end Engine

/-- An effect leaves the switches where they are. -/
theorem Environment.calm_switches {e e' : Engine} {effect : Effect} {reply : effect.Reply}
    (h : calm e effect reply e') :
    e'.unavailable = e.unavailable ∧ e'.refusesCreates = e.refusesCreates := by
  cases effect with
  | submit job => exact h ▸ ⟨rfl, rfl⟩
  | record entry => exact h ▸ ⟨rfl, rfl⟩
  | call request =>
    have hswitches := e.perform_switches request
    rw [← show (e', reply) = e.perform request from h] at hswitches
    exact hswitches

/-- An effect that is turned down leaves them, too. -/
theorem Environment.disturbed_switches {e e' : Engine} {effect : Effect} {reply : effect.Reply}
    (h : disturbed e effect reply e') :
    e'.unavailable = e.unavailable ∧ e'.refusesCreates = e.refusesCreates := by
  cases effect with
  | submit job => exact h ▸ ⟨rfl, rfl⟩
  | record entry => exact h ▸ ⟨rfl, rfl⟩
  | call request =>
    rcases h with hcalm | ⟨-, rfl⟩
    · exact @calm_switches e e' (.call request) reply hcalm
    · exact ⟨rfl, rfl⟩

end Rollover
