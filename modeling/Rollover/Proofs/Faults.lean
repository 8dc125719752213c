import Rollover.Engine.Fault
import Rollover.Proofs.BestEffort

/-!
# Engines behind any faults

A fault answers a call in the engine's place, with an error or with "no".  An engine can be behind
any number of them, and they may wait for whatever has happened before they answer.  This is the
widest of the environments, `Environment.faulty`; a `FaultyEngine` stays within it
(`FaultyEngine.faulty_perform`), and so does an engine that is disturbed.  What a view shows there
need not be what the engine holds.

Two things can be relied on all the same.

* Asking leaves the engine as it is, apart from its log (`Scene.Consulted`).
* The log makes no difference to what the engine does.  So after it was only asked, a program can
  come to what it could come to before, with the same effects and the same replies, and to nothing
  else (`Program.WorksAlike`).

A `Handler` of scenes that stays within an environment decides about each effect in view of
everything that was done.  What is upheld in the environment holds of its runs
(`Program.Upholds.run_within`).
-/

namespace Rollover

open Program

namespace Environment

variable {e e' : Engine}

/-- Any call may be answered by a fault instead, and then the engine does not hear of it. -/
def faulty : Environment
  | e, .call request, reply, e' =>
    (e', reply) = e.perform request ∨ ((∃ fault : FaultReply, reply = fault.to request) ∧ e' = e)
  | e, .submit _, _, e' => e' = e
  | e, .record _, _, e' => e' = e

/-- What turns a call down is a fault. -/
theorem faulty_of_disturbed {effect : Effect} {reply : effect.Reply}
    (h : disturbed e effect reply e') : faulty e effect reply e' := by
  cases effect with
  | call request =>
    rcases h with h | ⟨hdown, rfl⟩
    · exact Or.inl h
    · cases hdown with
      | failed _ cause => exact Or.inr ⟨⟨.error cause, rfl⟩, rfl⟩
      | notCreated name => exact Or.inr ⟨⟨.no, rfl⟩, rfl⟩
  | submit job => exact h
  | record entry => exact h

/-- A call that asks for information leaves the engine as it is, apart from its log. -/
theorem faulty_read {request : EngineCall} {reply : request.Reply}
    (hread : request.isMutation = false) (h : faulty e (.call request) reply e') :
    e'.clearLog = e.clearLog := by
  rcases h with h | ⟨-, rfl⟩
  · rw [show e' = (e.perform request).1 from congrArg Prod.fst h]
    cases havailable : e.unavailable with
    | true =>
      rw [Engine.perform_of_unavailable havailable]
      rfl
    | false =>
      rw [Engine.perform_of_available havailable]
      cases request with
      | listIndices | aliasExists | aliasTarget => rfl
      | createIndex | deleteIndex | flush | setReadOnly | optimize | moveAlias => cases hread
  · rfl

end Environment

/-- A fault that answers a call answers it in one of its two ways. -/
theorem Fault.meet_eq_some {call : EngineCall} {faults : List Fault} {reply : call.Reply}
    (h : (Fault.meet call faults).2 = some reply) : ∃ fault : FaultReply, reply = fault.to call := by
  induction faults with
  | nil => cases h
  | cons fault faults ih =>
    by_cases hkind : fault.kind = call.kind
    · cases hafter : fault.after with
      | zero =>
        simp only [meet, hkind, if_true, hafter] at h
        exact ⟨fault.reply, (Option.some.inj h).symm⟩
      | succ after =>
        simp only [meet, hkind, if_true, hafter] at h
        cases h
    · simp only [meet, hkind, if_false] at h
      exact ih h

/-- **An engine behind a list of faults stays within the environment of any faults.** -/
theorem FaultyEngine.faulty_perform (state : FaultyEngine) (call : EngineCall) :
    Environment.faulty state.engine (.call call) (state.perform call).2
      (state.perform call).1.engine := by
  unfold FaultyEngine.perform
  cases hmeet : Fault.meet call state.faults with
  | mk faults answer =>
    cases answer with
    | some reply => exact Or.inr ⟨Fault.meet_eq_some (congrArg Prod.snd hmeet), rfl⟩
    | none => exact Or.inl rfl

/-! ## Handlers -/

/-- Whatever the handler does about an effect, it stays within the environment. -/
def Handler.Within (handler : Handler Scene) (env : Environment) : Prop :=
  ∀ (s : Scene) (effect : Effect), ∃ reply engine, env s.engine effect reply engine ∧
    handler.handle s effect = (s.next effect reply engine, reply)

/-- Plays effects on an engine behind faults, which answer calls in view of what was done. -/
def Scene.handlerBehind (fault? : Scene → EngineCall → Option FaultReply)
    (desk : Scene → Job → Except Error Unit) : Handler Scene where
  call s request :=
    match fault? s request with
    | some fault => (s.next (.call request) (fault.to request) s.engine, fault.to request)
    | none =>
      let (engine, reply) := s.engine.perform request
      (s.next (.call request) reply engine, reply)
  submit s job := (s.next (.submit job) (desk s job) s.engine, desk s job)
  record s entry := s.next (.record entry) () s.engine

theorem Scene.handlerBehind_within (fault? : Scene → EngineCall → Option FaultReply)
    (desk : Scene → Job → Except Error Unit) :
    (handlerBehind fault? desk).Within Environment.faulty := by
  intro s effect
  cases effect with
  | call request =>
    cases hfault : fault? s request with
    | some fault =>
      refine ⟨fault.to request, s.engine, Or.inr ⟨⟨fault, rfl⟩, rfl⟩, ?_⟩
      simp only [Handler.handle, handlerBehind, hfault]
    | none =>
      refine ⟨(s.engine.perform request).2, (s.engine.perform request).1, Or.inl rfl, ?_⟩
      simp only [Handler.handle, handlerBehind, hfault]
  | submit job => exact ⟨desk s job, s.engine, rfl, rfl⟩
  | record entry => exact ⟨(), s.engine, rfl, rfl⟩

section Runs

variable {α : Type} {env : Environment} {guard : Scene → Effect → Prop} {goal : α → Scene → Prop}
  {handler : Handler Scene} {s : Scene}

theorem Handler.Within.mono {env' : Environment} (h : handler.Within env)
    (henv : ∀ {e : Engine} {effect : Effect} {reply : effect.Reply} {e' : Engine},
      env e effect reply e' → env' e effect reply e') : handler.Within env' := by
  intro s effect
  obtain ⟨reply, engine, hreply, heq⟩ := h s effect
  exact ⟨reply, engine, henv hreply, heq⟩

/-- What is upheld in an environment holds of every run within it. -/
theorem Program.Upholds.run_within {p : Program α} (h : p.Upholds env guard goal s)
    (hhandler : handler.Within env) : goal (p.run handler s).2 (p.run handler s).1 := by
  refine h.steps (leads_run_of (P := fun _ => True) (fun s effect _ => ?_) p trivial)
  obtain ⟨reply, engine, hreply, heq⟩ := hhandler s effect
  exact ⟨reply, engine, ⟨hreply, trivial⟩, heq⟩

end Runs

/-! ## Asking -/

/-- The engine was asked, and nothing else was done.  Only its log shows it. -/
structure Scene.Consulted (s s' : Scene) : Prop where
  quiet : s.Quiet s'
  clearLog : s'.engine.clearLog = s.engine.clearLog

namespace Scene.Consulted

variable {s s' s'' : Scene}

protected theorem refl (s : Scene) : s.Consulted s := ⟨.refl s, rfl⟩

protected theorem trans (h : s.Consulted s') (h' : s'.Consulted s'') : s.Consulted s'' :=
  ⟨h.quiet.trans h'.quiet, h'.clearLog.trans h.clearLog⟩

end Scene.Consulted

theorem Engine.same_of_clearLog {e e' : Engine} (h : e'.clearLog = e.clearLog) : e.Same e' :=
  ⟨show e'.clearLog.indices = _ from h ▸ rfl, show e'.clearLog.aliases = _ from h ▸ rfl⟩

/-- A program that only asks changes nothing but the log, whatever faults there are. -/
theorem Program.Upholds.consulted {α : Type} {goal : α → Scene → Prop} {p : Program α} {s : Scene}
    (h : p.Upholds Environment.faulty (fun _ effect => effect.isRead = true) goal s) :
    p.Upholds Environment.faulty (fun _ effect => effect.isRead = true)
      (fun result s' => goal result s' ∧ s.Consulted s') s := by
  refine h.carries (fun s₁ effect reply engine hread hreply hconsulted => ?_) (.refl s)
  cases effect with
  | call request =>
    have hmutation : request.isMutation = false := by simpa [Effect.isRead] using hread
    have hlog := Environment.faulty_read hmutation hreply
    exact hconsulted.trans ⟨.next hmutation (Engine.same_of_clearLog hlog), hlog⟩
  | submit job => exact absurd hread Bool.false_ne_true
  | record entry => exact absurd hread Bool.false_ne_true

/-! ## What the log is for -/

namespace Engine

variable {e e' : Engine}

/-- An engine with another log responds alike. -/
theorem respond_log (e : Engine) (log : Array EngineCall) (call : EngineCall) :
    ({ e with log := log } : Engine).respond call =
      ({ (e.respond call).1 with log := log }, (e.respond call).2) := by
  have hindex : ∀ name, ({ e with log := log } : Engine).hasIndex name = e.hasIndex name :=
    fun _ => rfl
  cases call with
  | listIndices | aliasExists | aliasTarget => rfl
  | createIndex | deleteIndex =>
    simp only [respond, hindex]
    split <;> rfl
  | setReadOnly | optimize =>
    simp only [respond, updateIndex]
    split <;> rfl
  | flush =>
    simp only [respond]
    split
    · rfl
    · split <;> rfl
  | moveAlias =>
    simp only [respond, hindex]
    split
    · rfl
    · split <;> rfl

/-- Engines that differ in their logs alone do the same on a call. -/
theorem perform_of_clearLog (h : e'.clearLog = e.clearLog) (call : EngineCall) :
    (e'.perform call).2 = (e.perform call).2 ∧
      (e'.perform call).1.clearLog = (e.perform call).1.clearLog := by
  obtain ⟨log, rfl⟩ : ∃ log, e' = { e with log := log } := by
    refine ⟨e'.log, ?_⟩
    cases e
    cases e'
    cases h
    rfl
  rcases Bool.eq_false_or_eq_true e.unavailable with hdown | hup
  · have hdown' : ({ e with log := log } : Engine).unavailable = true := hdown
    rw [perform_of_unavailable hdown, perform_of_unavailable hdown']
    exact ⟨rfl, rfl⟩
  · have hup' : ({ e with log := log } : Engine).unavailable = false := hup
    rw [perform_of_available hup, perform_of_available hup']
    show (({ e with log := log.push call } : Engine).respond call).2 =
        (({ e with log := e.log.push call } : Engine).respond call).2 ∧
      (({ e with log := log.push call } : Engine).respond call).1.clearLog =
        (({ e with log := e.log.push call } : Engine).respond call).1.clearLog
    rw [respond_log, respond_log e (e.log.push call)]
    exact ⟨rfl, rfl⟩

end Engine

/-- What comes of an effect on an engine can come of it on one that differs in its log alone. -/
theorem Environment.faulty_of_clearLog {e e' e₁ : Engine} {effect : Effect} {reply : effect.Reply}
    (h : faulty e effect reply e₁) (hlog : e'.clearLog = e.clearLog) :
    ∃ e₁', faulty e' effect reply e₁' ∧ e₁'.clearLog = e₁.clearLog := by
  cases effect with
  | call request =>
    rcases h with h | ⟨hfault, rfl⟩
    · obtain ⟨rfl, rfl⟩ := Prod.mk.inj h
      obtain ⟨hreply, hafter⟩ := Engine.perform_of_clearLog hlog request
      exact ⟨(e'.perform request).1, Or.inl (Prod.ext rfl hreply.symm), hafter⟩
    · exact ⟨e', Or.inr ⟨hfault, rfl⟩, hlog⟩
  | submit job => exact ⟨e', rfl, hlog.trans (congrArg Engine.clearLog h.symm)⟩
  | record entry => exact ⟨e', rfl, hlog.trans (congrArg Engine.clearLog h.symm)⟩

/-- What was done so far, and what was learnt from it. -/
def Scene.exchanges (s : Scene) : List ((effect : Effect) × effect.Reply) :=
  s.past.map fun m => ⟨m.effect, m.reply⟩

theorem Scene.exchanges_next (s : Scene) (effect : Effect) (reply : effect.Reply)
    (engine : Engine) :
    (s.next effect reply engine).exchanges = ⟨effect, reply⟩ :: s.exchanges := rfl

namespace Program

variable {α : Type} {s s' : Scene}

/-- Wherever the program comes to from one scene, it can come to from the other by the same effects
with the same replies, and the engines are then the same but for their logs. -/
def Replays (p : Program α) (s s' : Scene) : Prop :=
  ∀ (q : Program α) (t : Scene), Leads Environment.faulty (p, s) (q, t) →
    ∃ t' done, Leads Environment.faulty (p, s') (q, t') ∧ t'.engine.clearLog = t.engine.clearLog ∧
      t.exchanges = done ++ s.exchanges ∧ t'.exchanges = done ++ s'.exchanges

/-- The program works in the one scene as it does in the other. -/
def WorksAlike (p : Program α) (s s' : Scene) : Prop :=
  p.Replays s s' ∧ p.Replays s' s

theorem replays_of_clearLog (p : Program α) (h : s'.engine.clearLog = s.engine.clearLog) :
    p.Replays s s' := by
  intro q t hleads
  -- Each step is repeated from where the repetition has got to.
  suffices hrepeat : ∀ y : Program α × Scene, Leads Environment.faulty (p, s) y →
      ∃ t' done, Leads Environment.faulty (p, s') (y.1, t') ∧
        t'.engine.clearLog = y.2.engine.clearLog ∧
        y.2.exchanges = done ++ s.exchanges ∧ t'.exchanges = done ++ s'.exchanges from
    hrepeat (q, t) hleads
  intro y hy
  induction hy with
  | refl => exact ⟨s', [], .refl, h, rfl, rfl⟩
  | tail _ hstep ih =>
    obtain ⟨t', done, hleads', hlog, hdone, hdone'⟩ := ih
    cases hstep with
    | @perform u effect reply engine next hreply =>
      obtain ⟨engine', hreply', hlog'⟩ := Environment.faulty_of_clearLog hreply hlog
      refine ⟨t'.next effect reply engine', ⟨effect, reply⟩ :: done,
        hleads'.tail (.perform hreply'), hlog', ?_, ?_⟩
      · rw [Scene.exchanges_next, hdone, List.cons_append]
      · rw [Scene.exchanges_next, hdone', List.cons_append]

/-- **After the engine was only asked, every program works as before.** -/
theorem worksAlike_of_consulted (p : Program α) (h : s.Consulted s') : p.WorksAlike s s' :=
  ⟨p.replays_of_clearLog h.clearLog, p.replays_of_clearLog h.clearLog.symm⟩

end Program
end Rollover
