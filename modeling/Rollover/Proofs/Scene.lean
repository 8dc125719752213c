import Mathlib.Logic.Relation
import Rollover.Proofs.Disturbance

/-!
# What a program upholds

A `Scene` is an engine together with everything that was done so far, newest first; each `Moment`
keeps the engine as the effect found it.  So a scene shows every state that the engine was in
between two effects, and what was called, handed over and recorded there.

`Program.Step` is one effect of a program in an environment.  A program can break off after any of
them, so statements about programs speak of all scenes on the way, not of the last one alone.

`Program.Upholds` is the tool for such statements.  A program upholds a *guard* and a *goal* if each
of its effects is performed in a scene in which the guard permits it, and the last scene meets the
goal with the result, whatever the environment replies.  It follows the program's own shape
(`upholds_ask`, `upholds_submit`, `upholds_record`), respects sequencing (`upholds_bind`), and
holds all along every play (`Upholds.steps`).  What each permitted effect leaves standing joins the
goal (`Upholds.carries`).  A run is such a play (`leads_run_of`), so what is upheld holds where it
ends (`Upholds.run`).
-/

namespace Rollover

/-- Something that was done, with the engine as it was found. -/
structure Moment where
  /-- The engine before. -/
  engine : Engine
  /-- What was done. -/
  effect : Effect
  /-- What came of it. -/
  reply : effect.Reply

/-- An engine, and everything that was done so far. -/
structure Scene where
  /-- The engine as it is. -/
  engine : Engine
  /-- What was done, newest first. -/
  past : List Moment := []

/-- Whether an effect asks the engine for information, and does nothing else. -/
def Effect.isRead : Effect → Bool
  | .call request => !request.isMutation
  | .submit _ | .record _ => false

namespace Scene

/-- The scene after an effect. -/
def next (s : Scene) (effect : Effect) (reply : effect.Reply) (engine : Engine) : Scene :=
  { engine := engine, past := ⟨s.engine, effect, reply⟩ :: s.past }

@[simp] theorem engine_next (s : Scene) (effect : Effect) (reply : effect.Reply)
    (engine : Engine) : (s.next effect reply engine).engine = engine := rfl

@[simp] theorem past_next (s : Scene) (effect : Effect) (reply : effect.Reply)
    (engine : Engine) : (s.next effect reply engine).past = ⟨s.engine, effect, reply⟩ :: s.past :=
  rfl

/-- Nothing happened from one scene to another, except that the engine was asked. -/
structure Quiet (s s' : Scene) : Prop where
  same : s.engine.Same s'.engine
  past : ∃ reads : List Moment, s'.past = reads ++ s.past ∧ ∀ m ∈ reads, m.effect.isRead = true

namespace Quiet

variable {s s' s'' : Scene}

protected theorem refl (s : Scene) : s.Quiet s :=
  ⟨.refl _, [], rfl, fun _ h => absurd h List.not_mem_nil⟩

protected theorem trans (h : s.Quiet s') (h' : s'.Quiet s'') : s.Quiet s'' := by
  obtain ⟨reads, hpast, hreads⟩ := h.past
  obtain ⟨reads', hpast', hreads'⟩ := h'.past
  refine ⟨h.same.trans h'.same, reads' ++ reads, by rw [hpast', hpast, List.append_assoc], ?_⟩
  intro m hm
  rcases List.mem_append.mp hm with hm | hm
  · exact hreads' m hm
  · exact hreads m hm

/-- A call that asks for information, and leaves the engine as it is. -/
theorem next {request : EngineCall} {reply : request.Reply} {engine : Engine}
    (hread : request.isMutation = false) (h : s.engine.Same engine) :
    s.Quiet (s.next (.call request) reply engine) :=
  ⟨h, [⟨s.engine, .call request, reply⟩], rfl, fun m hm => by
    rw [List.mem_singleton.mp hm]
    simp [Effect.isRead, hread]⟩

end Quiet

/-- Plays effects on an engine that no call fails to reach.  The desk takes jobs on or turns them
away as it likes. -/
def handler (desk : Scene → Job → Except Error Unit) : Handler Scene where
  call s request :=
    (s.next (.call request) (s.engine.perform request).2 (s.engine.perform request).1,
      (s.engine.perform request).2)
  submit s job := (s.next (.submit job) (desk s job) s.engine, desk s job)
  record s entry := s.next (.record entry) () s.engine

/-- The handler stays within the calm environment. -/
theorem handle_handler (desk : Scene → Job → Except Error Unit) (s : Scene) (effect : Effect) :
    ∃ reply engine, Environment.calm s.engine effect reply engine ∧
      (handler desk).handle s effect = (s.next effect reply engine, reply) := by
  cases effect with
  | call request => exact ⟨_, _, rfl, rfl⟩
  | submit job => exact ⟨desk s job, s.engine, rfl, rfl⟩
  | record entry => exact ⟨(), s.engine, rfl, rfl⟩

end Scene

namespace Program

variable {α β : Type} {env : Environment} {guard : Scene → Effect → Prop}
  {goal goal' : α → Scene → Prop} {s : Scene}

/-- One effect of a program. -/
inductive Step (env : Environment) : Program α × Scene → Program α × Scene → Prop
  /-- The effect is performed and replied to. -/
  | perform {s : Scene} {effect : Effect} {reply : effect.Reply} {engine : Engine}
      {next : effect.Reply → Program α} (h : env s.engine effect reply engine) :
      Step env (.perform effect next, s) (next reply, s.next effect reply engine)

/-- A program gets from one scene to another. -/
abbrev Leads (env : Environment) : Program α × Scene → Program α × Scene → Prop :=
  Relation.ReflTransGen (Step env)

/-- In an environment with more replies a program gets there as well. -/
theorem Leads.mono {env' : Environment} {x y : Program α × Scene} (h : Leads env x y)
    (henv : ∀ {e : Engine} {effect : Effect} {reply : effect.Reply} {e' : Engine},
      env e effect reply e' → env' e effect reply e') : Leads env' x y := by
  induction h with
  | refl => exact .refl
  | tail _ hstep ih =>
    cases hstep with
    | perform happens => exact ih.tail (.perform (henv happens))

/-- Each effect of the program is permitted by the guard, and its end meets the goal. -/
def Upholds (env : Environment) (guard : Scene → Effect → Prop) (goal : α → Scene → Prop) :
    Program α → Scene → Prop
  | done result, s => goal result s
  | perform effect next, s =>
    guard s effect ∧ ∀ reply engine, env s.engine effect reply engine →
      (next reply).Upholds env guard goal (s.next effect reply engine)

@[simp] theorem upholds_pure {result : α} :
    (pure result : Program α).Upholds env guard goal s ↔ goal result s := Iff.rfl

theorem upholds_ask {request : EngineCall} {f : request.Reply → Program α} :
    (ask request >>= f).Upholds env guard goal s ↔
      guard s (.call request) ∧ ∀ reply engine, env s.engine (.call request) reply engine →
        (f reply).Upholds env guard goal (s.next (.call request) reply engine) := Iff.rfl

theorem upholds_submit {job : Job} {f : Except Error Unit → Program α} :
    (submit job >>= f).Upholds env guard goal s ↔
      guard s (.submit job) ∧ ∀ reply engine, env s.engine (.submit job) reply engine →
        (f reply).Upholds env guard goal (s.next (.submit job) reply engine) := Iff.rfl

theorem upholds_record {entry : Activity} {f : Unit → Program α} :
    (record entry >>= f).Upholds env guard goal s ↔
      guard s (.record entry) ∧ ∀ reply engine, env s.engine (.record entry) reply engine →
        (f reply).Upholds env guard goal (s.next (.record entry) reply engine) := Iff.rfl

theorem upholds_bind {goal : β → Scene → Prop} {p : Program α} {f : α → Program β} :
    (p >>= f).Upholds env guard goal s ↔
      p.Upholds env guard (fun result s' => (f result).Upholds env guard goal s') s := by
  induction p generalizing s with
  | done result => rfl
  | perform effect next ih => simp only [perform_bind, Upholds, ih]

theorem Upholds.imp {p : Program α} (h : p.Upholds env guard goal s)
    (himp : ∀ result s', goal result s' → goal' result s') : p.Upholds env guard goal' s := by
  induction p generalizing s with
  | done result => exact himp _ _ h
  | perform effect next ih => exact ⟨h.1, fun reply engine he => ih reply (h.2 reply engine he)⟩

theorem Upholds.permit {guard' : Scene → Effect → Prop} {p : Program α}
    (h : p.Upholds env guard goal s) (hguard : ∀ s effect, guard s effect → guard' s effect) :
    p.Upholds env guard' goal s := by
  induction p generalizing s with
  | done result => exact h
  | perform effect next ih =>
    exact ⟨hguard _ _ h.1, fun reply engine he => ih reply (h.2 reply engine he)⟩

/-- What is upheld twice is upheld together. -/
theorem Upholds.and {guard' : Scene → Effect → Prop} {p : Program α}
    (h : p.Upholds env guard goal s) (h' : p.Upholds env guard' goal' s) :
    p.Upholds env (fun s' effect => guard s' effect ∧ guard' s' effect)
      (fun result s' => goal result s' ∧ goal' result s') s := by
  induction p generalizing s with
  | done result => exact ⟨h, h'⟩
  | perform effect next ih =>
    exact ⟨⟨h.1, h'.1⟩, fun reply engine he =>
      ih reply (h.2 reply engine he) (h'.2 reply engine he)⟩

/-- What is upheld in an environment is upheld in every environment with fewer replies. -/
theorem Upholds.restrict {env' : Environment} {p : Program α} (h : p.Upholds env guard goal s)
    (henv : ∀ e (effect : Effect) reply e', env' e effect reply e' → env e effect reply e') :
    p.Upholds env' guard goal s := by
  induction p generalizing s with
  | done result => exact h
  | perform effect next ih =>
    exact ⟨h.1, fun reply engine he => ih reply (h.2 reply engine (henv _ _ _ _ he))⟩

theorem Upholds.step {x y : Program α × Scene} (hstep : Step env x y)
    (h : x.1.Upholds env guard goal x.2) : y.1.Upholds env guard goal y.2 := by
  cases hstep with
  | perform he => exact h.2 _ _ he

theorem Upholds.steps {x y : Program α × Scene} (hsteps : Leads env x y)
    (h : x.1.Upholds env guard goal x.2) : y.1.Upholds env guard goal y.2 := by
  induction hsteps with
  | refl => exact h
  | tail _ hstep ih => exact ih.step hstep

/-- What the permitted effects preserve of the engine is preserved all along. -/
theorem Upholds.preserves {P : Engine → Prop} {x y : Program α × Scene} (hsteps : Leads env x y)
    (h : x.1.Upholds env guard goal x.2)
    (hP : ∀ (s : Scene) (effect : Effect) (reply : effect.Reply) (engine : Engine),
      guard s effect → env s.engine effect reply engine → P s.engine → P engine)
    (hx : P x.2.engine) : P y.2.engine := by
  induction hsteps with
  | refl => exact hx
  | tail hsteps hstep ih =>
    have hupholds := h.steps hsteps
    cases hstep with
    | perform he => exact hP _ _ _ _ hupholds.1 he ih

/-- What each permitted effect carries on to the next scene is carried on to the last one. -/
theorem Upholds.carries {P : Scene → Prop} {p : Program α} (h : p.Upholds env guard goal s)
    (hP : ∀ (s : Scene) (effect : Effect) (reply : effect.Reply) (engine : Engine),
      guard s effect → env s.engine effect reply engine → P s → P (s.next effect reply engine))
    (hs : P s) : p.Upholds env guard (fun result s' => goal result s' ∧ P s') s := by
  induction p generalizing s with
  | done result => exact ⟨h, hs⟩
  | perform effect next ih =>
    exact ⟨h.1, fun reply engine he =>
      ih reply (h.2 reply engine he) (hP _ _ _ _ h.1 he hs)⟩

/-- What the permitted effects preserve of the engine is there in the end. -/
theorem Upholds.keeps {P : Engine → Prop} {p : Program α} (h : p.Upholds env guard goal s)
    (hP : ∀ (s : Scene) (effect : Effect) (reply : effect.Reply) (engine : Engine),
      guard s effect → env s.engine effect reply engine → P s.engine → P engine)
    (hs : P s.engine) :
    p.Upholds env guard (fun result s' => goal result s' ∧ P s'.engine) s :=
  h.carries (P := fun s => P s.engine) hP hs

/-- A run gets a program to its end, in any environment that has room for what the handler does on
engines of a kind, as long as they stay of that kind. -/
theorem leads_run_of {P : Engine → Prop} {handler : Handler Scene}
    (hhandler : ∀ (s : Scene) (effect : Effect), P s.engine → ∃ reply engine,
      (env s.engine effect reply engine ∧ P engine) ∧
        handler.handle s effect = (s.next effect reply engine, reply))
    (p : Program α) (hs : P s.engine) :
    Leads env (p, s) (.done (p.run handler s).2, (p.run handler s).1) := by
  induction p generalizing s with
  | done result => exact .refl
  | perform effect next ih =>
    obtain ⟨reply, engine, ⟨henv, hengine⟩, heq⟩ := hhandler s effect hs
    rw [run_perform, heq]
    exact .head (.perform henv) (ih reply hengine)

/-- A program gets to its end where there is always a reply. -/
theorem exists_leads {P : Engine → Prop}
    (hreply : ∀ (e : Engine) (effect : Effect), P e → ∃ reply e', env e effect reply e' ∧ P e')
    (p : Program α) (hs : P s.engine) : ∃ result s', Leads env (p, s) (.done result, s') := by
  induction p generalizing s with
  | done result => exact ⟨result, s, .refl⟩
  | perform effect next ih =>
    obtain ⟨reply, engine, henv, hengine⟩ := hreply s.engine effect hs
    obtain ⟨result, s', hleads⟩ := @ih reply (s.next effect reply engine) hengine
    exact ⟨result, s', .head (.perform henv) hleads⟩

/-- What is upheld in an environment holds of every run from an engine on which the calls stay
within that environment. -/
theorem Upholds.run_of_within {fit : Engine → Prop}
    (hwithin : ∀ e (effect : Effect) reply e', fit e → Environment.calm e effect reply e' →
      env e effect reply e' ∧ fit e')
    {p : Program α} (h : p.Upholds env guard goal s) (hfit : fit s.engine)
    (desk : Scene → Job → Except Error Unit) :
    goal (p.run (Scene.handler desk) s).2 (p.run (Scene.handler desk) s).1 := by
  refine h.steps (leads_run_of (P := fit) (fun s effect hfit => ?_) p hfit)
  obtain ⟨reply, engine, hcalm, heq⟩ := Scene.handle_handler desk s effect
  exact ⟨reply, engine, hwithin _ _ _ _ hfit hcalm, heq⟩

/-- What is upheld in the answered environment holds of every run on an engine that is available. -/
theorem Upholds.run_answered {p : Program α}
    (h : p.Upholds Environment.answered guard goal s) (havailable : s.engine.unavailable = false)
    (desk : Scene → Job → Except Error Unit) :
    goal (p.run (Scene.handler desk) s).2 (p.run (Scene.handler desk) s).1 := by
  have hwithin : ∀ e (effect : Effect) reply e', e.unavailable = false →
      Environment.calm e effect reply e' →
        Environment.answered e effect reply e' ∧ e'.unavailable = false := by
    intro e effect reply e' hfit hcalm
    exact ⟨⟨hcalm, hfit⟩, (Environment.calm_switches hcalm).1.trans hfit⟩
  exact h.run_of_within hwithin havailable desk

/-- What is upheld in a steady environment holds of every run on an engine that is available and
creates indices or not, as that environment has it. -/
theorem Upholds.run_steady {p : Program α}
    (h : p.Upholds (Environment.steady s.engine.refusesCreates) guard goal s)
    (havailable : s.engine.unavailable = false) (desk : Scene → Job → Except Error Unit) :
    goal (p.run (Scene.handler desk) s).2 (p.run (Scene.handler desk) s).1 := by
  have hwithin : ∀ e (effect : Effect) reply e',
      e.unavailable = false ∧ e.refusesCreates = s.engine.refusesCreates →
      Environment.calm e effect reply e' →
        Environment.steady s.engine.refusesCreates e effect reply e' ∧
          e'.unavailable = false ∧ e'.refusesCreates = s.engine.refusesCreates := by
    intro e effect reply e' hfit hcalm
    obtain ⟨havailable', hcreates'⟩ := Environment.calm_switches hcalm
    exact ⟨⟨hcalm, hfit⟩, havailable'.trans hfit.1, hcreates'.trans hfit.2⟩
  exact h.run_of_within hwithin ⟨havailable, rfl⟩ desk

/-- What is upheld in the faultless environment holds of every run on an engine that is available
and creates indices. -/
theorem Upholds.run {p : Program α} (h : p.Upholds Environment.faultless guard goal s)
    (havailable : s.engine.unavailable = false) (hcreates : s.engine.refusesCreates = false)
    (desk : Scene → Job → Except Error Unit) :
    goal (p.run (Scene.handler desk) s).2 (p.run (Scene.handler desk) s).1 := by
  have hsteady : p.Upholds (Environment.steady s.engine.refusesCreates) guard goal s := by
    rw [hcreates]
    exact h
  exact hsteady.run_steady havailable desk

/-- A run on an engine gets a program to its end. -/
theorem leads_run (p : Program α) (s : Scene) (desk : Scene → Job → Except Error Unit) :
    Leads Environment.calm (p, s)
      (.done (p.run (Scene.handler desk) s).2, (p.run (Scene.handler desk) s).1) := by
  refine leads_run_of (P := fun _ => True) (fun s effect _ => ?_) p trivial
  obtain ⟨reply, engine, hcalm, heq⟩ := Scene.handle_handler desk s effect
  exact ⟨reply, engine, ⟨hcalm, trivial⟩, heq⟩

theorem leads_run_disturbed (p : Program α) (s : Scene) (desk : Scene → Job → Except Error Unit) :
    Leads Environment.disturbed (p, s)
      (.done (p.run (Scene.handler desk) s).2, (p.run (Scene.handler desk) s).1) :=
  Leads.mono (leads_run p s desk) Environment.disturbed_of_calm

end Program
end Rollover
