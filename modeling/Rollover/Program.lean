import Rollover.Activity
import Rollover.Engine.Call
import Rollover.Error
import Rollover.Job

/-!
# Programs over an engine

Everything that is done to a write alias is done by a conversation: a call to the engine, a look at
the reply, the next call.  On the way jobs are handed over and activities are recorded.  A `Program`
is such a conversation as data.  It is a tree: a leaf carries a result, and every other node carries
an *effect* and a continuation for each reply to it.

What a program does is therefore settled without saying who is at the other end.  That is chosen by
a `Handler`, which answers effects from a state of its own; `Program.run` plays a program against
one.  The same operation can so be run against an engine in memory, against one that fails at any
point, or one effect at a time with other operations in between, and a statement about all engines
is a statement about all replies.

## Main definitions

* `Effect` and `Effect.Reply`: what a program can do, and what it learns.
* `Program`, with its monad structure, and `ask`, `submit`, `record` as its three atoms.
* `Handler` and `Program.run`; `Program.run_bind` says that running respects sequencing.
-/

namespace Rollover

/-- What a program can do at one point. -/
inductive Effect where
  /-- Call the engine. -/
  | call (request : EngineCall)
  /-- Hand over a job. -/
  | submit (job : Job)
  /-- Write to the activity log. -/
  | record (entry : Activity)
  deriving DecidableEq, Inhabited, Repr

/-- What a program learns from an effect.  A job is taken on or turned away with an error. -/
abbrev Effect.Reply : Effect → Type
  | .call request => request.Reply
  | .submit _ => Except Error Unit
  | .record _ => Unit

/-- A conversation that ends with a result of type `α`. -/
inductive Program (α : Type) where
  /-- The end of the conversation. -/
  | done (result : α)
  /-- An effect, and how to go on after each reply. -/
  | perform (effect : Effect) (next : effect.Reply → Program α)

namespace Program

variable {α β γ σ : Type}

/-- One program after the other. -/
def bind : Program α → (α → Program β) → Program β
  | done result, f => f result
  | perform effect next, f => perform effect fun reply => (next reply).bind f

instance : Monad Program where
  pure := done
  bind := bind

@[simp] theorem pure_eq_done (result : α) : (pure result : Program α) = done result := rfl

@[simp] theorem done_bind (result : α) (f : α → Program β) : done result >>= f = f result := rfl

@[simp] theorem perform_bind (effect : Effect) (next : effect.Reply → Program α)
    (f : α → Program β) :
    perform effect next >>= f = perform effect fun reply => next reply >>= f := rfl

theorem bind_done (p : Program α) : p >>= done = p := by
  induction p with
  | done => rfl
  | perform effect next ih => simp [ih]

theorem bind_bind (p : Program α) (f : α → Program β) (g : β → Program γ) :
    p >>= f >>= g = p >>= fun a => f a >>= g := by
  induction p with
  | done => rfl
  | perform effect next ih => simp [ih]

instance : LawfulMonad Program :=
  LawfulMonad.mk' Program bind_done (fun _ _ => rfl) bind_bind

/-- Calls the engine. -/
def ask (request : EngineCall) : Program request.Reply :=
  perform (.call request) done

/-- Hands over a job. -/
def submit (job : Job) : Program (Except Error Unit) :=
  perform (.submit job) done

/-- Writes to the activity log. -/
def record (entry : Activity) : Program Unit :=
  perform (.record entry) done

end Program

/-- Who answers the effects of a program, from a state of type `σ`. -/
structure Handler (σ : Type) where
  /-- Replies to a call to the engine. -/
  call : σ → (request : EngineCall) → σ × request.Reply
  /-- Takes a job on or turns it away. -/
  submit : σ → Job → σ × Except Error Unit
  /-- Keeps an entry of the activity log. -/
  record : σ → Activity → σ

/-- The reply to an effect. -/
def Handler.handle {σ : Type} (handler : Handler σ) (state : σ) :
    (effect : Effect) → σ × effect.Reply
  | .call request => handler.call state request
  | .submit job => handler.submit state job
  | .record entry => (handler.record state entry, ())

namespace Program

variable {α β σ : Type}

/-- Plays a program against a handler: the state in the end, and the result. -/
def run (handler : Handler σ) : Program α → σ → σ × α
  | done result, state => (state, result)
  | perform effect next, state =>
    let (state, reply) := handler.handle state effect
    (next reply).run handler state

@[simp] theorem run_done (handler : Handler σ) (result : α) (state : σ) :
    (done result).run handler state = (state, result) := rfl

theorem run_perform (handler : Handler σ) (effect : Effect) (next : effect.Reply → Program α)
    (state : σ) :
    (perform effect next).run handler state =
      (next (handler.handle state effect).2).run handler (handler.handle state effect).1 := rfl

theorem run_bind (handler : Handler σ) (p : Program α) (f : α → Program β) (state : σ) :
    (p >>= f).run handler state =
      (f (p.run handler state).2).run handler (p.run handler state).1 := by
  induction p generalizing state with
  | done => rfl
  | perform effect next ih => simp [run_perform, ih]

end Program
end Rollover
