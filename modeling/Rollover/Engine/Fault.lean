import Rollover.Engine.Memory

/-!
# An engine that fails on request

A `FaultyEngine` puts a list of faults in front of an engine.  A fault waits for calls of one kind.
It lets a given number of them pass and then answers the next one in the engine's place, once: with
an error, or with "no".  A call that a fault answers never reaches the engine, which neither logs
nor executes it.

Faults for one kind take turns: only the first of them in the list is looked at, and the second
starts to count when the first is used up.
-/

namespace Rollover

/-- The kinds of engine calls. -/
inductive CallKind where
  | listIndices
  | aliasExists
  | aliasTarget
  | createIndex
  | deleteIndex
  | flush
  | setReadOnly
  | optimize
  | moveAlias
  deriving DecidableEq, Inhabited, Repr

/-- The kind of a call. -/
def EngineCall.kind : EngineCall → CallKind
  | .listIndices => .listIndices
  | .aliasExists _ => .aliasExists
  | .aliasTarget _ => .aliasTarget
  | .createIndex _ => .createIndex
  | .deleteIndex _ => .deleteIndex
  | .flush _ => .flush
  | .setReadOnly _ => .setReadOnly
  | .optimize _ _ => .optimize
  | .moveAlias _ _ _ => .moveAlias

/-- What a fault answers in the engine's place. -/
inductive FaultReply where
  /-- The call fails. -/
  | error (cause : EngineError)
  /-- The call is answered by "no", or by nothing where there is no such answer. -/
  | no
  deriving DecidableEq, Inhabited, Repr

/-- The answer to a call by which an engine says "no" without doing anything. -/
def EngineCall.no : (call : EngineCall) → call.Answer
  | .listIndices => []
  | .aliasExists _ | .createIndex _ | .deleteIndex _ => false
  | .aliasTarget _ => none
  | .flush _ => .flushed
  | .setReadOnly _ | .optimize _ _ | .moveAlias _ _ _ => ()

/-- The reply of a fault to a call. -/
def FaultReply.to (call : EngineCall) : FaultReply → call.Reply
  | .error cause => .error cause
  | .no => .ok call.no

/-- One fault: it lets `after` calls of its kind pass and answers the next. -/
structure Fault where
  /-- The kind of calls it waits for. -/
  kind : CallKind
  /-- What it answers. -/
  reply : FaultReply
  /-- How many calls it still lets pass. -/
  after : Nat := 0
  deriving DecidableEq, Inhabited, Repr

/-- What a list of faults makes of a call: the faults that are left, and a reply if one of them
answers. -/
def Fault.meet (call : EngineCall) : List Fault → List Fault × Option call.Reply
  | [] => ([], none)
  | fault :: faults =>
    if fault.kind = call.kind then
      match fault.after with
      | 0 => (faults, some (fault.reply.to call))
      | after + 1 => ({ fault with after := after } :: faults, none)
    else
      let (left, reply) := Fault.meet call faults
      (fault :: left, reply)

/-- An engine behind a list of faults. -/
structure FaultyEngine where
  /-- The engine. -/
  engine : Engine := {}
  /-- The faults that are still to come. -/
  faults : List Fault := []
  deriving Inhabited

namespace FaultyEngine

/-- A call to the engine behind the faults. -/
def perform (state : FaultyEngine) (call : EngineCall) : FaultyEngine × call.Reply :=
  match Fault.meet call state.faults with
  | (faults, some reply) => ({ state with faults := faults }, reply)
  | (faults, none) =>
    let (engine, reply) := state.engine.perform call
    ({ engine := engine, faults := faults }, reply)

@[simp] theorem perform_of_no_faults (engine : Engine) (call : EngineCall) :
    ({ engine := engine } : FaultyEngine).perform call =
      ({ engine := (engine.perform call).1 }, (engine.perform call).2) := rfl

end FaultyEngine
end Rollover
