import Std.Data.ExtTreeMap
import Std.Data.ExtTreeSet
import Rollover.Engine.Call

/-!
# An engine in memory

`Engine` is a complete index engine as a value: its indices, its aliases with everything they ever
pointed to, and a log of all calls.  `Engine.perform` is the whole of its behaviour: it takes a call
and returns the next engine with the reply.

Three rules hold for every call.  It is logged first, whatever becomes of it.  While the engine is
unavailable it then fails.  And a call that fails, or is answered by "no", changes nothing but the
log.

An alias may point to any number of indices at once.  Each change of its targets adds the new set to
its history, so a history shows every set the alias has had, the current one last.  An alias that
has lost all its targets stays known to the engine, and its name stays taken.

Tables are ordered by name, which is the order in which the engine lists what it has and picks the
first of several targets.
-/

namespace Rollover

/-- One index of the engine. -/
structure IndexState where
  /-- What the engine reports about the index. -/
  stats : IndexStats := {}
  /-- How often it was flushed. -/
  flushes : UInt32 := 0
  /-- The number of internal segments it was last merged down to. -/
  optimizedTo : Option UInt32 := none
  deriving DecidableEq, Inhabited

/-- One alias of the engine. -/
structure AliasState where
  /-- The indices it points to. -/
  targets : Std.ExtTreeSet String := ∅
  /-- Every set of targets it has had, oldest first. -/
  history : List (List String) := []
  deriving DecidableEq, Inhabited

namespace AliasState

/-- The alias after its targets have changed. -/
def retarget (state : AliasState) (targets : Std.ExtTreeSet String) : AliasState :=
  { targets := targets, history := state.history ++ [targets.toList] }

/-- The alias after an index is gone.  Only an alias that pointed to it changes. -/
def forget (state : AliasState) (name : String) : AliasState :=
  if name ∈ state.targets then state.retarget (state.targets.erase name) else state

@[simp] theorem targets_retarget (state : AliasState) (targets : Std.ExtTreeSet String) :
    (state.retarget targets).targets = targets := rfl

@[simp] theorem history_retarget (state : AliasState) (targets : Std.ExtTreeSet String) :
    (state.retarget targets).history = state.history ++ [targets.toList] := rfl

@[simp] theorem targets_forget (state : AliasState) (name : String) :
    (state.forget name).targets = state.targets.erase name := by
  unfold forget
  split
  · rfl
  · next h =>
    refine Std.ExtTreeSet.ext_mem fun k => ?_
    rw [Std.ExtTreeSet.mem_erase]
    refine ⟨fun hk => ⟨fun he => h ?_, hk⟩, fun hk => hk.2⟩
    rwa [Std.LawfulEqOrd.compare_eq_iff_eq.1 he]

end AliasState

/-- An index engine that lives in memory. -/
structure Engine where
  /-- The indices by name. -/
  indices : Std.ExtTreeMap String IndexState := ∅
  /-- The aliases by name. -/
  aliases : Std.ExtTreeMap String AliasState := ∅
  /-- Every call, oldest first. -/
  log : Array EngineCall := #[]
  /-- Whether every call fails. -/
  unavailable : Bool := false
  /-- Whether the engine creates no index. -/
  refusesCreates : Bool := false

namespace Engine

instance : Inhabited Engine := ⟨{}⟩

/-! ## What an engine holds -/

/-- Whether there is an index with a name. -/
def hasIndex (engine : Engine) (name : String) : Bool :=
  engine.indices.contains name

/-- The names of all indices, in ascending order. -/
def indexNames (engine : Engine) : List String :=
  engine.indices.keys

/-- The indices with their statistics, by name. -/
def listing (engine : Engine) : Listing :=
  engine.indices.toList.map fun entry => (entry.1, entry.2.stats)

/-- An alias with its past.  One that the engine never heard of has no targets and no past. -/
def aliasState (engine : Engine) (aliasName : String) : AliasState :=
  engine.aliases[aliasName]?.getD {}

/-- The indices an alias points to. -/
def targetsOf (engine : Engine) (aliasName : String) : Std.ExtTreeSet String :=
  (engine.aliasState aliasName).targets

/-- Every set of targets an alias has had, oldest first. -/
def historyOf (engine : Engine) (aliasName : String) : List (List String) :=
  (engine.aliasState aliasName).history

/-- The target of an alias that has exactly one. -/
def soleTarget? (engine : Engine) (aliasName : String) : Option String :=
  match (engine.targetsOf aliasName).toList with
  | [target] => some target
  | _ => none

/-- The logged calls that asked for a change. -/
def mutations (engine : Engine) : Array EngineCall :=
  engine.log.filter EngineCall.isMutation

/-! ## Preparing an engine

These changes are made from outside the conversation and leave no trace in the log. -/

/-- Inserts or replaces an index. -/
def insertIndex (engine : Engine) (name : String) (stats : IndexStats) : Engine :=
  { engine with indices := engine.indices.insert name { stats := stats } }

/-- Lets an alias point to one index alone. -/
def bindAlias (engine : Engine) (aliasName target : String) : Engine :=
  { engine with
    aliases := engine.aliases.insert aliasName
      ((engine.aliasState aliasName).retarget (Std.ExtTreeSet.ofList [target])) }

/-- Forgets all logged calls. -/
def clearLog (engine : Engine) : Engine :=
  { engine with log := #[] }

/-- An engine with indices of default statistics. -/
def ofIndices (names : List String) : Engine :=
  names.foldl (fun engine name => engine.insertIndex name {}) {}

/-! ## The conversation -/

/-- The targets of an alias after a move. -/
def movedTargets (engine : Engine) (aliasName add : String) (remove : Option String) :
    Std.ExtTreeSet String :=
  match remove with
  | none => (engine.targetsOf aliasName).insert add
  | some old => ((engine.targetsOf aliasName).erase old).insert add

/-- Changes one index, if there is one with the name. -/
def updateIndex (engine : Engine) (name : String) (change : IndexState → IndexState) :
    Engine × Except EngineError Unit :=
  match engine.indices[name]? with
  | none => (engine, .error (.indexNotFound name))
  | some state => ({ engine with indices := engine.indices.insert name (change state) }, .ok ())

/-- What an available engine does on a call. -/
def respond (engine : Engine) : (call : EngineCall) → Engine × call.Reply
  | .listIndices => (engine, .ok engine.listing)
  | .aliasExists aliasName => (engine, .ok !(engine.targetsOf aliasName).isEmpty)
  | .aliasTarget aliasName => (engine, .ok (engine.targetsOf aliasName).min?)
  | .createIndex name =>
    if engine.refusesCreates || engine.hasIndex name || engine.aliases.contains name then
      (engine, .ok false)
    else
      ({ engine with indices := engine.indices.insert name {} }, .ok true)
  | .deleteIndex name =>
    if engine.hasIndex name then
      ({ engine with
          indices := engine.indices.erase name
          aliases := engine.aliases.map fun _ state => state.forget name }, .ok true)
    else (engine, .ok false)
  | .flush name =>
    match engine.indices[name]? with
    | none => (engine, .error (.indexNotFound name))
    | some state =>
      if state.flushes.toNat + 1 < UInt32.size then
        ({ engine with
            indices := engine.indices.insert name { state with flushes := state.flushes + 1 } },
          .ok .flushed)
      else (engine, .ok .counterFull)
  | .setReadOnly name =>
    engine.updateIndex name fun state =>
      { state with stats := { state.stats with readOnly := true } }
  | .optimize name maxSegments =>
    engine.updateIndex name fun state => { state with optimizedTo := some maxSegments }
  | .moveAlias aliasName add remove =>
    if engine.hasIndex aliasName then (engine, .error (.invalidAliasName aliasName))
    else if !engine.hasIndex add then (engine, .error (.indexNotFound add))
    else
      ({ engine with
          aliases := engine.aliases.insert aliasName
            ((engine.aliasState aliasName).retarget (engine.movedTargets aliasName add remove)) },
        .ok ())

/-- What an engine does on a call: it logs the call, and responds if it is available. -/
def perform (engine : Engine) (call : EngineCall) : Engine × call.Reply :=
  let logged := { engine with log := engine.log.push call }
  if engine.unavailable then
    (logged, .error (.unreachable "in-memory engine marked unavailable"))
  else logged.respond call

end Engine
end Rollover
