/-!
# Talking to the index engine

The engine stores indices and aliases and knows nothing of groups or rotations.  A conversation
with it is a sequence of calls, each of which ends with an answer or with an error.  An engine that
says "no" --- the index exists already, there is nothing to delete --- gives an answer; an error
means that the call did not take place.

`EngineCall.Answer` gives each call its own type of answer.  Flushing has a two-valued answer,
because the engine counts flushes in 32 bits: a counter that is full cannot be raised, and the call
ends without a flush.
-/

namespace Rollover

/-- What the engine reports about one index. -/
structure IndexStats where
  /-- The number of stored documents. -/
  documents : UInt64 := 0
  /-- The size on disk. -/
  sizeBytes : UInt64 := 0
  /-- The timestamp of the oldest document, if there is one. -/
  earliest : Option UInt64 := none
  /-- The timestamp of the newest document, if there is one. -/
  latest : Option UInt64 := none
  /-- Whether the index refuses writes. -/
  readOnly : Bool := false
  deriving DecidableEq, Inhabited, Repr

/-- The indices of an engine with their statistics, in whatever order the engine lists them. -/
abbrev Listing := List (String × IndexStats)

/-- One request to the engine. -/
inductive EngineCall where
  /-- List all indices. -/
  | listIndices
  /-- Ask whether an alias points anywhere. -/
  | aliasExists (aliasName : String)
  /-- Ask which index an alias points to. -/
  | aliasTarget (aliasName : String)
  /-- Create an index. -/
  | createIndex (name : String)
  /-- Delete an index. -/
  | deleteIndex (name : String)
  /-- Write what is pending for an index to durable storage. -/
  | flush (name : String)
  /-- Stop accepting writes to an index. -/
  | setReadOnly (name : String)
  /-- Merge an index down to a number of internal segments. -/
  | optimize (name : String) (maxSegments : UInt32)
  /-- Let an alias point to `add`, and in the same step no longer to `remove`. -/
  | moveAlias (aliasName add : String) (remove : Option String)
  deriving DecidableEq, Inhabited, Repr

/-- How a flush ends. -/
inductive FlushAnswer where
  /-- The index was flushed. -/
  | flushed
  /-- The index's flush counter is at its largest value, so nothing was done. -/
  | counterFull
  deriving DecidableEq, Inhabited, Repr

namespace EngineCall

/-- The answers a call can have. -/
abbrev Answer : EngineCall → Type
  | .listIndices => Listing
  | .aliasExists _ | .createIndex _ | .deleteIndex _ => Bool
  | .aliasTarget _ => Option String
  | .flush _ => FlushAnswer
  | .setReadOnly _ | .optimize _ _ | .moveAlias _ _ _ => Unit

/-- Whether a call asks for a change, rather than for information. -/
def isMutation : EngineCall → Bool
  | .listIndices | .aliasExists _ | .aliasTarget _ => false
  | _ => true

end EngineCall

/-- Why a call did not take place. -/
inductive EngineError where
  /-- The engine could not be reached. -/
  | unreachable (message : String)
  /-- The engine refused the request. -/
  | rejected (message : String)
  /-- The name of an alias is taken by an index. -/
  | invalidAliasName (aliasName : String)
  /-- There is no such index. -/
  | indexNotFound (name : String)
  deriving DecidableEq, Inhabited, Repr

namespace EngineError

/-- The wording of an engine error. -/
def message : EngineError → String
  | .unreachable m => "engine unreachable: " ++ m
  | .rejected m => "engine rejected request: " ++ m
  | .invalidAliasName aliasName =>
    "invalid alias name [" ++ aliasName ++ "]: an index with this name exists"
  | .indexNotFound name => "index not found: " ++ name

end EngineError

/-- How a call ends. -/
abbrev EngineCall.Reply (call : EngineCall) : Type :=
  Except EngineError call.Answer

end Rollover
