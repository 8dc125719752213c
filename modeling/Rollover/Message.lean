import Std.Data.ExtTreeMap
import Rollover.Json.Layout
import Rollover.Json.Reader

/-!
# Messages

A message is what gets written to an index.  It has an identity, the streams it was matched into ---
in order, and possibly with repetitions --- and a table of named fields.

As JSON a message is an object with the members `id`, `stream_ids` and `fields`.  The last two may
be missing, and so may the ends of the array form, which lists the three values in this order.  Of
two fields with the same name the later one counts.  Written, a message always has all three
members, and its fields stand in ascending order of their names.
-/

namespace Rollover

/-- A message to be indexed. -/
structure Message where
  /-- Its identity. -/
  id : String
  /-- The streams it was matched into. -/
  streamIds : List String := []
  /-- Its fields by name. -/
  fields : Std.ExtTreeMap String String := ∅
  deriving DecidableEq, Inhabited

namespace Message

/-- The message with one more stream. -/
def withStream (message : Message) (stream : String) : Message :=
  { message with streamIds := message.streamIds ++ [stream] }

/-- The message with a field set. -/
def withField (message : Message) (key value : String) : Message :=
  { message with fields := message.fields.insert key value }

/-- Reads the streams of a message. -/
def readStreams? (json : Json) : Option (List String) := do
  (← json.items?).mapM Json.text?

/-- Reads the fields of a message. -/
def readFields? (json : Json) : Option (Std.ExtTreeMap String String) := do
  let entries ← (← json.members?).mapM fun member =>
    member.2.text?.map fun value => (member.1, value)
  return Std.ExtTreeMap.ofList entries

/-- A member that may be missing, and then has a default. -/
def orDefault {α : Type} (read : Json → Option α) (default : α) : Json.Field → Option α
  | .missing => some default
  | .found json => read json
  | .repeated => none

/-- Reads a message. -/
def ofJson? : Json → Option Message
  | .array [id] => do
    return { id := ← id.text? }
  | .array [id, streams] => do
    return { id := ← id.text?, streamIds := ← readStreams? streams }
  | .array [id, streams, fields] => do
    return { id := ← id.text?, streamIds := ← readStreams? streams, fields := ← readFields? fields }
  | json => do
    let members ← json.members?
    match Json.field "id" members with
    | .found id =>
      return {
        id := ← id.text?
        streamIds := ← orDefault readStreams? [] (Json.field "stream_ids" members)
        fields := ← orDefault readFields? ∅ (Json.field "fields" members) }
    | _ => none

/-- Reads a message from a text. -/
def parse? (text : String) : Option Message :=
  (Json.parse? text).bind ofJson?

/-- Reads a list of messages from a text. -/
def parseList? (text : String) : Option (List Message) := do
  (← (← Json.parse? text).items?).mapM ofJson?

/-- The tokens of a message. -/
def tokens (message : Message) : List Json.Token :=
  Json.Token.object [
    ("id", [.ofString message.id]),
    ("stream_ids", Json.Token.array (message.streamIds.map fun stream => [.ofString stream])),
    ("fields", Json.Token.object
      (message.fields.toList.map fun field => (field.1, [.ofString field.2])))]

/-- The text of a message. -/
def text (message : Message) : String :=
  Json.compact message.tokens

end Message
end Rollover
