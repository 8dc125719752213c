import Rollover.Error
import Rollover.IndexGroup
import Rollover.Json.Layout
import Rollover.Json.Reader

/-!
# The file of index groups

The groups of an installation are kept in a file, as a JSON array.  Each group is an object with the
members `global_prefix` and `index_name`, or, shorter, an array of just these two texts.  Members
with other names are allowed and ignored, as often as they occur; each of the two has to occur
exactly once.

What is written is canonical: the groups in ascending order, as objects, laid out over several
lines. A file that does not exist holds no groups.  One that cannot be read as text, or whose text
is not such an array, is an error, and never a file without groups.
-/

namespace Rollover

namespace IndexGroup

/-- Reads a group. -/
def ofJson? : Json → Option IndexGroup
  | .array [globalPrefix, indexName] => do
    return { globalPrefix := ← globalPrefix.text?, indexName := ← indexName.text? }
  | json => do
    let members ← json.members?
    match Json.field "global_prefix" members, Json.field "index_name" members with
    | .found globalPrefix, .found indexName =>
      return { globalPrefix := ← globalPrefix.text?, indexName := ← indexName.text? }
    | _, _ => none

/-- The tokens of a group. -/
def tokens (group : IndexGroup) : List Json.Token :=
  Json.Token.object [
    ("global_prefix", [.ofString group.globalPrefix]),
    ("index_name", [.ofString group.indexName])]

end IndexGroup

/-- What is found at the path of a file. -/
inductive FileContent where
  /-- There is nothing. -/
  | missing
  /-- There is something that cannot be read, such as a directory. -/
  | unreadable
  /-- There is a file. -/
  | bytes (bytes : ByteArray)
  deriving Inhabited

namespace GroupFile

/-- Reads the groups from the text of a file. -/
def parse? (text : String) : Option GroupSet := do
  let json ← Json.parse? text
  let groups ← (← json.items?).mapM IndexGroup.ofJson?
  return Std.ExtTreeSet.ofList groups

/-- The text of a file with these groups. -/
def text (groups : GroupSet) : String :=
  Json.pretty (Json.Token.array (groups.toList.map IndexGroup.tokens))

/-- Reads the groups from a file. -/
def load : FileContent → Except Error GroupSet
  | .missing => .ok ∅
  | .unreadable => .error .unreadableFile
  | .bytes bytes =>
    match String.fromUTF8? bytes with
    | none => .error .unreadableFile
    | some text =>
      match parse? text with
      | none => .error .malformedJson
      | some groups => .ok groups

/-- A file with these groups. -/
def save (groups : GroupSet) : FileContent :=
  .bytes (text groups).toUTF8

end GroupFile
end Rollover
