import Std.Data.ExtTreeMap
import Rollover.Operation

/-!
# Index ranges

A search over a span of time need not look into an index whose documents all lie outside it.  For
each group the span of every index is kept, as of the last time it was read from the engine.  An
index without a known beginning and end is never searched.

A rebuild replaces the ranges of one group, known by its full name, and leaves all others alone; one
that fails replaces nothing.

The moment at which a range was calculated is not kept with it, as there is no clock here and nothing
depends on it.
-/

namespace Rollover

/-- The span of time that the documents of an index cover. -/
structure IndexRange where
  /-- The name of the index. -/
  index : String
  /-- Its number within its group. -/
  number : UInt64
  /-- The timestamp of its oldest document. -/
  earliest : Option UInt64
  /-- The timestamp of its newest document. -/
  latest : Option UInt64
  deriving DecidableEq, Inhabited, Repr

namespace IndexRange

/-- The range of an index of a group. -/
def ofMember (member : Member) : IndexRange :=
  { index := member.name
    number := member.number
    earliest := member.stats.earliest
    latest := member.stats.latest }

/-- Whether the index may have documents between two points in time, both included. -/
def overlaps (range : IndexRange) (first last : UInt64) : Bool :=
  match range.earliest, range.latest with
  | some earliest, some latest => earliest ≤ last && latest ≥ first
  | _, _ => false

end IndexRange

/-- The ranges of all groups, by full name. -/
abbrev RangeTable := Std.ExtTreeMap String (List IndexRange)

namespace RangeTable

/-- The ranges of a group, in ascending order of the index numbers. -/
def rangesOf (table : RangeTable) (group : IndexGroup) : List IndexRange :=
  table.getD group.fullName []

/-- The indices of a group that may have documents between two points in time. -/
def covering (table : RangeTable) (group : IndexGroup) (first last : UInt64) : List String :=
  ((table.rangesOf group).filter fun range => range.overlaps first last).map IndexRange.index

/-- The table with the ranges of a group replaced. -/
def replace (table : RangeTable) (group : IndexGroup) (members : List Member) : RangeTable :=
  table.insert group.fullName (members.map IndexRange.ofMember)

/-- Reads the ranges of a group again: the table, and how many ranges the group has now. -/
def rebuild (table : RangeTable) (group : IndexGroup) :
    Program (RangeTable × Except Error Nat) := do
  match ← group.memberStats with
  | .error cause => return (table, .error cause)
  | .ok members => return (table.replace group members, .ok members.length)

/-- Does what a job asks for. -/
def execute (table : RangeTable) : Job → Program (RangeTable × Except Error Unit)
  | .rebuildRanges group => do
    let (table, count) ← table.rebuild group
    return (table, count.map fun _ => ())
  | .optimize index maxSegments => do
    match ← Program.ask (.optimize index maxSegments) with
    | .error cause => return (table, .error (.engineUnavailable cause))
    | .ok () => return (table, .ok ())

end RangeTable
end Rollover
