import Std.Data.ExtTreeMap
import Rollover.IndexGroup

/-!
# Tables of groups

Streams select their group by its index name, so a table of groups can hold one group for each index
name.  Of several groups with the same index name the first in order is kept --- that is, the one
with the least prefix --- and the others are dropped.  What is kept and what is dropped does not
depend on the order in which the groups were given, and together they are all the groups given.
-/

namespace Rollover

/-- Groups by index name. -/
abbrev GroupTable := Std.ExtTreeMap String IndexGroup

namespace GroupTable

/-- Whether a group comes before another, or is the same. -/
def inOrder (a b : IndexGroup) : Bool :=
  (compare a b).isLE

/-- Goes through groups in order, keeps those whose index name is new to the table, and returns the
rest. -/
def sift (table : GroupTable) : List IndexGroup → GroupTable × List IndexGroup
  | [] => (table, [])
  | group :: groups =>
    if table.contains group.indexName then
      let (kept, dropped) := sift table groups
      (kept, group :: dropped)
    else sift (table.insert group.indexName group) groups

/-- One group for each index name, and the groups that had to give way. -/
def distinct (groups : List IndexGroup) : GroupTable × List IndexGroup :=
  sift ∅ (groups.mergeSort inOrder)

/-- The table of a set of groups. -/
def ofSet (groups : GroupSet) : GroupTable :=
  (distinct groups.toList).1

/-- The groups of a table. -/
def groups (table : GroupTable) : GroupSet :=
  Std.ExtTreeSet.ofList table.values

end GroupTable
end Rollover
