import Rollover.Rotation

/-!
# Operations on a group

What a caller asks for by the name of a group: each operation takes a fresh view, works on it and
lets it go.  Two operations that change the same group must not overlap (`Rollover.RotationLocks`);
operations on different groups may.

Listing and asking for the target change nothing.  The list of a group's indices comes in two forms:
`IndexGroup.segmentNames` shows the names of the numbers in a view, and `IndexGroup.memberStats` the
names as the engine has them, with their statistics.
-/

namespace Rollover

/-- An index of a group as the engine lists it. -/
structure Member where
  /-- The number in its name. -/
  number : UInt64
  /-- Its name in the engine. -/
  name : String
  /-- Its statistics. -/
  stats : IndexStats
  deriving DecidableEq, Inhabited, Repr

namespace Member

/-- Members are listed by number; names that stand for one number are listed by name. -/
def before (a b : Member) : Bool :=
  a.number < b.number || (a.number == b.number && a.name ≤ b.name)

end Member

namespace IndexGroup

open Program

variable {α : Type}

/-- The indices of a group among those of a listing, in order. -/
def members (group : IndexGroup) (listing : Listing) : List Member :=
  (listing.filterMap fun entry =>
    (group.numberOf? entry.1).map fun number =>
      { number := number, name := entry.1, stats := entry.2 }).mergeSort Member.before

/-- Runs an operation on a fresh view of the group. -/
def withView (group : IndexGroup) (operation : GroupView → Program (GroupView × Outcome α)) :
    Program (Outcome α) := do
  match ← group.view with
  | .error cause => return .error (.failed cause)
  | .ok view =>
    let (_, outcome) ← operation view
    return outcome

/-- Makes sure that the group's alias is bound. -/
def setUp (group : IndexGroup) (maxSegments : UInt32) : Program (Outcome SetUp) :=
  group.withView fun view => view.setUp maxSegments

/-- Rotates the group's alias to a new index. -/
def rotate (group : IndexGroup) (maxSegments : UInt32) : Program (Outcome Rotation) :=
  group.withView fun view => view.rotate maxSegments

/-- Deletes the index of the group that a name stands for.  A name that stands for none is refused
before the engine is asked anything. -/
def removeSegment (group : IndexGroup) (name : String) : Program (Except Error Bool) := do
  match group.parse name with
  | .error cause => return .error cause
  | .ok segment =>
    match ← group.view with
    | .error cause => return .error cause
    | .ok view =>
      let (_, result) ← view.removeSegment segment
      return result

/-- The names of the group's indices, in ascending order of their numbers. -/
def segmentNames (group : IndexGroup) : Program (Except Error (List String)) := do
  return (← group.view).map GroupView.names

/-- The group's indices as the engine lists them, with their statistics. -/
def memberStats (group : IndexGroup) : Program (Except Error (List Member)) := do
  match ← ask .listIndices with
  | .error cause => return .error (.engineUnavailable cause)
  | .ok listing => return .ok (group.members listing)

/-- What the group's alias is on right now. -/
def currentTarget (group : IndexGroup) : Program (Except Error (Option String)) := do
  match ← ask (.aliasTarget group.aliasName) with
  | .error cause => return .error (.engineUnavailable cause)
  | .ok target => return .ok target

end IndexGroup

open Program in
/-- Sets up groups one after the other.  A group that fails does not keep the next from its turn. -/
def setUpEach (maxSegments : UInt32) :
    List IndexGroup → Program (List (IndexGroup × Outcome SetUp))
  | [] => return []
  | group :: groups => do
    let outcome ← group.setUp maxSegments
    let outcomes ← setUpEach maxSegments groups
    return (group, outcome) :: outcomes

end Rollover
