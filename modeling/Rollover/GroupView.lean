import Std.Data.ExtTreeSet
import Rollover.Engine.Call
import Rollover.Program
import Rollover.Segment

/-!
# What a group looks like

A `GroupView` is what one operation knows of a group: the numbers of its indices, the index that its
alias is bound to, and whether an index has taken the alias's name.  It is taken afresh from the
engine for each operation (`IndexGroup.view`) and afterwards follows the changes that the operation
makes itself.

Since every index of a group is named after the group, a view keeps numbers only; names are put
together when they are needed.  A name with leading zeros is therefore held under its number and
shown without them.

## The view is a function of the engine's contents

`GroupView.ofListing` collects a set and asks whether a name occurs, so the order of the listing and
repetitions in it make no difference.  The alias is consulted only if its name is free, and it
counts as bound only if it leads to an index that the view holds: an alias on a foreign or missing
index is as good as unbound.
-/

namespace Rollover

namespace IndexGroup

/-- The number of a segment that is an index of the group. -/
def memberNumber? (group : IndexGroup) : Segment → Option UInt64
  | .ordinary base number => if base = group.fullName then some number else none
  | .writeAlias _ => none

end IndexGroup

/-- What an operation knows of a group. -/
structure GroupView where
  /-- The group. -/
  group : IndexGroup
  /-- The numbers of its indices. -/
  numbers : Std.ExtTreeSet UInt64 := ∅
  /-- The index its alias is bound to. -/
  target : Option UInt64 := none
  /-- Whether an index has the name of its alias. -/
  collision : Bool := false
  deriving DecidableEq, Inhabited

namespace GroupView

/-- The view of a group that holds the given segments, as far as they are indices of the group. -/
def ofSegments (group : IndexGroup) (segments : List Segment) : GroupView :=
  { group := group, numbers := Std.ExtTreeSet.ofList (segments.filterMap group.memberNumber?) }

/-- What a listing shows of a group.  It says nothing about where the alias points. -/
def ofListing (group : IndexGroup) (listing : Listing) : GroupView :=
  { group := group
    numbers := Std.ExtTreeSet.ofList (listing.filterMap fun entry => group.numberOf? entry.1)
    collision := listing.any fun entry => entry.1 == group.aliasName }

/-- The numbers in ascending order. -/
def toList (view : GroupView) : List UInt64 :=
  view.numbers.toList

/-- The names of the group's indices, in ascending order of their numbers. -/
def names (view : GroupView) : List String :=
  view.toList.map view.group.nameOf

/-- The segment with a number. -/
def segment (view : GroupView) (number : UInt64) : Segment :=
  .ordinary view.group.fullName number

/-- The segments of the group's indices, in ascending order. -/
def segments (view : GroupView) : List Segment :=
  view.toList.map view.segment

/-- The highest number. -/
def latest? (view : GroupView) : Option UInt64 :=
  view.numbers.max?

/-- The highest-numbered index, or the error that there is none. -/
def latest (view : GroupView) : Except Error Segment :=
  match view.latest? with
  | some number => .ok (view.segment number)
  | none => .error (.noTarget view.group.fullName)

/-- The number of the first index of a group. -/
def firstNumber : UInt64 := 0

/-- The number that a rotation would create next: one more than the highest.  After the last number
there is none. -/
def next? (view : GroupView) : Option UInt64 :=
  match view.latest? with
  | none => some firstNumber
  | some number => if number.toNat + 1 < UInt64.size then some (number + 1) else none

/-- Whether the view holds a segment. -/
def contains (view : GroupView) (segment : Segment) : Bool :=
  match view.group.memberNumber? segment with
  | some number => view.numbers.contains number
  | none => false

/-- The number under which the view holds an index of the engine. -/
def held? (view : GroupView) (name : String) : Option UInt64 :=
  match view.group.numberOf? name with
  | some number => if view.numbers.contains number then some number else none
  | none => none

/-- Whether the alias is bound to an index of the group. -/
def isUp (view : GroupView) : Bool :=
  view.target.isSome

/-! ## Changes -/

/-- The view with one more index. -/
def insert (view : GroupView) (number : UInt64) : GroupView :=
  { view with numbers := view.numbers.insert number }

/-- The view without an index.  An alias that was bound to it is bound no longer. -/
def erase (view : GroupView) (number : UInt64) : GroupView :=
  { view with
    numbers := view.numbers.erase number
    target := if view.target = some number then none else view.target }

/-- The number of a segment of this group; any other segment is foreign. -/
def requireMember (view : GroupView) (segment : Segment) : Except Error UInt64 :=
  match view.group.memberNumber? segment with
  | some number => .ok number
  | none => .error (.foreignSegment segment.name view.group.fullName)

open Program in
/-- Creates an index of the group.  The engine may refuse. -/
def create (view : GroupView) (segment : Segment) : Program (GroupView × Except Error Bool) := do
  match view.requireMember segment with
  | .error cause => return (view, .error cause)
  | .ok number =>
    match ← ask (.createIndex segment.name) with
    | .error cause => return (view, .error (.engineUnavailable cause))
    | .ok false => return (view, .ok false)
    | .ok true => return (view.insert number, .ok true)

open Program in
/-- Deletes an index of the group.  The engine may have nothing to delete. -/
def delete (view : GroupView) (segment : Segment) : Program (GroupView × Except Error Bool) := do
  match view.requireMember segment with
  | .error cause => return (view, .error cause)
  | .ok number =>
    match ← ask (.deleteIndex segment.name) with
    | .error cause => return (view, .error (.engineUnavailable cause))
    | .ok false => return (view, .ok false)
    | .ok true => return (view.erase number, .ok true)

end GroupView

/-! ## Taking a view -/

open Program in
/-- Takes a view of a group.  Any failure of the engine is a failure of the whole: an engine that
cannot be asked never looks like an empty group. -/
def IndexGroup.view (group : IndexGroup) : Program (Except Error GroupView) := do
  match ← ask .listIndices with
  | .error cause => return .error (.engineUnavailable cause)
  | .ok listing =>
    let view := GroupView.ofListing group listing
    if view.collision then return .ok view
    match ← ask (.aliasExists group.aliasName) with
    | .error cause => return .error (.engineUnavailable cause)
    | .ok false => return .ok view
    | .ok true =>
      match ← ask (.aliasTarget group.aliasName) with
      | .error cause => return .error (.engineUnavailable cause)
      | .ok target => return .ok { view with target := target.bind view.held? }

end Rollover
