import Rollover.GroupView

/-!
# Setting up, rotating and pruning a group

Messages are written through a group's write alias.  A *rotation* creates the group's next index and
moves the alias there; what the alias was on before is *sealed*: flushed, set read-only and handed
over to be merged.  *Setting up* makes sure that the alias is bound at all.  *Removing* a segment
deletes an index that the alias is not on.

All three work on a view and return the view as they leave it, also when they fail on the way.

## The order of a rotation

1. An index on the alias's name stops everything.  So does the end of the numbers.
2. The engine is asked what the alias is on now.  That need not be the latest index, nor an index of
   the group at all; whatever it is, the alias leaves it.
3. The next index is created.  Until then nothing has changed, and if the engine refuses nothing
   will.
4. A rebuild of the group's ranges is handed over.
5. The alias moves in one step, so that nobody ever finds it unbound or bound twice.
6. If the alias came from an index of the group, that index is sealed.  Nothing that fails here
   fails the rotation.
7. The rotation is recorded.

Jobs are handed over without waiting for them, and a job that is turned away is no failure.
-/

namespace Rollover

/-- A rotation that took place. -/
structure Rotation where
  /-- The index of the group that the alias was on before, if there was one. -/
  previous : Option Segment
  /-- The index that the alias is on now. -/
  next : Segment
  /-- Whether the previous index was flushed and set read-only. -/
  sealed : Bool
  deriving DecidableEq, Inhabited, Repr

/-- What setting up found or did. -/
inductive SetUp where
  /-- The alias was bound, and nothing was done. -/
  | alreadyUp
  /-- The alias was pointed at the latest index. -/
  | repaired (target : Segment)
  /-- The group was empty and got its first index. -/
  | bootstrapped (rotation : Rotation)
  deriving DecidableEq, Inhabited, Repr

namespace GroupView

open Program

/-- Hands over a rebuild of the group's ranges, and records it if nobody takes it on. -/
def offerRebuild (view : GroupView) : Program Unit := do
  match ← submit (.rebuildRanges view.group) with
  | .ok () => return ()
  | .error _ => record .rangesNotRebuilt

/-- Moves the alias to an index of the group, away from `old`. -/
def pointTo (view : GroupView) (number : UInt64) (old : Option String) :
    Program (GroupView × Except Error Unit) := do
  match ← ask (.moveAlias view.group.aliasName (view.group.nameOf number) old) with
  | .ok () => return ({ view with target := some number }, .ok ())
  | .error (.invalidAliasName _) =>
    return ({ view with collision := true }, .error (.aliasCollision view.group.aliasName))
  | .error cause => return (view, .error (.engineUnavailable cause))

/-- Seals an index that the alias has left: whether it was flushed and set read-only. -/
def sealIndex (maxSegments : UInt32) (name : String) : Program (Outcome Bool) := do
  match ← ask (.flush name) with
  | .error _ => return .ok false
  | .ok .counterFull => return .error .overflow
  | .ok .flushed =>
    match ← ask (.setReadOnly name) with
    | .error _ => return .ok false
    | .ok () =>
      let _ ← submit (.optimize name maxSegments)
      return .ok true

/-- The end of a rotation from `previous` to `next`: sealing, if there is something to seal, and the
record. -/
def retire (view : GroupView) (maxSegments : UInt32) (previous : Option UInt64) (next : UInt64) :
    Program (Outcome Rotation) := do
  match previous with
  | none =>
    record (.rotated none (view.group.nameOf next))
    return .ok { previous := none, next := view.segment next, sealed := false }
  | some number =>
    match ← sealIndex maxSegments (view.group.nameOf number) with
    | .error halt => return .error halt
    | .ok frozen =>
      record (.rotated (some (view.group.nameOf number)) (view.group.nameOf next))
      return .ok {
        previous := some (view.segment number), next := view.segment next, sealed := frozen }

/-- Rotates the alias to a new index. -/
def rotate (view : GroupView) (maxSegments : UInt32) : Program (GroupView × Outcome Rotation) := do
  if view.collision then
    return (view, .error (.failed (.aliasCollision view.group.aliasName)))
  match view.next? with
  | none => return (view, .error .overflow)
  | some next =>
    match ← ask (.aliasTarget view.group.aliasName) with
    | .error cause => return (view, .error (.failed (.engineUnavailable cause)))
    | .ok bound =>
      match ← view.create (view.segment next) with
      | (view, .error cause) => return (view, .error (.failed cause))
      | (view, .ok false) =>
        return (view, .error (.failed (.createRefused (view.group.nameOf next))))
      | (grown, .ok true) =>
        grown.offerRebuild
        match ← grown.pointTo next bound with
        | (moved, .error cause) => return (moved, .error (.failed cause))
        | (moved, .ok ()) =>
          let outcome ← moved.retire maxSegments (bound.bind view.held?) next
          return (moved, outcome)

/-- Makes sure that the alias is bound.  An empty group gets its first index; otherwise an unbound
alias goes to the latest index, away from whatever it may be on. -/
def setUp (view : GroupView) (maxSegments : UInt32) : Program (GroupView × Outcome SetUp) := do
  if view.collision then
    return (view, .error (.failed (.aliasCollision view.group.aliasName)))
  if view.isUp then
    return (view, .ok .alreadyUp)
  match view.latest? with
  | none =>
    record .creatingFirstIndex
    let (view, outcome) ← view.rotate maxSegments
    return (view, outcome.map .bootstrapped)
  | some latest =>
    match ← ask (.aliasTarget view.group.aliasName) with
    | .error cause => return (view, .error (.failed (.engineUnavailable cause)))
    | .ok stale =>
      match ← view.pointTo latest stale with
      | (view, .error cause) => return (view, .error (.failed cause))
      | (view, .ok ()) => return (view, .ok (.repaired (view.segment latest)))

/-- Deletes an index of the group, unless it is what the alias is on. -/
def removeSegment (view : GroupView) (segment : Segment) :
    Program (GroupView × Except Error Bool) := do
  match ← ask (.aliasTarget view.group.aliasName) with
  | .error cause => return (view, .error (.engineUnavailable cause))
  | .ok target =>
    if target = some segment.name then
      return (view, .error (.writeTarget segment.name))
    match ← view.delete segment with
    | (view, .ok true) =>
      view.offerRebuild
      return (view, .ok true)
    | result => return result

end GroupView
end Rollover
