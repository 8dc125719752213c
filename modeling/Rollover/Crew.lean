import Rollover.Installation
import Rollover.RotationLocks

/-!
# Rotating at the same time

A `Crew` is a number of workers who rotate groups on one installation at the same time.  Each has a
list of groups to rotate, one after the other.  For every rotation a worker obtains a handle on the
group's rotation lock, waits until the lock is free, goes through the rotation one effect at a time,
and gives lock and handle back.

`Crew.step` lets one worker take one step, and the steps may be taken in any order: a *schedule* is
a list of the workers whose turn it is (`Crew.follow`).  A worker who waits for a lock, or who has
nothing left to do, lets the turn pass.  `Crew.takeTurns` is the schedule in which everybody gets a
turn in every round.
-/

namespace Rollover

/-- Where a worker is with the rotation at hand. -/
inductive Stage where
  /-- Between two rotations. -/
  | idle
  /-- With a handle on the lock of a group. -/
  | waiting (lock : LockId) (group : IndexGroup)
  /-- In the middle of a rotation, with the lock. -/
  | rotating (lock : LockId) (rest : Program (Outcome Rotation))

/-- Someone who rotates groups. -/
structure Worker where
  /-- The groups still to rotate, besides the one at hand. -/
  todo : List IndexGroup
  /-- Where the worker is with the one at hand. -/
  stage : Stage := .idle

/-- Whether a worker has nothing left to do. -/
def Worker.isDone (worker : Worker) : Bool :=
  match worker.stage, worker.todo with
  | .idle, [] => true
  | _, _ => false

/-- Workers who rotate groups of one installation at the same time. -/
structure Crew where
  /-- What they work on. -/
  installation : Installation
  /-- The locks. -/
  locks : RotationLocks := {}
  /-- The locks that are taken. -/
  taken : List LockId := []
  /-- The workers. -/
  workers : List Worker
  /-- How many rotations took place. -/
  succeeded : Nat := 0
  /-- How many rotations failed. -/
  failed : Nat := 0

namespace Crew

/-- One step of a worker. -/
def advance (crew : Crew) (worker : Worker) : Crew × Worker :=
  match worker.stage with
  | .idle =>
    match worker.todo with
    | [] => (crew, worker)
    | group :: todo =>
      let registered := Std.ExtTreeSet.ofList
        (crew.installation.registry.table.values.map IndexGroup.fullName)
      let (locks, lock) := crew.locks.obtain registered group.fullName
      ({ crew with locks := locks }, { todo := todo, stage := .waiting lock group })
  | .waiting lock group =>
    if lock ∈ crew.taken then (crew, worker)
    else
      let rotation := group.rotate crew.installation.settings.maxSegments
      ({ crew with taken := lock :: crew.taken },
        { worker with stage := .rotating lock rotation })
  | .rotating lock (.perform effect next) =>
    let (installation, reply) := Installation.handler.handle crew.installation effect
    ({ crew with installation := installation },
      { worker with stage := .rotating lock (next reply) })
  | .rotating lock (.done outcome) =>
    let crew := { crew with taken := crew.taken.erase lock, locks := crew.locks.drop lock }
    let worker := { worker with stage := .idle }
    match outcome with
    | .ok _ => ({ crew with succeeded := crew.succeeded + 1 }, worker)
    | .error _ => ({ crew with failed := crew.failed + 1 }, worker)

/-- The crew after the turn of one worker. -/
def step (crew : Crew) (turn : Nat) : Crew :=
  match crew.workers[turn]? with
  | none => crew
  | some worker =>
    let (crew, worker) := crew.advance worker
    { crew with workers := crew.workers.set turn worker }

/-- The crew after a schedule. -/
def follow (crew : Crew) (schedule : List Nat) : Crew :=
  schedule.foldl step crew

/-- Whether everybody is done. -/
def isDone (crew : Crew) : Bool :=
  crew.workers.all Worker.isDone

/-- Everybody takes a turn in every round, until all are done or the rounds are over. -/
def takeTurns : Nat → Crew → Crew
  | 0, crew => crew
  | rounds + 1, crew =>
    if crew.isDone then crew
    else takeTurns rounds (crew.follow (List.range crew.workers.length))

/-- An upper bound on the steps of one rotation. -/
def stepsPerRotation : Nat := 16

/-- Workers who all rotate the same groups in turn, a number of times each. -/
def hire (installation : Installation) (count cycles : Nat) (groups : List IndexGroup) : Crew :=
  { installation := installation
    workers := List.replicate count { todo := (List.replicate cycles groups).flatten } }

/-- Lets everybody work until all is done.  In every round one worker at least gets on. -/
def work (crew : Crew) : Crew :=
  takeTurns (stepsPerRotation * (crew.workers.flatMap Worker.todo).length) crew

end Crew
end Rollover
