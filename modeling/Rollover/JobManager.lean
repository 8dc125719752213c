import Rollover.Error
import Rollover.Settings

/-!
# Admission of jobs

A `JobManager` takes jobs on as long as fewer of their kind are running than its ceiling allows, and
turns the others away.  A job that was taken on runs until it ends, well or badly; either way its
place becomes free.  The two kinds do not compete with each other.
-/

namespace Rollover

/-- A number for each kind of job. -/
structure PerKind where
  /-- The number for rebuilds of index ranges. -/
  rebuildRanges : Nat := 0
  /-- The number for merges of indices. -/
  optimize : Nat := 0
  deriving DecidableEq, Inhabited, Repr

namespace PerKind

/-- The number for a kind. -/
def get (counts : PerKind) : JobKind → Nat
  | .rebuildRanges => counts.rebuildRanges
  | .optimize => counts.optimize

/-- Changes the number for a kind. -/
def modify (counts : PerKind) (kind : JobKind) (change : Nat → Nat) : PerKind :=
  match kind with
  | .rebuildRanges => { counts with rebuildRanges := change counts.rebuildRanges }
  | .optimize => { counts with optimize := change counts.optimize }

@[simp] theorem get_modify_self (counts : PerKind) (kind : JobKind) (change : Nat → Nat) :
    (counts.modify kind change).get kind = change (counts.get kind) := by
  cases kind <;> rfl

theorem get_modify_of_ne (counts : PerKind) {kind other : JobKind} (h : other ≠ kind)
    (change : Nat → Nat) : (counts.modify kind change).get other = counts.get other := by
  cases kind <;> cases other <;> simp_all [get, modify]

theorem get_modify (counts : PerKind) (kind other : JobKind) (change : Nat → Nat) :
    (counts.modify kind change).get other =
      if other = kind then change (counts.get other) else counts.get other := by
  split
  · next h => rw [h, get_modify_self]
  · next h => rw [get_modify_of_ne counts h]

end PerKind

/-- Takes jobs on up to a ceiling for each kind. -/
structure JobManager where
  /-- How many jobs of a kind may run at once. -/
  limits : PerKind
  /-- How many jobs of a kind are running. -/
  running : PerKind := {}
  /-- The jobs that were taken on and are not yet executed, oldest first. -/
  waiting : List Job := []
  deriving DecidableEq, Inhabited, Repr

namespace JobManager

/-- A manager with the ceilings of an installation. -/
def ofSettings (settings : Settings) : JobManager :=
  { limits := { rebuildRanges := settings.rebuildLimit, optimize := settings.optimizeLimit } }

/-- Takes a job on, unless its kind is at its ceiling. -/
def submit (manager : JobManager) (job : Job) : JobManager × Except Error Unit :=
  let limit := manager.limits.get job.kind
  if limit ≤ manager.running.get job.kind then
    (manager, .error (.concurrencyLimit job.kind limit))
  else
    ({ manager with
        running := manager.running.modify job.kind (· + 1)
        waiting := manager.waiting ++ [job] }, .ok ())

/-- Whether a job is of a kind, or of any kind. -/
def isOfKind (kind : Option JobKind) (job : Job) : Bool :=
  match kind with
  | some kind => job.kind == kind
  | none => true

/-- Takes out a job that is to be executed. -/
def take (manager : JobManager) (job : Job) : JobManager :=
  { manager with waiting := manager.waiting.erase job }

/-- Takes out the oldest job, or the oldest of a kind, to be executed. -/
def next? (manager : JobManager) (kind : Option JobKind) : Option (Job × JobManager) :=
  match manager.waiting.find? (isOfKind kind) with
  | some job => some (job, manager.take job)
  | none => none

/-- The end of a job of a kind. -/
def release (manager : JobManager) (kind : JobKind) : JobManager :=
  { manager with running := manager.running.modify kind (· - 1) }

end JobManager
end Rollover
