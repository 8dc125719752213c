import Std.Data.ExtTreeMap
import Std.Data.ExtTreeSet

/-!
# Rotation locks

Two operations on one group must not overlap, and "one group" means one full name, since that is all
the engine sees of it.  Each operation therefore obtains a *handle* on the lock of its group's full
name, waits for that lock, and drops the handle in the end.

The table of locks would grow with every group that ever was, so whoever obtains a handle first
*prunes* it: out go the locks of names that are not registered --- but only those that nobody has a
handle on.  A lock with a live handle stays in the table, and so every later handle for the same
name is a handle on the same lock, even if the name is unregistered and registered again in the
meantime.
-/

namespace Rollover

/-- The identity of a lock. -/
abbrev LockId := Nat

/-- The locks of groups, and the handles on them. -/
structure RotationLocks where
  /-- The lock of each full name. -/
  table : Std.ExtTreeMap String LockId := ∅
  /-- The live handles, each as the lock it is on. -/
  handles : List LockId := []
  /-- The identity of the next new lock. -/
  fresh : LockId := 0
  deriving Inhabited

namespace RotationLocks

/-- The table without the locks that are neither registered nor in anybody's hands. -/
def pruned (locks : RotationLocks) (registered : Std.ExtTreeSet String) :
    Std.ExtTreeMap String LockId :=
  locks.table.filter fun name lock => lock ∈ locks.handles || registered.contains name

/-- Prunes the table and obtains a handle on the lock of a name. -/
def obtain (locks : RotationLocks) (registered : Std.ExtTreeSet String) (name : String) :
    RotationLocks × LockId :=
  let table := locks.pruned registered
  match table[name]? with
  | some lock => ({ locks with table := table, handles := lock :: locks.handles }, lock)
  | none =>
    ({ table := table.insert name locks.fresh
       handles := locks.fresh :: locks.handles
       fresh := locks.fresh + 1 }, locks.fresh)

/-- Drops a handle. -/
def drop (locks : RotationLocks) (lock : LockId) : RotationLocks :=
  { locks with handles := locks.handles.erase lock }

end RotationLocks
end Rollover
