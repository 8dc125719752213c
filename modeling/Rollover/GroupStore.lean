import Rollover.Error
import Rollover.IndexGroup

/-!
# A store of groups in memory

A store answers one question: which groups are configured.  This one keeps them as a set and can be
told to fail.
-/

namespace Rollover

/-- A store that keeps its groups in memory. -/
structure GroupStore where
  /-- The configured groups. -/
  groups : GroupSet := ∅
  /-- Whether the store refuses to be read. -/
  failing : Bool := false
  deriving Inhabited

namespace GroupStore

/-- Adds a group. -/
def insert (store : GroupStore) (group : IndexGroup) : GroupStore :=
  { store with groups := store.groups.insert group }

/-- Removes a group, and says whether it was there. -/
def erase (store : GroupStore) (group : IndexGroup) : GroupStore × Bool :=
  ({ store with groups := store.groups.erase group }, store.groups.contains group)

/-- Reads all groups. -/
def load (store : GroupStore) : Except Error GroupSet :=
  if store.failing then .error (.store "memory store configured to fail") else .ok store.groups

end GroupStore
end Rollover
