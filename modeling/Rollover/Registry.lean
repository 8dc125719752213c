import Rollover.Error
import Rollover.GroupTable
import Rollover.Settings

/-!
# The registry of groups

The registry says which groups there are.  Its table is replaced as a whole: readers work on the
table they find, so nobody sees old and new entries together.  Each table that is put in place gets
the next *edition* number, by which a reader can tell whether the table it holds is still the
current one.

The default group can always be asked for.  If the table has no group of its index name, it is the
one that the settings describe.

## Reconciliation

`Registry.reconcile` brings the registry in line with a store.  The default group of the settings is
added to what the store has, and the result is put in place only if it differs from what is there.
A store that cannot be read changes nothing.  What comes out depends on the store and the settings
alone, so a second run with the same store finds nothing to do.
-/

namespace Rollover

/-- The groups in use. -/
structure Registry where
  /-- The default group as the settings describe it. -/
  fallback : IndexGroup
  /-- The groups by index name. -/
  table : GroupTable
  /-- How many tables there were before this one. -/
  edition : Nat := 0
  deriving Inhabited

/-- What a reconciliation did. -/
inductive Reconciliation where
  /-- The groups were the right ones already. -/
  | unchanged
  /-- The groups were replaced. -/
  | updated (added removed : Nat)
  /-- The store could not be read. -/
  | storeFailed
  deriving DecidableEq, Inhabited, Repr

namespace Registry

/-- The registry of an installation before it has read any store: the default group alone. -/
def ofSettings (settings : Settings) : Registry :=
  { fallback := settings.defaultGroup
    table := Std.ExtTreeMap.ofList [(settings.defaultIndexName, settings.defaultGroup)] }

/-- The default group as a table has it. -/
def defaultIn (registry : Registry) (table : GroupTable) : IndexGroup :=
  table[registry.fallback.indexName]?.getD registry.fallback

/-- The default group. -/
def defaultGroup (registry : Registry) : IndexGroup :=
  registry.defaultIn registry.table

/-- The group with an index name. -/
def group? (registry : Registry) (indexName : String) : Option IndexGroup :=
  registry.table[indexName]?

/-- The groups in use. -/
def groups (registry : Registry) : GroupSet :=
  registry.table.groups

/-- Puts a new table in place. -/
def publish (registry : Registry) (groups : GroupSet) : Registry :=
  { registry with table := GroupTable.ofSet groups, edition := registry.edition + 1 }

/-- How many groups of one set are missing in another. -/
def countMissing (groups others : GroupSet) : Nat :=
  (groups.toList.filter fun group => !others.contains group).length

/-- Brings the registry in line with what a store has. -/
def reconcile (registry : Registry) (loaded : Except Error GroupSet) :
    Registry × Reconciliation :=
  match loaded with
  | .error _ => (registry, .storeFailed)
  | .ok stored =>
    let wanted := stored.insert registry.fallback
    let published := (GroupTable.ofSet wanted).groups
    let added := countMissing published registry.groups
    let removed := countMissing registry.groups published
    if added = 0 ∧ removed = 0 then (registry, .unchanged)
    else (registry.publish wanted, .updated added removed)

end Registry
end Rollover
