import Rollover.IndexGroup

/-!
# Settings

The fixed settings of an installation.  The *default group* is the one that messages without a group
of their own go to; it exists in every installation, whether its group file names it or not.
-/

namespace Rollover

/-- The settings of an installation. -/
structure Settings where
  /-- The prefix shared by all groups. -/
  globalPrefix : String := "graylog"
  /-- The index name of the default group. -/
  defaultIndexName : String := "internal"
  /-- The time between two reconciliations, in milliseconds. -/
  reconcileInterval : Nat := 1000
  /-- How many rebuilds of index ranges may run at once. -/
  rebuildLimit : Nat := 1
  /-- How many merges of indices may run at once. -/
  optimizeLimit : Nat := 1000
  /-- The number of internal segments that a sealed index is merged down to. -/
  maxSegments : UInt32 := 1
  deriving DecidableEq, Inhabited, Repr

namespace Settings

/-- The group with an index name in this installation. -/
def group (settings : Settings) (indexName : String) : IndexGroup :=
  { globalPrefix := settings.globalPrefix, indexName := indexName }

/-- The default group. -/
def defaultGroup (settings : Settings) : IndexGroup :=
  settings.group settings.defaultIndexName

end Settings
end Rollover
