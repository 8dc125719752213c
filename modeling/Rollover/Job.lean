import Rollover.IndexGroup
import Rollover.Text.Decimal

/-!
# Maintenance jobs

Rotating a group leaves work behind that nobody waits for: the time ranges of the group's indices
have to be read again, and the index that was written to before can be merged.  Such work is handed
over as a job.  Each kind of job has a ceiling on how many may run at once (`Rollover.JobDesk`).
-/

namespace Rollover

/-- The kinds of maintenance jobs. -/
inductive JobKind where
  /-- Reading the time ranges of a group's indices again. -/
  | rebuildRanges
  /-- Merging an index that is no longer written to. -/
  | optimize
  deriving DecidableEq, Inhabited, Repr

/-- The name of a kind in messages. -/
def JobKind.name : JobKind → String
  | .rebuildRanges => "rebuild-index-ranges"
  | .optimize => "optimize-index"

/-- A piece of maintenance work. -/
inductive Job where
  /-- Read the time ranges of a group's indices again. -/
  | rebuildRanges (group : IndexGroup)
  /-- Merge an index down to a number of internal segments. -/
  | optimize (index : String) (maxSegments : UInt32)
  deriving DecidableEq, Inhabited, Repr

namespace Job

/-- The kind of a job. -/
def kind : Job → JobKind
  | .rebuildRanges _ => .rebuildRanges
  | .optimize _ _ => .optimize

/-- What a job does, in words. -/
def description : Job → String
  | .rebuildRanges group => "rebuild index ranges of " ++ group.fullName
  | .optimize index maxSegments =>
    "optimize " ++ index ++ " to " ++ Decimal.text maxSegments.toNat ++ " segment(s)"

end Job
end Rollover
