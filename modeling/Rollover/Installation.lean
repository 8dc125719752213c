import Rollover.Engine.Fault
import Rollover.GroupStore
import Rollover.IndexRange
import Rollover.JobDesk
import Rollover.Operation
import Rollover.Registry

/-!
# An installation

An `Installation` is everything together: settings, an engine that may fail on request, the registry
with its store, the desk where jobs are handed over, the index ranges, and the activity log.  It is
itself the state of a handler, so any program can be run on it (`Installation.run`).

Programs run to their end one after the other.  `Rollover.Crew` runs several at a time.
-/

namespace Rollover

/-- A complete installation. -/
structure Installation where
  /-- The settings. -/
  settings : Settings := {}
  /-- The engine, behind the faults that are still to come. -/
  engine : FaultyEngine := {}
  /-- The groups in use. -/
  registry : Registry := Registry.ofSettings settings
  /-- The store that the registry is reconciled with. -/
  store : GroupStore := {}
  /-- Where jobs are handed over. -/
  desk : JobDesk := {}
  /-- The index ranges. -/
  ranges : RangeTable := ∅
  /-- The activity log, oldest entry first. -/
  activities : Array Activity := #[]

namespace Installation

variable {α : Type}

instance : Inhabited Installation := ⟨{}⟩

/-- How an installation answers a program. -/
def handler : Handler Installation where
  call installation request :=
    let (engine, reply) := installation.engine.perform request
    ({ installation with engine := engine }, reply)
  submit installation job :=
    let (desk, reply) := installation.desk.submit job
    ({ installation with desk := desk }, reply)
  record installation entry :=
    { installation with activities := installation.activities.push entry }

/-- Runs a program on the installation. -/
def run (installation : Installation) (program : Program α) : Installation × α :=
  program.run handler installation

/-! ## Operations -/

/-- Makes sure that a group's alias is bound. -/
def setUp (installation : Installation) (group : IndexGroup) : Installation × Outcome SetUp :=
  installation.run (group.setUp installation.settings.maxSegments)

/-- Rotates a group's alias to a new index. -/
def rotate (installation : Installation) (group : IndexGroup) : Installation × Outcome Rotation :=
  installation.run (group.rotate installation.settings.maxSegments)

/-- Sets up every group of the registry, in order. -/
def setUpAll (installation : Installation) :
    Installation × List (IndexGroup × Outcome SetUp) :=
  installation.run
    (setUpEach installation.settings.maxSegments installation.registry.groups.toList)

/-- Brings the registry in line with the store. -/
def reconcile (installation : Installation) : Installation × Reconciliation :=
  let (registry, outcome) := installation.registry.reconcile installation.store.load
  ({ installation with registry := registry }, outcome)

/-- Puts the default group and the groups with the given index names in place of those in use. -/
def register (installation : Installation) (indexNames : List String) : Installation :=
  let groups := Std.ExtTreeSet.ofList
    (installation.registry.defaultGroup :: indexNames.map installation.settings.group)
  { installation with registry := installation.registry.publish groups }

/-- Reads the ranges of a group again. -/
def rebuildRanges (installation : Installation) (group : IndexGroup) :
    Installation × Except Error Nat :=
  let (installation, ranges, count) := installation.run (installation.ranges.rebuild group)
  ({ installation with ranges := ranges }, count)

/-- Does what a job asks for, at once. -/
def execute (installation : Installation) (job : Job) : Installation × Except Error Unit :=
  let (installation, ranges, result) := installation.run (installation.ranges.execute job)
  ({ installation with ranges := ranges }, result)

/-! ## Jobs in the hands of a manager -/

/-- How the execution of a job ended. -/
inductive JobEnd where
  /-- With a result. -/
  | finished (result : Except Error Unit)
  /-- In a crash, before it had any effect. -/
  | crashed

/-- Executes the oldest job that a manager has taken on, or the oldest of a kind, unless it crashes.
When it has ended, its place is free again. -/
def finishJob (installation : Installation) (kind : Option JobKind) (crash : Bool) :
    Installation × Option (Job × JobEnd × Nat) :=
  match installation.desk.clerk with
  | .manager manager =>
    match manager.next? kind with
    | none => (installation, none)
    | some (job, manager) =>
      let (installation, ending) :=
        if crash then (installation, JobEnd.crashed)
        else
          let (installation, result) := installation.execute job
          (installation, JobEnd.finished result)
      let manager := manager.release job.kind
      ({ installation with desk := { installation.desk with clerk := .manager manager } },
        some (job, ending, manager.running.get job.kind))
  | _ => (installation, none)

end Installation
end Rollover
