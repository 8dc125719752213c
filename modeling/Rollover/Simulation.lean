import Rollover.Engine.Memory
import Rollover.GroupFile
import Rollover.JobManager
import Rollover.Operation
import Rollover.Registry

/-!
# Simulating rotations

A simulation rehearses an installation on an empty engine in memory: the groups of a file are
registered together with the default group, every group is set up, and then each in turn is rotated
a number of times.  The report says where each group's alias ended up, which indices the group has,
how many rotations took place, and what went wrong.

Jobs end as soon as they are handed over, and their work shows nowhere in the report.  All that
matters of them is whether they are taken on, and that is so unless the ceiling of their kind is
zero.
-/

namespace Rollover

/-- What became of one group. -/
structure GroupReport where
  /-- The group's full name. -/
  name : String
  /-- The name of its alias. -/
  aliasName : String
  /-- What the alias is on in the end. -/
  target : Option String
  /-- The names of the group's indices, in ascending order. -/
  indices : List String
  /-- How many rotations took place after the group was set up. -/
  rotations : Nat
  /-- What went wrong, in words. -/
  failures : List String
  deriving DecidableEq, Inhabited, Repr

/-- What became of all groups. -/
structure SimulationReport where
  /-- The groups in order. -/
  groups : List GroupReport
  /-- The activity log in words, oldest entry first. -/
  messages : List String
  deriving DecidableEq, Inhabited, Repr

/-- Why there is no report. -/
inductive SimulationFailure where
  /-- The groups could not be read. -/
  | unreadableGroups
  /-- An operation ended without a result that the report needs. -/
  | halted (halt : Halt)
  deriving DecidableEq, Inhabited, Repr

/-- The wording of a failure. -/
def SimulationFailure.message : SimulationFailure → String
  | .unreadableGroups => "could not read group config file"
  | .halted halt => halt.message

/-- An engine at which rotations are rehearsed, with the activities so far. -/
structure Rehearsal where
  /-- The ceilings of the kinds of jobs. -/
  limits : PerKind
  /-- The engine. -/
  engine : Engine := {}
  /-- The activity log, oldest entry first. -/
  activities : Array Activity := #[]
  deriving Inhabited

namespace Rehearsal

/-- How a rehearsal answers a program. -/
def handler : Handler Rehearsal where
  call rehearsal request :=
    let (engine, reply) := rehearsal.engine.perform request
    ({ rehearsal with engine := engine }, reply)
  submit rehearsal job :=
    (rehearsal,
      if rehearsal.limits.get job.kind = 0 then .error (.concurrencyLimit job.kind 0) else .ok ())
  record rehearsal entry := { rehearsal with activities := rehearsal.activities.push entry }

/-- A rehearsal before anything has happened. -/
def ofSettings (settings : Settings) : Rehearsal :=
  { limits := (JobManager.ofSettings settings).limits }

end Rehearsal

namespace Simulation

open Program

/-- Rotates a group a number of times, and counts what took place and what failed. -/
def rotateTimes (group : IndexGroup) (maxSegments : UInt32) :
    Nat → Nat → List String → Program (Outcome (Nat × List String))
  | 0, rotations, failures => return .ok (rotations, failures)
  | times + 1, rotations, failures => do
    match ← group.rotate maxSegments with
    | .ok _ => rotateTimes group maxSegments times (rotations + 1) failures
    | .error (.failed cause) =>
      rotateTimes group maxSegments times rotations (failures ++ [cause.message])
    | .error .overflow => return .error .overflow

/-- Rotates a group that was set up; one that could not be set up is left as it is. -/
def rehearse (group : IndexGroup) (maxSegments : UInt32) (cycles : Nat) (setUp : Outcome SetUp) :
    Program (Outcome (Nat × List String)) :=
  match setUp with
  | .ok _ => rotateTimes group maxSegments cycles 0 []
  | .error (.failed cause) => return .ok (0, [cause.message])
  | .error .overflow => return .error .overflow

/-- Rotates a group and reports on it. -/
def reportOn (group : IndexGroup) (maxSegments : UInt32) (cycles : Nat) (setUp : Outcome SetUp) :
    Program (Outcome GroupReport) := do
  match ← rehearse group maxSegments cycles setUp with
  | .error halt => return .error halt
  | .ok (rotations, failures) =>
    match ← group.currentTarget with
    | .error cause => return .error (.failed cause)
    | .ok target =>
      match ← group.segmentNames with
      | .error cause => return .error (.failed cause)
      | .ok indices =>
        return .ok {
          name := group.fullName
          aliasName := group.aliasName
          target := target
          indices := indices
          rotations := rotations
          failures := failures }

/-- Rotates groups one after the other and reports on them. -/
def reportOnEach (maxSegments : UInt32) (cycles : Nat) :
    List (IndexGroup × Outcome SetUp) → Program (Outcome (List GroupReport))
  | [] => return .ok []
  | (group, setUp) :: groups => do
    match ← reportOn group maxSegments cycles setUp with
    | .error halt => return .error halt
    | .ok report =>
      match ← reportOnEach maxSegments cycles groups with
      | .error halt => return .error halt
      | .ok reports => return .ok (report :: reports)

/-- Sets up all groups, rotates each a number of times, and reports on them. -/
def program (groups : List IndexGroup) (maxSegments : UInt32) (cycles : Nat) :
    Program (Outcome (List GroupReport)) := do
  reportOnEach maxSegments cycles (← setUpEach maxSegments groups)

end Simulation

/-- Simulates an installation with the groups of a file, or without a file. -/
def simulate (settings : Settings) (file : Option FileContent) (cycles : Nat) :
    Except SimulationFailure SimulationReport :=
  let loaded := (file.map GroupFile.load).getD (.ok ∅)
  match (Registry.ofSettings settings).reconcile loaded with
  | (_, .storeFailed) => .error .unreadableGroups
  | (registry, _) =>
    let program := Simulation.program registry.groups.toList settings.maxSegments cycles
    match program.run Rehearsal.handler (Rehearsal.ofSettings settings) with
    | (_, .error halt) => .error (.halted halt)
    | (rehearsal, .ok reports) =>
      .ok { groups := reports, messages := rehearsal.activities.toList.map Activity.message }

/-! ## The report in writing -/

namespace GroupReport

/-- The tokens of a report. -/
def tokens (report : GroupReport) : List Json.Token :=
  Json.Token.object [
    ("name", [.ofString report.name]),
    ("alias", [.ofString report.aliasName]),
    ("target", [match report.target with
      | some target => .ofString target
      | none => .null]),
    ("indices", Json.Token.array (report.indices.map fun name => [.ofString name])),
    ("rotations", [.ofNat report.rotations]),
    ("failures", Json.Token.array (report.failures.map fun failure => [.ofString failure]))]

/-- The lines of a report. -/
def lines (report : GroupReport) : List String :=
  [report.name,
    "  " ++ report.aliasName ++ " -> " ++ report.target.getD "<none>",
    "  indices:   " ++ String.intercalate ", " report.indices,
    "  rotations: " ++ Decimal.text report.rotations] ++
  report.failures.map fun failure => "  error:     " ++ failure

end GroupReport

namespace SimulationReport

/-- The tokens of a report. -/
def tokens (report : SimulationReport) : List Json.Token :=
  Json.Token.object [
    ("groups", Json.Token.array (report.groups.map GroupReport.tokens)),
    ("activity", Json.Token.array (report.messages.map fun message => [.ofString message]))]

/-- The lines of a report. -/
def lines (report : SimulationReport) : List String :=
  report.groups.flatMap GroupReport.lines ++
  match report.messages with
  | [] => []
  | messages => ["", "activity:"] ++ messages.map fun message => "  " ++ message

end SimulationReport
end Rollover
