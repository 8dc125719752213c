import Rollover.Crew
import Rollover.Routing

/-!
# Exercises

Ready-made runs that show an installation at work: a default group that is in use already, a round
of setting up and rotating, a crew that rotates several groups at once, and messages that are routed
while the groups change.
-/

namespace Rollover

namespace Installation

/-- A standard installation whose default group has a number of indices, with its alias on the last
of them. -/
def withDefaultGroup (count : Nat) : Installation :=
  let group := Settings.defaultGroup {}
  let names := (List.range count).map fun number => group.nameOf (UInt64.ofNat number)
  let seeded := Engine.ofIndices names
  let engine := match names.getLast? with
    | none => seeded
    | some last => seeded.bindAlias group.aliasName last
  { engine := { engine := engine } }

/-- Rotates groups one after the other. -/
def rotateEach (installation : Installation) :
    List IndexGroup → Installation × List (Outcome Rotation)
  | [] => (installation, [])
  | group :: groups =>
    let (installation, outcome) := installation.rotate group
    let (installation, outcomes) := installation.rotateEach groups
    (installation, outcome :: outcomes)

/-- Registers groups, sets all of them up, and then rotates them a number of times, the default
group always last. -/
def exercise (installation : Installation) (indexNames : List String) (cycles : Nat) :
    Installation × List (IndexGroup × Outcome SetUp) × List (Outcome Rotation) :=
  let installation := installation.register indexNames
  let (installation, setUps) := installation.setUpAll
  let round := indexNames.map installation.settings.group ++ [installation.registry.defaultGroup]
  let (installation, rotations) :=
    installation.rotateEach (List.replicate cycles round).flatten
  (installation, setUps, rotations)

end Installation

namespace Crew

/-- The index name of the group that a crew rotates under a number. -/
def drillName (number : Nat) : String :=
  "stress" ++ Decimal.text number

/-- A number of workers on a fresh installation, who all rotate a number of groups in turn, a number
of times each. -/
def drill (workers cycles groups : Nat) : Crew :=
  let names := (List.range groups).map drillName
  let installation := Installation.register {} names
  (hire installation workers cycles (names.map installation.settings.group)).work

end Crew

namespace Registry

/-- Two sets of groups that differ in the prefix of all their groups. -/
def generation (newer : Bool) : GroupSet :=
  let globalPrefix := if newer then "other" else "graylog"
  let groups : List IndexGroup := [⟨globalPrefix, "aaaaaa"⟩, ⟨globalPrefix, "bbbbbb"⟩]
  Std.ExtTreeSet.ofList groups

/-- Whether the aliases of routes start with different words, and so belong to different
generations. -/
def isMixed (routes : Routes) : Bool :=
  1 < (routes.keys.map fun aliasName => aliasName.toList.takeWhile (· != '_')).eraseDups.length

/-- Routes batches while the generations of groups take turns, and counts the batches that saw more
than one generation. -/
def mixedBatches (registry : Registry) : Nat → Nat
  | 0 => 0
  | batches + 1 =>
    let registry := registry.publish (generation (batches % 2 = 0))
    let batch : List Message :=
      [{ id := "m1", streamIds := ["aaaaaa01"] }, { id := "m2", streamIds := ["bbbbbb01"] }]
    mixedBatches registry batches + if isMixed (registry.route batch) then 1 else 0

end Registry
end Rollover
