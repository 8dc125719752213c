import Rollover.CommandLine.Arguments
import Rollover.GroupSummary
import Rollover.Segment
import Rollover.Simulation

/-!
# The commands

Three commands help to look after an installation: reading the number in the name of an index,
listing the groups of a file, and simulating rotations.  Each is a function from its arguments and
the files it may read to an exit code and the text it prints; nothing else happens.

Reading a name prints the number first.  If the name starts like the names of the default group and
is yet none of them, the command then fails after all, with the number already printed.
-/

namespace Rollover
namespace CommandLine

/-- The end of a command. -/
structure Result where
  /-- Zero for success, one for failure, two for wrong usage. -/
  exitCode : UInt8
  /-- The lines that were printed. -/
  lines : List String := []
  /-- What is said about a failure. -/
  complaint : Option String := none
  deriving DecidableEq, Inhabited, Repr

namespace Result

/-- A command that succeeded. -/
def success (lines : List String) : Result :=
  { exitCode := 0, lines := lines }

/-- A command that failed after printing some lines. -/
def failure (complaint : String) (lines : List String) : Result :=
  { exitCode := 1, lines := lines, complaint := some complaint }

/-- A command that was not understood. -/
def wrongUsage : Result :=
  { exitCode := 2
    complaint := some
      "usage: rollover [--prefix P] [--default-index I] [-v] decode|groups|simulate" }

/-- The text that was printed. -/
def output (result : Result) : String :=
  String.join (result.lines.map fun line => line ++ "\n")

end Result

/-- The settings of the installation that is meant. -/
def Invocation.settings (invocation : Invocation) : Settings :=
  let standard : Settings := {}
  { standard with
    globalPrefix := invocation.globalPrefix.getD standard.globalPrefix
    defaultIndexName := invocation.defaultIndex.getD standard.defaultIndexName }

/-- Reads the number of an index from its name. -/
def decode (settings : Settings) (name : String) : Result :=
  match Segment.number? name with
  | .error cause => .failure cause.message []
  | .ok number =>
    let numberLine := Decimal.text number.toNat
    let group := settings.defaultGroup
    if group.isStemOf name then
      match group.parse name with
      | .error cause => .failure cause.message [numberLine]
      | .ok segment =>
        .success [numberLine, "member of " ++ group.fullName ++ " as " ++ segment.name]
    else .success [numberLine]

/-- Lists the groups of a file. -/
def listGroups (settings : Settings) (file : FileContent) (format : Format) : Result :=
  match summarize settings file with
  | .error cause => .failure cause.message []
  | .ok groups =>
    match format with
    | .json => .success [Json.pretty (Json.Token.array (groups.map GroupSummary.tokens))]
    | .text => .success (groups.flatMap GroupSummary.lines)

/-- Simulates rotations. -/
def runSimulation (settings : Settings) (file : Option FileContent) (cycles : Nat)
    (format : Format) : Result :=
  match simulate settings file cycles with
  | .error failure => .failure failure.message []
  | .ok report =>
    match format with
    | .json => .success [Json.pretty report.tokens]
    | .text => .success report.lines

/-- Runs the command of an invocation.  `files` is what is found at each path. -/
def Invocation.run (invocation : Invocation) (files : String → FileContent) : Result :=
  match invocation.command with
  | .decode name => decode invocation.settings name
  | .groups file format => listGroups invocation.settings (files file) format
  | .simulate file cycles format =>
    runSimulation invocation.settings (file.map files) cycles format

/-- The path that an invocation reads, if it reads any. -/
def Invocation.path? (invocation : Invocation) : Option String :=
  match invocation.command with
  | .decode _ => none
  | .groups file _ => some file
  | .simulate file _ _ => file

/-- Runs the program on its arguments. -/
def run (arguments : List String) (files : String → FileContent) : Result :=
  match Invocation.ofArguments? arguments with
  | none => .wrongUsage
  | some invocation => invocation.run files

end CommandLine
end Rollover
