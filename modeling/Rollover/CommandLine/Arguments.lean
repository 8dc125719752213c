import Rollover.Text.Decimal

/-!
# Command-line arguments

An invocation names one of three commands.  The options that say which installation is meant may
stand before the command or after it, and if one stands in both places the later one counts; the
other options belong to a command and stand after it.

The usual forms are understood: `--name value`, `--name=value`, `-n value`, `-nvalue`, `-n=value`,
several one-letter options in one argument, of which only the last can have a value, and `--`, after
which nothing is an option.  A value that stands on its own must not look like an option; a lone `-`
does not.  No option may occur twice in one place.

Anything else is wrong usage, for which there is one answer: `none`.  Asking for help or for the
version (`--help`, `-h`, `--version`, `-V`, or `help` as a command) counts as wrong usage as well,
since the texts that it would show are not part of this library; so it ends with the exit code of
wrong usage, where it would otherwise end with success.
-/

namespace Rollover
namespace CommandLine

/-- The options. -/
inductive Flag where
  /-- The prefix of all groups. -/
  | globalPrefix
  /-- The index name of the default group. -/
  | defaultIndex
  /-- Whether to say more about what happens. -/
  | verbose
  /-- The file of groups. -/
  | file
  /-- The number of rotations. -/
  | cycles
  /-- The form of the output. -/
  | format
  deriving DecidableEq, Inhabited, Repr

/-- Where an argument stands: before the command, or after one of the commands. -/
inductive Place where
  | root
  | decode
  | groups
  | simulate
  deriving DecidableEq, Inhabited, Repr

namespace Flag

/-- Whether an option comes with a value. -/
def hasValue : Flag → Bool
  | verbose => false
  | _ => true

/-- The long name of an option. -/
def longName : Flag → String
  | globalPrefix => "prefix"
  | defaultIndex => "default-index"
  | verbose => "verbose"
  | file => "file"
  | cycles => "cycles"
  | format => "format"

/-- The one-letter name of an option, if it has one. -/
def shortName? : Flag → Option Char
  | verbose => some 'v'
  | file => some 'f'
  | cycles => some 'c'
  | _ => none

end Flag

/-- The options that are understood in a place. -/
def Place.flags : Place → List Flag
  | .root | .decode => [.globalPrefix, .defaultIndex, .verbose]
  | .groups => [.globalPrefix, .defaultIndex, .verbose, .file, .format]
  | .simulate => [.globalPrefix, .defaultIndex, .verbose, .file, .cycles, .format]

/-- The command with a name. -/
def Place.ofCommand? (name : String) : Option Place :=
  if name = "decode" then some .decode
  else if name = "groups" then some .groups
  else if name = "simulate" then some .simulate
  else none

/-- What was found in one place. -/
structure Found where
  /-- The options with their values; an option without a value has an empty one. -/
  options : List (Flag × String) := []
  /-- The arguments that are no options, in order. -/
  positionals : List String := []
  /-- At the root, the command with all that follows it. -/
  command : Option (Place × List String) := none
  deriving Inhabited

namespace Found

/-- The value of an option. -/
def value? (found : Found) (flag : Flag) : Option String :=
  (found.options.find? fun option => option.1 == flag).map Prod.snd

/-- Adds an option that is not there yet. -/
def add? (found : Found) (flag : Flag) (value : String) : Option Found :=
  match found.value? flag with
  | some _ => none
  | none => some { found with options := (flag, value) :: found.options }

end Found

/-- Whether an argument looks like an option, so that it cannot be the value of one. -/
def looksLikeOption (argument : String) : Bool :=
  match argument.toList with
  | '-' :: _ :: _ => true
  | _ => false

/-- A one-letter argument, taken apart. -/
inductive Cluster where
  /-- Only options without values. -/
  | complete (found : Found)
  /-- The last option has its value in the next argument. -/
  | pending (found : Found) (flag : Flag)

/-- Takes the letters of an argument as options, up to one that has a value. -/
def readCluster? (place : Place) (found : Found) : List Char → Option Cluster
  | [] => some (.complete found)
  | letter :: rest =>
    match place.flags.find? fun flag => flag.shortName? == some letter with
    | none => none
    | some flag =>
      if flag.hasValue then
        match rest with
        | [] => some (.pending found flag)
        | '=' :: value => (found.add? flag (String.ofList value)).map .complete
        | value => (found.add? flag (String.ofList value)).map .complete
      else (found.add? flag "").bind fun found => readCluster? place found rest

/-- Splits an argument at its first equals sign. -/
def splitValue (argument : List Char) : String × Option String :=
  let name := String.ofList (argument.takeWhile (· != '='))
  match argument.dropWhile (· != '=') with
  | [] => (name, none)
  | _ :: value => (name, some (String.ofList value))

/-- Reads the arguments in one place.  At the root the first argument that is no option is the
command, and the rest is left to it. -/
def readArguments? (place : Place) (found : Found) : List String → Option Found
  | [] => some found
  | argument :: rest =>
    match argument.toList with
    | '-' :: '-' :: [] =>
      if place = .root ∧ rest ≠ [] then none
      else some { found with positionals := found.positionals ++ rest }
    | '-' :: '-' :: long =>
      let (name, attached) := splitValue long
      match place.flags.find? fun flag => flag.longName == name with
      | none => none
      | some flag =>
        match flag.hasValue, attached with
        | false, none => (found.add? flag "").bind fun found => readArguments? place found rest
        | false, some _ => none
        | true, some value =>
          (found.add? flag value).bind fun found => readArguments? place found rest
        | true, none =>
          match rest with
          | [] => none
          | value :: rest =>
            if looksLikeOption value then none
            else (found.add? flag value).bind fun found => readArguments? place found rest
    | '-' :: letter :: letters =>
      match readCluster? place found (letter :: letters) with
      | none => none
      | some (.complete found) => readArguments? place found rest
      | some (.pending found flag) =>
        match rest with
        | [] => none
        | value :: rest =>
          if looksLikeOption value then none
          else (found.add? flag value).bind fun found => readArguments? place found rest
    | _ =>
      if place = .root then
        (Place.ofCommand? argument).map fun command =>
          { found with command := some (command, rest) }
      else
        readArguments? place { found with positionals := found.positionals ++ [argument] } rest

/-- The form of the output. -/
inductive Format where
  | text
  | json
  deriving DecidableEq, Inhabited, Repr

/-- What is asked for. -/
inductive Command where
  /-- Reading the number of an index from its name. -/
  | decode (name : String)
  /-- Listing the groups of a file. -/
  | groups (file : String) (format : Format)
  /-- Simulating rotations. -/
  | simulate (file : Option String) (cycles : Nat) (format : Format)
  deriving DecidableEq, Inhabited, Repr

/-- An invocation of the program. -/
structure Invocation where
  /-- The prefix of all groups, if it is given. -/
  globalPrefix : Option String
  /-- The index name of the default group, if it is given. -/
  defaultIndex : Option String
  /-- What is asked for. -/
  command : Command
  deriving DecidableEq, Inhabited, Repr

/-- The form with a name.  Every name but one means plain text. -/
def Format.ofName (name : Option String) : Format :=
  if name = some "json" then .json else .text

/-- Reads a count: a numeral of at most 64 bits, possibly with a plus sign. -/
def readCount? (text : String) : Option Nat :=
  let digits := match text.toList with
    | '+' :: rest => rest
    | cs => cs
  match Decimal.read? digits with
  | some count => if count < UInt64.size then some count else none
  | none => none

/-- The command that is asked for, from what was found after its name. -/
def Command.ofFound? (place : Place) (found : Found) : Option Command :=
  match place, found.positionals with
  | .decode, [name] => some (.decode name)
  | .groups, [] =>
    match found.value? .file with
    | none | some "" => none
    | some file => some (.groups file (Format.ofName (found.value? .format)))
  | .simulate, [] =>
    if found.value? .file = some "" then none
    else
      (readCount? ((found.value? .cycles).getD "1")).map fun cycles =>
        .simulate (found.value? .file) cycles (Format.ofName (found.value? .format))
  | _, _ => none

/-- Reads all arguments. -/
def Invocation.ofArguments? (arguments : List String) : Option Invocation := do
  let root ← readArguments? .root {} arguments
  let (place, rest) ← root.command
  let found ← readArguments? place {} rest
  let command ← Command.ofFound? place found
  return {
    globalPrefix := (found.value? .globalPrefix).or (root.value? .globalPrefix)
    defaultIndex := (found.value? .defaultIndex).or (root.value? .defaultIndex)
    command := command }

end CommandLine
end Rollover
