import Rollover.GroupFile
import Rollover.GroupView
import Rollover.Registry

/-!
# What a file of groups amounts to

A summary lists the groups that an installation has when it starts with a given file: those of the
file and the default group, as far as they can stand side by side, in order.  Unlike the registry,
which keeps going when its store fails, a summary is refused for a file that cannot be read.
-/

namespace Rollover

/-- One group of an installation. -/
structure GroupSummary where
  /-- The group's full name. -/
  name : String
  /-- The name of its alias. -/
  aliasName : String
  /-- The name of its first index. -/
  firstIndex : String
  /-- Whether it is the default group. -/
  isDefault : Bool
  deriving DecidableEq, Inhabited, Repr

namespace GroupSummary

/-- The summary of one group. -/
def ofGroup (defaultGroup group : IndexGroup) : GroupSummary :=
  { name := group.fullName
    aliasName := group.aliasName
    firstIndex := group.nameOf GroupView.firstNumber
    isDefault := group == defaultGroup }

/-- The tokens of a summary. -/
def tokens (summary : GroupSummary) : List Json.Token :=
  Json.Token.object [
    ("name", [.ofString summary.name]),
    ("alias", [.ofString summary.aliasName]),
    ("first_index", [.ofString summary.firstIndex]),
    ("default", [.ofBool summary.isDefault])]

/-- The lines of a summary. -/
def lines (summary : GroupSummary) : List String :=
  [summary.name ++ if summary.isDefault then " (default)" else "",
    "  alias:       " ++ summary.aliasName,
    "  first index: " ++ summary.firstIndex]

end GroupSummary

/-- The groups of an installation with a given file, in order. -/
def summarize (settings : Settings) (file : FileContent) : Except Error (List GroupSummary) :=
  match GroupFile.load file with
  | .error cause => .error cause
  | .ok groups =>
    let (registry, _) := (Registry.ofSettings settings).reconcile (.ok groups)
    .ok (registry.groups.toList.map (GroupSummary.ofGroup registry.defaultGroup))

end Rollover
