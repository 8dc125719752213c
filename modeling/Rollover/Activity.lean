/-!
# The activity log

Operators see what happened to the write aliases in a log of short messages.  Three things are
worth a message; each is a constructor of `Activity`, so that a log can be searched by what an entry
says rather than by its wording.  Entries come in the order in which they were made, without the
time.
-/

namespace Rollover

/-- An entry of the activity log. -/
inductive Activity where
  /-- A group without any index is about to get its first one. -/
  | creatingFirstIndex
  /-- A job to rebuild the ranges of a group was not taken on. -/
  | rangesNotRebuilt
  /-- An alias moved from one index of its group, or from none, to another. -/
  | rotated (previous : Option String) (next : String)
  deriving DecidableEq, Inhabited, Repr

namespace Activity

/-- The part of the system that all entries come from. -/
def source : String := "deflector"

/-- The wording of an entry. -/
def message : Activity → String
  | .creatingFirstIndex => "There is no index target to point to. Creating one now."
  | .rangesNotRebuilt =>
    "Could not re-calculate index ranges after cycling deflector: " ++
      "maximum concurrency of job is reached."
  | .rotated previous next =>
    "Cycled deflector from <" ++ previous.getD "none" ++ "> to <" ++ next ++ ">"

end Activity
end Rollover
