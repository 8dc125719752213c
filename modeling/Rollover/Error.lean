import Rollover.Engine.Call
import Rollover.Job
import Rollover.Text.Quoted

/-!
# What can go wrong

Each constructor of `Error` is one cause, with the names that it concerns; `Error.message` holds
all the wording.  Most errors pass by themselves or with a retry.  Two do not, because someone has
to look at the engine first: an index that sits on the name of a write alias, and an index that the
engine would not create.

Overflow is not an error in this sense.  Nothing handles it: it ends the operation it happens in
(`Halt`).
-/

namespace Rollover

/-- What is wrong with a name that should be the name of an index. -/
inductive NameFault where
  /-- It has no underscore. -/
  | missingSeparator
  /-- It is the name of a write alias. -/
  | aliasHasNoNumber
  /-- What follows the underscore is not a numeral. -/
  | notANumeral (suffix : String)
  /-- The numeral stands for a number beyond 64 bits. -/
  | outOfRange
  /-- A reason in the caller's own words. -/
  | other (reason : String)
  deriving DecidableEq, Inhabited, Repr

/-- The wording of a fault. -/
def NameFault.reason : NameFault → String
  | .missingSeparator => "missing '_' separator"
  | .aliasHasNoNumber => "write alias has no index number"
  | .notANumeral suffix =>
    "suffix " ++ Quoted.quote suffix.toList ++ " is not a non-negative integer"
  | .outOfRange => "index number out of range: number too large to fit in target type"
  | .other reason => reason

/-- The causes of failure in the management of index groups. -/
inductive Error where
  /-- A call to the engine did not take place. -/
  | engineUnavailable (cause : EngineError)
  /-- A group has no index that its alias could point to. -/
  | noTarget (group : String)
  /-- A name does not follow the naming scheme. -/
  | malformedName (name : String) (fault : NameFault)
  /-- A job was turned away because its kind is at its ceiling. -/
  | concurrencyLimit (kind : JobKind) (limit : Nat)
  /-- An index carries the name of a write alias. -/
  | aliasCollision (aliasName : String)
  /-- The engine would not create the next index. -/
  | createRefused (name : String)
  /-- A name or segment was used with a group that it is not part of. -/
  | foreignSegment (name group : String)
  /-- The index is being written to and must not be removed. -/
  | writeTarget (name : String)
  /-- The store of group configurations failed. -/
  | store (message : String)
  /-- A file could not be read or written as text. -/
  | unreadableFile
  /-- A text is not the JSON that it should be. -/
  | malformedJson
  deriving DecidableEq, Inhabited, Repr

namespace Error

/-- The wording of an error. -/
def message : Error → String
  | .engineUnavailable cause => "engine unavailable: " ++ cause.message
  | .noTarget group => "no target index in group " ++ group
  | .malformedName name fault => "cannot parse index name " ++ name ++ ": " ++ fault.reason
  | .concurrencyLimit kind limit =>
    "concurrency limit of " ++ Decimal.text limit ++ " reached for " ++ kind.name ++ " jobs"
  | .aliasCollision aliasName =>
    "alias collision: an index called " ++ aliasName ++ " already exists"
  | .createRefused name => "could not create index " ++ name
  | .foreignSegment name group => "index " ++ name ++ " is not part of group " ++ group
  | .writeTarget name =>
    "index " ++ name ++ " is the current write target and cannot be removed"
  | .store m => "group config store error: " ++ m
  | .unreadableFile => "I/O error"
  | .malformedJson => "JSON error"

/-- Whether the caller can carry on without an operator. -/
def recoverable : Error → Bool
  | .aliasCollision _ | .createRefused _ => false
  | _ => true

end Error

/-- Why an operation ended without a result. -/
inductive Halt where
  /-- It failed, and says so. -/
  | failed (cause : Error)
  /-- A number left its range, and the operation was cut off there. -/
  | overflow
  deriving DecidableEq, Inhabited, Repr

/-- The wording of the end of an operation. -/
def Halt.message : Halt → String
  | .failed cause => cause.message
  | .overflow => "attempt to add with overflow"

/-- How an operation ends. -/
abbrev Outcome (α : Type) : Type :=
  Except Halt α

/-- A result that can be read off. -/
theorem eq_ok_of_toOption {α ε : Type} {result : Except ε α} {value : α}
    (h : result.toOption = some value) : result = .ok value := by
  cases result with
  | error cause => cases h
  | ok found => exact congrArg Except.ok (Option.some.inj h)

end Rollover
