import Rollover.Error
import Rollover.Text.Cut
import Rollover.Text.Decimal

/-!
# Segments and their names

A *segment* is what a group has in the engine: one of its numbered indices, or its write alias.
The indices of a group with full name `g` are called `g_0`, `g_1`, and so on; its alias is called
`g_deflector`.  Writing a name is joining; reading one comes in two forms.

* `Segment.number?` reads the number of any index from the text after the *last* underscore.
* `IndexGroup.parse` decides what a name is *to a given group*, from the text after the group's
  full name and an underscore.

The two agree on names of the group.  Reading accepts leading zeros, so `g_7` and `g_07` are both
read as number 7, and only the first is the name of that segment.
-/

namespace Rollover

/-- A numbered index of a group, or a group's write alias.  The `base` is a group's full name. -/
inductive Segment where
  /-- The index with a number. -/
  | ordinary (base : String) (number : UInt64)
  /-- The write alias. -/
  | writeAlias (base : String)
  deriving DecidableEq, Inhabited, Repr

namespace Segment

/-- What the write alias has in place of a number. -/
def aliasSuffix : String := "deflector"

/-- The name of the index `number` of the group called `base`. -/
def indexName (base : String) (number : UInt64) : String :=
  base ++ "_" ++ Decimal.text number.toNat

/-- The name of the write alias of the group called `base`. -/
def aliasName (base : String) : String :=
  base ++ "_" ++ aliasSuffix

/-- The full name of the group a segment belongs to. -/
def base : Segment → String
  | ordinary base _ | writeAlias base => base

/-- The number of an index.  The alias has none. -/
def number : Segment → Option UInt64
  | ordinary _ number => some number
  | writeAlias _ => none

/-- Whether a segment is a write alias. -/
def isWriteAlias : Segment → Bool
  | ordinary _ _ => false
  | writeAlias _ => true

/-- The name of a segment in the engine. -/
def name : Segment → String
  | ordinary base number => indexName base number
  | writeAlias base => aliasName base

@[simp] theorem name_ordinary (base : String) (number : UInt64) :
    (ordinary base number).name = indexName base number := rfl

@[simp] theorem name_writeAlias (base : String) : (writeAlias base).name = aliasName base := rfl

/-- Reads the part of a name that should be a number. -/
def readNumber (suffix : List Char) : Except NameFault UInt64 :=
  if suffix = aliasSuffix.toList then .error .aliasHasNoNumber
  else
    match Decimal.read? suffix with
    | none => .error (.notANumeral (String.ofList suffix))
    | some n => if n < UInt64.size then .ok (UInt64.ofNat n) else .error .outOfRange

/-- Reads the number of an index from its name, whatever group it belongs to. -/
def number? (name : String) : Except Error UInt64 :=
  match Cut.afterLast? '_' name.toList with
  | none => .error (.malformedName name .missingSeparator)
  | some suffix => (readNumber suffix).mapError (.malformedName name)

end Segment

namespace IndexGroup

/-- The name of a group's index with a number. -/
def nameOf (group : IndexGroup) (number : UInt64) : String :=
  Segment.indexName group.fullName number

/-- The name of a group's write alias. -/
def aliasName (group : IndexGroup) : String :=
  Segment.aliasName group.fullName

/-- What a name has after the group's full name and an underscore. -/
def suffix? (group : IndexGroup) (name : String) : Option (List Char) :=
  Cut.after? (group.fullName ++ "_").toList name.toList

/-- Whether a name starts as the names of the group do. -/
def isStemOf (group : IndexGroup) (name : String) : Bool :=
  (group.suffix? name).isSome

/-- What a name is to the group. -/
def parse (group : IndexGroup) (name : String) : Except Error Segment :=
  match group.suffix? name with
  | none => .error (.foreignSegment name group.fullName)
  | some suffix =>
    if suffix = Segment.aliasSuffix.toList then .ok (.writeAlias group.fullName)
    else
      match Segment.readNumber suffix with
      | .error fault => .error (.malformedName name fault)
      | .ok number => .ok (.ordinary group.fullName number)

/-- The number under which a name is an index of the group. -/
def numberOf? (group : IndexGroup) (name : String) : Option UInt64 :=
  match group.parse name with
  | .ok segment => segment.number
  | .error _ => none

end IndexGroup
end Rollover
