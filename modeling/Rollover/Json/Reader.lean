import Rollover.Json.Lexer

/-!
# Reading JSON values

`Json.parse?` reads a text as one JSON value.  What is read keeps everything that a reader may care
about: the order of members, members with the same name, and strings that stand for no text.
Deciding what to do about those is left to whoever looks at the value.

The functions below `parse?` work on tokens.  Each returns the value it read with the tokens it left
over.
-/

namespace Rollover

/-- A JSON value. -/
inductive Json where
  | null
  | bool (value : Bool)
  /-- A number, as it is spelled. -/
  | number (spelling : List Char)
  /-- A string. -/
  | string (text : Json.Text)
  /-- An array. -/
  | array (items : List Json)
  /-- An object, with its members in order. -/
  | object (members : List (Json.Text × Json))
  deriving Inhabited

namespace Json

mutual

/-- The value that a sequence of tokens starts with. -/
def readValue : Nat → List Token → Option (Json × List Token)
  | 0, _ => none
  | fuel + 1, tokens =>
    match tokens with
    | .null :: rest => some (.null, rest)
    | .true :: rest => some (.bool Bool.true, rest)
    | .false :: rest => some (.bool Bool.false, rest)
    | .number spelling :: rest => some (.number spelling, rest)
    | .string text :: rest => some (.string text, rest)
    | .leftBracket :: .rightBracket :: rest => some (.array [], rest)
    | .leftBracket :: rest =>
      (readItems fuel rest).map fun (items, left) => (.array items, left)
    | .leftBrace :: .rightBrace :: rest => some (.object [], rest)
    | .leftBrace :: rest =>
      (readMembers fuel rest).map fun (members, left) => (.object members, left)
    | _ => none

/-- The elements of an array that has some, up to its closing bracket. -/
def readItems : Nat → List Token → Option (List Json × List Token)
  | 0, _ => none
  | fuel + 1, tokens =>
    match readValue fuel tokens with
    | some (item, .rightBracket :: rest) => some ([item], rest)
    | some (item, .comma :: rest) =>
      (readItems fuel rest).map fun (items, left) => (item :: items, left)
    | _ => none

/-- The members of an object that has some, up to its closing brace. -/
def readMembers : Nat → List Token → Option (List (Text × Json) × List Token)
  | 0, _ => none
  | fuel + 1, tokens =>
    match tokens with
    | .string key :: .colon :: tokens =>
      match readValue fuel tokens with
      | some (value, .rightBrace :: rest) => some ([(key, value)], rest)
      | some (value, .comma :: rest) =>
        (readMembers fuel rest).map fun (members, left) => ((key, value) :: members, left)
      | _ => none
    | _ => none

end

/-- The value that all the tokens together make up.  At most two steps are taken for each token. -/
def ofTokens? (tokens : List Token) : Option Json :=
  match readValue (2 * tokens.length + 1) tokens with
  | some (value, []) => some value
  | _ => none

/-- Reads a text as one JSON value. -/
def parse? (text : String) : Option Json :=
  (tokens? text.toList).bind ofTokens?

/-! ## Looking at a value -/

/-- The text of a string. -/
def text? : Json → Option String
  | .string text => text
  | _ => none

/-- The elements of an array. -/
def items? : Json → Option (List Json)
  | .array items => some items
  | _ => none

/-- The members of an object, if every name is a text. -/
def members? : Json → Option (List (String × Json))
  | .object members => members.mapM fun member => member.1.map fun key => (key, member.2)
  | _ => none

/-- What there is under a name in an object. -/
inductive Field where
  /-- There is no member of that name. -/
  | missing
  /-- There is one. -/
  | found (value : Json)
  /-- There are several. -/
  | repeated

/-- Looks for the members of a name. -/
def field (key : String) (members : List (String × Json)) : Field :=
  match members.filter fun member => member.1 == key with
  | [] => .missing
  | [member] => .found member.2
  | _ => .repeated

end Json
end Rollover
