import Rollover.Json.Token

/-!
# Laying out JSON

A value to be written is given as its tokens.  `Token.array` and `Token.object` put the tokens of
parts together, and two layouts make a text of them: `compact` without any blanks, and `pretty` with
every element and every member on a line of its own, indented by two spaces for each level.  Nothing
is put between the brackets of an empty array or the braces of an empty object.

Both layouts only add blanks between tokens, so both texts have the same tokens.
-/

namespace Rollover
namespace Json

/-- Parts with commas in between. -/
def commaSeparated : List (List Token) → List Token
  | [] => []
  | [part] => part
  | part :: parts => part ++ .comma :: commaSeparated parts

/-- The tokens of an array. -/
def Token.array (items : List (List Token)) : List Token :=
  .leftBracket :: commaSeparated items ++ [.rightBracket]

/-- The tokens of an object. -/
def Token.object (members : List (String × List Token)) : List Token :=
  .leftBrace ::
    commaSeparated (members.map fun member => Token.ofString member.1 :: .colon :: member.2) ++
    [.rightBrace]

/-- Tokens without any blanks. -/
def compact (tokens : List Token) : String :=
  String.ofList (tokens.flatMap Token.spell)

/-- The start of a line at a level. -/
def newline (level : Nat) : List Char :=
  '\n' :: List.replicate (2 * level) ' '

/-- Tokens over several lines, from a given level on. -/
def indented : Nat → List Token → List Char
  | _, [] => []
  | level, .leftBracket :: .rightBracket :: rest => '[' :: ']' :: indented level rest
  | level, .leftBrace :: .rightBrace :: rest => '\x7b' :: '\x7d' :: indented level rest
  | level, .leftBracket :: rest => '[' :: newline (level + 1) ++ indented (level + 1) rest
  | level, .leftBrace :: rest => '\x7b' :: newline (level + 1) ++ indented (level + 1) rest
  | level, .rightBracket :: rest => newline (level - 1) ++ ']' :: indented (level - 1) rest
  | level, .rightBrace :: rest => newline (level - 1) ++ '\x7d' :: indented (level - 1) rest
  | level, .comma :: rest => ',' :: newline level ++ indented level rest
  | level, .colon :: rest => ':' :: ' ' :: indented level rest
  | level, token :: rest => token.spell ++ indented level rest

/-- Tokens with every element and every member on a line of its own. -/
def pretty (tokens : List Token) : String :=
  String.ofList (indented 0 tokens)

example : compact (Token.object [("a", [.ofNat 1]), ("b", Token.array [])]) =
    "\x7b\"a\":1,\"b\":[]\x7d" := by
  decide +kernel
example : pretty (Token.array [[.ofBool true], Token.object []]) = "[\n  true,\n  \x7b\x7d\n]" := by
  decide +kernel

end Json
end Rollover
