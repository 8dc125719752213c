import Rollover.Json.Token
import Rollover.Text.Cut

/-!
# Taking a JSON text apart

`Json.tokens?` splits a text into its tokens.  It follows the grammar of JSON to the letter: no
comments, no control characters in strings, no leading zeros, nothing but the four blanks between
tokens.  A text that is not a sequence of tokens has none.

Each scanner takes what is left of the text and returns what it leaves.  The longest token is taken,
and the sequence of tokens of a well-formed text does not depend on its blanks.
-/

namespace Rollover
namespace Json

/-- The characters that may stand between tokens. -/
def isBlank (c : Char) : Bool :=
  c == ' ' || c == '\t' || c == '\n' || c == '\r'

/-! ## Strings -/

/-- The pieces of a string up to its closing quote. -/
def scanPieces : List Char → Option (List Piece × List Char)
  | [] => none
  | c :: rest =>
    if c = '"' then some ([], rest)
    else if c = '\\' then
      match rest with
      | [] => none
      | e :: rest =>
        if e = 'u' then
          match rest with
          | h₁ :: h₂ :: h₃ :: h₄ :: rest =>
            match hexCode? h₁ h₂ h₃ h₄, scanPieces rest with
            | some code, some (pieces, left) => some (.code code :: pieces, left)
            | _, _ => none
          | _ => none
        else
          match shortEscape? e, scanPieces rest with
          | some c, some (pieces, left) => some (.char c :: pieces, left)
          | _, _ => none
    else if c.toNat < 0x20 then none
    else
      match scanPieces rest with
      | some (pieces, left) => some (.char c :: pieces, left)
      | none => none

/-- The rest of a string token after its opening quote. -/
def scanString (cs : List Char) : Option (Token × List Char) :=
  match scanPieces cs with
  | some (pieces, left) => some (.string ((Piece.join pieces).map String.ofList), left)
  | none => none

/-! ## Numbers -/

/-- What follows a run of digits, of which there has to be one. -/
def skipDigits? (cs : List Char) : Option (List Char) :=
  match cs with
  | [] => none
  | c :: rest => if c.isDigit then some (rest.dropWhile Char.isDigit) else none

/-- What follows the integer part of a number: a zero, or digits that do not start with one. -/
def skipInteger? (cs : List Char) : Option (List Char) :=
  match cs with
  | '0' :: rest => some rest
  | cs => skipDigits? cs

/-- What follows the fraction of a number, which may be missing. -/
def skipFraction? (cs : List Char) : Option (List Char) :=
  match cs with
  | '.' :: rest => skipDigits? rest
  | cs => some cs

/-- What follows the sign of an exponent, which may be missing. -/
def skipSign (cs : List Char) : List Char :=
  match cs with
  | '+' :: rest | '-' :: rest => rest
  | cs => cs

/-- What follows the exponent of a number, which may be missing. -/
def skipExponent? (cs : List Char) : Option (List Char) :=
  match cs with
  | 'e' :: rest | 'E' :: rest => skipDigits? (skipSign rest)
  | cs => some cs

/-- What follows the minus sign of a number, which may be missing. -/
def skipMinus (cs : List Char) : List Char :=
  match cs with
  | '-' :: rest => rest
  | cs => cs

/-- A number token. -/
def scanNumber (cs : List Char) : Option (Token × List Char) := do
  let left ← skipInteger? (skipMinus cs)
  let left ← skipFraction? left
  let left ← skipExponent? left
  return (.number (cs.take (cs.length - left.length)), left)

/-! ## Tokens -/

/-- A word, if the text starts with it. -/
def scanWord (token : Token) (cs : List Char) : Option (Token × List Char) :=
  (Cut.after? token.spell cs).map fun left => (token, left)

/-- The token that a text starts with. -/
def scanToken : List Char → Option (Token × List Char)
  | [] => none
  | c :: rest =>
    if c = '\x7b' then some (.leftBrace, rest)
    else if c = '\x7d' then some (.rightBrace, rest)
    else if c = '[' then some (.leftBracket, rest)
    else if c = ']' then some (.rightBracket, rest)
    else if c = ':' then some (.colon, rest)
    else if c = ',' then some (.comma, rest)
    else if c = '"' then scanString rest
    else if c = 'n' then scanWord .null (c :: rest)
    else if c = 't' then scanWord .true (c :: rest)
    else if c = 'f' then scanWord .false (c :: rest)
    else scanNumber (c :: rest)

/-- The tokens of a text, found in at most `fuel` steps. -/
def scan : Nat → List Char → Option (List Token)
  | _, [] => some []
  | 0, _ :: _ => none
  | fuel + 1, c :: rest =>
    if isBlank c then scan fuel rest
    else
      match scanToken (c :: rest) with
      | some (token, left) => (scan fuel left).map (token :: ·)
      | none => none

/-- The tokens of a text.  Every step takes a character at least, so the length of the text is
enough. -/
def tokens? (cs : List Char) : Option (List Token) :=
  scan cs.length cs

example : tokens? "[ -0.5e+3,\"\\u00e9\\ud83d\\ude00\" ]".toList =
    some [.leftBracket, .number "-0.5e+3".toList, .comma, .string (some "é😀"), .rightBracket] := by
  decide +kernel
example : tokens? "\"\\ud83d\"".toList = some [.string none] := by decide +kernel
example : tokens? "01".toList = some [.number ['0'], .number ['1']] := by decide +kernel
example : tokens? "-".toList = none := by decide +kernel

end Json
end Rollover
