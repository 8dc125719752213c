/-!
# The tokens of JSON

A JSON text is a sequence of tokens with blanks in between: six marks, three words, numbers and
strings.  This file holds the tokens and the strings' escapes; `Json.Lexer` takes a text apart into
tokens, `Json.Layout` puts tokens together into a text, and `Json.Reader` makes a value of them.

## Strings that are no text

A string token may escape half of a surrogate pair.  It is then a well-formed string that stands for
no text, and a value that nobody looks at may contain it.  `Text` says so: its value `none` is such
a string.

## Pieces

The body of a string is a sequence of *pieces*: plain characters and escaped 16-bit codes.  Two
codes that form a surrogate pair make one character together (`Piece.join`).
-/

namespace Rollover
namespace Json

/-- What a string stands for; nothing, if an escape in it names half of a surrogate pair. -/
abbrev Text := Option String

/-- The tokens of JSON. -/
inductive Token where
  | leftBrace
  | rightBrace
  | leftBracket
  | rightBracket
  | colon
  | comma
  | null
  | true
  | false
  /-- A number, as it is spelled. -/
  | number (spelling : List Char)
  /-- A string. -/
  | string (text : Text)
  deriving DecidableEq, Inhabited, Repr

/-! ## Hexadecimal codes -/

/-- The value of a hexadecimal digit, of either case. -/
def hexValue? (c : Char) : Option Nat :=
  if '0' ≤ c ∧ c ≤ '9' then some (c.toNat - '0'.toNat)
  else if 'a' ≤ c ∧ c ≤ 'f' then some (c.toNat - 'a'.toNat + 10)
  else if 'A' ≤ c ∧ c ≤ 'F' then some (c.toNat - 'A'.toNat + 10)
  else none

/-- The code that four hexadecimal digits stand for. -/
def hexCode? (a b c d : Char) : Option Nat := do
  let a ← hexValue? a
  let b ← hexValue? b
  let c ← hexValue? c
  let d ← hexValue? d
  return ((a * 16 + b) * 16 + c) * 16 + d

/-- A hexadecimal digit in lower case. -/
def hexDigit (n : Nat) : Char :=
  Nat.digitChar n

/-! ## The body of a string -/

/-- A plain character of a string, or an escaped code. -/
inductive Piece where
  | char (c : Char)
  | code (code : Nat)
  deriving DecidableEq, Inhabited, Repr

/-- Whether a code is the first half of a surrogate pair. -/
def isLeading (code : Nat) : Bool :=
  0xd800 ≤ code && code < 0xdc00

/-- Whether a code is the second half of a surrogate pair. -/
def isTrailing (code : Nat) : Bool :=
  0xdc00 ≤ code && code < 0xe000

/-- The character that the two halves of a pair stand for. -/
def pairChar (leading trailing : Nat) : Char :=
  Char.ofNat (0x10000 + (leading - 0xd800) * 0x400 + (trailing - 0xdc00))

/-- The characters that pieces stand for, unless there is half a pair among them. -/
def Piece.join : List Piece → Option (List Char)
  | [] => some []
  | .char c :: pieces => (join pieces).map (c :: ·)
  | .code a :: pieces =>
    if isLeading a then
      match pieces with
      | .code b :: pieces =>
        if isTrailing b then (join pieces).map (pairChar a b :: ·) else none
      | _ => none
    else if isTrailing a then none
    else (join pieces).map (Char.ofNat a :: ·)

/-- The character that a one-letter escape stands for. -/
def shortEscape? (c : Char) : Option Char :=
  if c = '"' then some '"'
  else if c = '\\' then some '\\'
  else if c = '/' then some '/'
  else if c = 'b' then some '\x08'
  else if c = 'f' then some '\x0c'
  else if c = 'n' then some '\n'
  else if c = 'r' then some '\r'
  else if c = 't' then some '\t'
  else none

/-- How a character is written within a string.  Only the quote, the backslash and the control
characters below the space need an escape. -/
def escape (c : Char) : List Char :=
  if c = '"' then ['\\', '"']
  else if c = '\\' then ['\\', '\\']
  else if c = '\x08' then ['\\', 'b']
  else if c = '\t' then ['\\', 't']
  else if c = '\n' then ['\\', 'n']
  else if c = '\x0c' then ['\\', 'f']
  else if c = '\r' then ['\\', 'r']
  else if c.toNat < 0x20 then
    ['\\', 'u', '0', '0', hexDigit (c.toNat / 16), hexDigit (c.toNat % 16)]
  else [c]

namespace Token

/-- How a token is written. -/
def spell : Token → List Char
  | leftBrace => ['\x7b']
  | rightBrace => ['\x7d']
  | leftBracket => ['[']
  | rightBracket => [']']
  | colon => [':']
  | comma => [',']
  | null => "null".toList
  | true => "true".toList
  | false => "false".toList
  | number spelling => spelling
  | string (some text) => '"' :: text.toList.flatMap escape ++ ['"']
  | string none => "\"\\ud800\"".toList

/-- The token of a truth value. -/
def ofBool (b : Bool) : Token :=
  if b then true else false

/-- The token of a natural number. -/
def ofNat (n : Nat) : Token :=
  number (Nat.toDigits 10 n)

/-- The token of a text. -/
def ofString (text : String) : Token :=
  string (some text)

end Token
end Json
end Rollover
