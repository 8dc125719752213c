import Rollover.Text.Combining
import Rollover.Text.Unprintable

/-!
# Quoted text

A piece of text of unknown content is shown in a message between double quotes, with everything
escaped that a reader could not see or could mistake: the quote and the backslash themselves,
the usual control characters by their short escapes, and any other character that does not print
or that would be drawn onto its neighbour by its code point in hexadecimal, as `\u{…}`.
-/

namespace Rollover
namespace Quoted

/-- A character's code point in lower-case hexadecimal, without padding. -/
def codePoint (c : Char) : List Char :=
  ['\\', 'u', '\x7b'] ++ Nat.toDigits 16 c.toNat ++ ['\x7d']

/-- How one character is shown between the quotes. -/
def escape (c : Char) : List Char :=
  if c = '"' then ['\\', '"']
  else if c = '\\' then ['\\', '\\']
  else if c = '\n' then ['\\', 'n']
  else if c = '\r' then ['\\', 'r']
  else if c = '\t' then ['\\', 't']
  else if c = Char.ofNat 0 then ['\\', '0']
  else if Combining.contains c || Unprintable.contains c then codePoint c
  else [c]

/-- The text between double quotes. -/
def quote (text : List Char) : String :=
  String.ofList ('"' :: text.flatMap escape ++ ['"'])

example : quote ['x', '"', '\n'] = "\"x\\\"\\n\"" := by decide +kernel
example : quote [Char.ofNat 0x1b, Char.ofNat 0x301] = "\"\\u\x7b1b\x7d\\u\x7b301\x7d\"" := by
  decide +kernel

end Quoted
end Rollover
