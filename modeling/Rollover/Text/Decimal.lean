/-!
# Decimal numerals

Index numbers are written in base ten, without sign and without padding.  Reading is more
generous than writing: a numeral may carry leading zeros, so several texts can name one number,
and only one of them is the text that writing produces.

Both directions are the standard digit functions of `Nat`; what this file adds is the grammar of
a numeral (one digit at least, ASCII digits only) and the fact that reading inverts writing.
-/

namespace Rollover
namespace Decimal

/-- The shortest numeral of a number. -/
def text (n : Nat) : String :=
  String.ofList (Nat.toDigits 10 n)

/-- A numeral is a non-empty run of the characters `0` to `9`.  Digits of other scripts do not
count. -/
def IsNumeral (cs : List Char) : Prop :=
  cs ≠ [] ∧ ∀ c ∈ cs, c.isDigit = true

instance (cs : List Char) : Decidable (IsNumeral cs) :=
  decidable_of_iff ((!cs.isEmpty && cs.all Char.isDigit) = true) (by simp [IsNumeral])

/-- The number a run of digits stands for, read from the most significant end. -/
def value (cs : List Char) : Nat :=
  Nat.ofDigitChars 10 cs 0

/-- Reads a numeral; anything else has no value. -/
def read? (cs : List Char) : Option Nat :=
  if IsNumeral cs then some (value cs) else none

theorem read?_eq_some_iff {cs : List Char} {n : Nat} :
    read? cs = some n ↔ IsNumeral cs ∧ value cs = n := by
  unfold read?
  split <;> simp [*]

@[simp] theorem toList_text (n : Nat) : (text n).toList = Nat.toDigits 10 n := by
  simp [text]

theorem isNumeral_toDigits (n : Nat) : IsNumeral (Nat.toDigits 10 n) :=
  ⟨Nat.toDigits_ne_nil, fun _ h => Nat.isDigit_of_mem_toDigits (by decide) (by decide) h⟩

@[simp] theorem value_toDigits (n : Nat) : value (Nat.toDigits 10 n) = n :=
  Nat.ofDigitChars_toDigits (by decide) (by decide)

/-- Reading what was written gives the number back. -/
@[simp] theorem read?_toDigits (n : Nat) : read? (Nat.toDigits 10 n) = some n := by
  simp [read?, isNumeral_toDigits]

theorem text_injective {m n : Nat} (h : text m = text n) : m = n := by
  simpa using congrArg (fun s => read? s.toList) h

end Decimal
end Rollover
