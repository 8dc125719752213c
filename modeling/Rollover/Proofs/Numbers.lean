import Rollover.Json.Lexer
import Rollover.Text.Decimal

/-!
# The spelling of numbers

A number is a sign, a whole number, a fraction and an exponent, of which only the second has to be
there (`IsNumber`).  The scanner goes through the four in order and takes each as far as it reaches,
and whatever it takes is a number (`exists_isNumber_of_scanNumber`).

The other direction needs a condition, because a number does not show its own end: the scanner takes
just the number that was meant if the text does not go on with a digit, a point or the mark of an
exponent (`scanNumber_append`).  Each of the four parts passes such a condition on to the part
before it: an exponent ends a fraction, and a fraction ends a whole number.
-/

namespace Rollover
namespace Json

variable {c : Char} {cs rest left : List Char} {kind : Char → Bool} {token : Token}

/-! ## Digits -/

/-- The text does not start with a character of the kind. -/
def Avoids (kind : Char → Bool) (text : List Char) : Prop :=
  ∀ c ∈ text.head?, kind c = false

theorem avoids_cons : Avoids kind (c :: cs) ↔ kind c = false := by
  simp [Avoids]

theorem dropWhile_of_avoids (h : Avoids kind cs) : cs.dropWhile kind = cs := by
  cases cs with
  | nil => rfl
  | cons c cs => rw [List.dropWhile_cons, avoids_cons.mp h, if_neg Bool.false_ne_true]

/-- All digits are skipped. -/
theorem skipDigits?_append {digits : List Char} (h : Decimal.IsNumeral digits)
    (hleft : Avoids Char.isDigit left) : skipDigits? (digits ++ left) = some left := by
  obtain ⟨hne, hdigits⟩ := h
  cases digits with
  | nil => exact absurd rfl hne
  | cons c digits =>
    obtain ⟨hc, hdigits⟩ := List.forall_mem_cons.mp hdigits
    rw [List.cons_append, skipDigits?, if_pos hc, List.dropWhile_append_of_pos hdigits,
      dropWhile_of_avoids hleft]

theorem exists_digits_of_skipDigits? (h : skipDigits? cs = some left) :
    ∃ digits, Decimal.IsNumeral digits ∧ cs = digits ++ left := by
  cases cs with
  | nil => cases h
  | cons c rest =>
    rw [skipDigits?] at h
    split at h
    · next hc =>
      obtain rfl := Option.some.inj h
      refine ⟨c :: rest.takeWhile Char.isDigit, ⟨List.cons_ne_nil _ _, ?_⟩, ?_⟩
      · exact List.forall_mem_cons.mpr ⟨hc, List.all_eq_true.mp List.all_takeWhile⟩
      · rw [List.cons_append, List.takeWhile_append_dropWhile]
    · cases h

/-! ## The parts of a number -/

/-- The integer part of a number.  It starts with a zero only if it is one. -/
inductive Whole : List Char → Prop
  | zero : Whole ['0']
  | digits {c : Char} {cs : List Char} (h : Decimal.IsNumeral (c :: cs)) (hc : c ≠ '0') :
    Whole (c :: cs)

theorem skipInteger?_append {whole : List Char} (h : Whole whole)
    (hleft : Avoids Char.isDigit left) : skipInteger? (whole ++ left) = some left := by
  cases h with
  | zero => rfl
  | @digits c cs h hc =>
    rw [← skipDigits?_append h hleft, List.cons_append, skipInteger?]
    exact fun rest heq => hc (List.cons.inj heq).1

theorem exists_whole_of_skipInteger? (h : skipInteger? cs = some left) :
    ∃ whole, Whole whole ∧ cs = whole ++ left := by
  rw [skipInteger?.eq_def] at h
  split at h
  · obtain rfl := Option.some.inj h
    exact ⟨_, .zero, rfl⟩
  · next hzero =>
    obtain ⟨digits, hdigits, rfl⟩ := exists_digits_of_skipDigits? h
    cases digits with
    | nil => exact absurd rfl hdigits.1
    | cons c digits => exact ⟨_, .digits hdigits (by rintro rfl; exact hzero _ rfl), rfl⟩

/-- The fraction of a number, which may be missing. -/
inductive Fraction : List Char → Prop
  | none : Fraction []
  | digits {cs : List Char} (h : Decimal.IsNumeral cs) : Fraction ('.' :: cs)

theorem skipFraction?_append {fraction : List Char} (h : Fraction fraction)
    (hleft : Avoids (fun c => c.isDigit || c == '.') left) :
    skipFraction? (fraction ++ left) = some left := by
  cases h with
  | none =>
    rw [List.nil_append, skipFraction?]
    rintro rest rfl
    cases avoids_cons.mp hleft
  | digits h =>
    exact skipDigits?_append h fun c hc => (Bool.or_eq_false_iff.mp (hleft c hc)).1

theorem exists_fraction_of_skipFraction? (h : skipFraction? cs = some left) :
    ∃ fraction, Fraction fraction ∧ cs = fraction ++ left := by
  rw [skipFraction?.eq_def] at h
  split at h
  · obtain ⟨digits, hdigits, rfl⟩ := exists_digits_of_skipDigits? h
    exact ⟨_, .digits hdigits, rfl⟩
  · obtain rfl := Option.some.inj h
    exact ⟨_, .none, rfl⟩

/-- The exponent of a number, which may be missing, and so may its sign. -/
inductive Exponent : List Char → Prop
  | none : Exponent []
  | digits {e : Char} {sign cs : List Char} (he : e = 'e' ∨ e = 'E')
      (hsign : sign = [] ∨ sign = ['+'] ∨ sign = ['-']) (h : Decimal.IsNumeral cs) :
      Exponent (e :: (sign ++ cs))

/-- The characters that a number may go on with. -/
def mayGoOn (c : Char) : Bool :=
  c.isDigit || c == '.' || c == 'e' || c == 'E'

theorem skipSign_append {sign digits : List Char}
    (hsign : sign = [] ∨ sign = ['+'] ∨ sign = ['-']) (h : Decimal.IsNumeral digits)
    (left : List Char) :
    skipSign (sign ++ (digits ++ left)) = digits ++ left := by
  rcases hsign with rfl | rfl | rfl
  · cases digits with
    | nil => exact absurd rfl h.1
    | cons c digits =>
      have hc := (List.forall_mem_cons.mp h.2).1
      rw [List.nil_append, List.cons_append, skipSign]
      · rintro rest ⟨⟩
        exact absurd hc (by decide)
      · rintro rest ⟨⟩
        exact absurd hc (by decide)
  · rfl
  · rfl

theorem exists_sign (cs : List Char) :
    ∃ sign, (sign = [] ∨ sign = ['+'] ∨ sign = ['-']) ∧ cs = sign ++ skipSign cs := by
  rw [skipSign.eq_def]
  split
  · exact ⟨['+'], .inr (.inl rfl), rfl⟩
  · exact ⟨['-'], .inr (.inr rfl), rfl⟩
  · exact ⟨[], .inl rfl, rfl⟩

theorem skipExponent?_append {exponent : List Char} (h : Exponent exponent)
    (hleft : Avoids mayGoOn left) : skipExponent? (exponent ++ left) = some left := by
  cases h with
  | none =>
    rw [List.nil_append, skipExponent?]
    · rintro rest rfl
      cases avoids_cons.mp hleft
    · rintro rest rfl
      cases avoids_cons.mp hleft
  | @digits e sign digits he hsign h =>
    have hdigits : skipDigits? (digits ++ left) = some left := by
      refine skipDigits?_append h fun c hc => ?_
      have hstop := hleft c hc
      simp only [mayGoOn, Bool.or_eq_false_iff] at hstop
      exact hstop.1.1.1
    rw [← hdigits, ← skipSign_append hsign h left, List.cons_append, List.append_assoc]
    rcases he with rfl | rfl <;> rfl

theorem exists_exponent_of_skipExponent? (h : skipExponent? cs = some left) :
    ∃ exponent, Exponent exponent ∧ cs = exponent ++ left := by
  have hmark : ∀ {e : Char} {rest : List Char}, e = 'e' ∨ e = 'E' →
      skipDigits? (skipSign rest) = some left →
        ∃ exponent, Exponent exponent ∧ e :: rest = exponent ++ left := by
    intro e rest he hskip
    obtain ⟨sign, hsign, hrest⟩ := exists_sign rest
    obtain ⟨digits, hdigits, hcut⟩ := exists_digits_of_skipDigits? hskip
    refine ⟨_, .digits he hsign hdigits, ?_⟩
    rw [List.cons_append, List.append_assoc, ← hcut, ← hrest]
  rw [skipExponent?.eq_def] at h
  split at h
  · exact hmark (.inl rfl) h
  · exact hmark (.inr rfl) h
  · obtain rfl := Option.some.inj h
    exact ⟨_, .none, rfl⟩

/-! ## Numbers -/

/-- The spelling of a number. -/
inductive IsNumber : List Char → Prop
  | intro {sign whole fraction exponent : List Char} (hsign : sign = [] ∨ sign = ['-'])
      (hwhole : Whole whole) (hfraction : Fraction fraction) (hexponent : Exponent exponent) :
      IsNumber (sign ++ (whole ++ (fraction ++ exponent)))

/-- An exponent ends a fraction, and what a number cannot go on with ends both. -/
theorem Exponent.avoids {exponent : List Char} (h : Exponent exponent)
    (hleft : Avoids mayGoOn left) :
    Avoids (fun c => c.isDigit || c == '.') (exponent ++ left) := by
  cases h with
  | none =>
    intro c hc
    have hstop := hleft c hc
    simp only [mayGoOn, Bool.or_eq_false_iff] at hstop
    exact Bool.or_eq_false_iff.mpr hstop.1.1
  | digits he =>
    rw [List.cons_append, avoids_cons]
    rcases he with rfl | rfl <;> rfl

theorem Fraction.avoids {fraction : List Char} (h : Fraction fraction)
    (hrest : Avoids (fun c => c.isDigit || c == '.') rest) :
    Avoids Char.isDigit (fraction ++ rest) := by
  cases h with
  | none => exact fun c hc => (Bool.or_eq_false_iff.mp (hrest c hc)).1
  | digits => exact avoids_cons.mpr rfl

theorem Whole.exists_eq_cons {whole : List Char} (h : Whole whole) :
    ∃ c cs, whole = c :: cs ∧ c.isDigit = true := by
  cases h with
  | zero => exact ⟨'0', [], rfl, rfl⟩
  | digits h => exact ⟨_, _, rfl, (List.forall_mem_cons.mp h.2).1⟩

theorem take_length_sub (cs left : List Char) :
    (cs ++ left).take ((cs ++ left).length - left.length) = cs := by
  rw [List.length_append, Nat.add_sub_cancel, List.take_left]

/-- **A number is taken off the text**, if the text does not go on like a number. -/
theorem scanNumber_append {spelling : List Char} (h : IsNumber spelling)
    (hleft : Avoids mayGoOn left) :
    scanNumber (spelling ++ left) = some (.number spelling, left) := by
  have htake := take_length_sub spelling left
  obtain @⟨sign, whole, fraction, exponent, hsign, hwhole, hfraction, hexponent⟩ := h
  have hrest := hexponent.avoids hleft
  have hminus : skipMinus (sign ++ (whole ++ (fraction ++ exponent)) ++ left) =
      whole ++ (fraction ++ (exponent ++ left)) := by
    simp only [List.append_assoc]
    obtain ⟨c, cs, rfl, hc⟩ := hwhole.exists_eq_cons
    rcases hsign with rfl | rfl
    · rw [List.nil_append, List.cons_append, skipMinus]
      rintro rest ⟨⟩
      exact absurd hc (by decide)
    · rfl
  simp only [scanNumber, Option.bind_eq_bind, Option.bind_some, Option.pure_def, hminus,
    skipInteger?_append hwhole (hfraction.avoids hrest), skipFraction?_append hfraction hrest,
    skipExponent?_append hexponent hleft, htake]

theorem exists_isNumber_of_scanNumber (h : scanNumber cs = some (token, left)) :
    ∃ spelling, IsNumber spelling ∧ token = .number spelling ∧ cs = spelling ++ left := by
  have hminus : ∃ sign, (sign = [] ∨ sign = ['-']) ∧ cs = sign ++ skipMinus cs := by
    rw [skipMinus.eq_def]
    split
    · exact ⟨['-'], .inr rfl, rfl⟩
    · exact ⟨[], .inl rfl, rfl⟩
  simp only [scanNumber, Option.bind_eq_bind, Option.bind_eq_some_iff, Option.pure_def,
    Option.some.injEq, Prod.mk.injEq] at h
  obtain ⟨afterWhole, hskip₁, afterFraction, hskip₂, last, hskip₃, rfl, rfl⟩ := h
  obtain ⟨sign, hsign, hcs⟩ := hminus
  obtain ⟨whole, hwhole, hcut⟩ := exists_whole_of_skipInteger? hskip₁
  obtain ⟨fraction, hfraction, rfl⟩ := exists_fraction_of_skipFraction? hskip₂
  obtain ⟨exponent, hexponent, rfl⟩ := exists_exponent_of_skipExponent? hskip₃
  have hsplit : cs = sign ++ (whole ++ (fraction ++ exponent)) ++ last := by
    rw [hcs, hcut]
    simp only [List.append_assoc]
  refine ⟨_, .intro hsign hwhole hfraction hexponent, congrArg Token.number ?_, hsplit⟩
  rw [hsplit, take_length_sub]

end Json
end Rollover
