/-!
# Cutting text

Two ways to take the tail of a text: after a given opening, and after the last occurrence of a
separator.  Names are read with both.  They agree on names of one group and differ on names whose
group's name itself holds a separator, so each gets the law that says exactly what it cuts.
-/

namespace Rollover
namespace Cut

/-- What follows `opening`, if the text starts with it. -/
def after? : (opening text : List Char) → Option (List Char)
  | [], text => some text
  | _ :: _, [] => none
  | o :: opening, c :: text => if o = c then after? opening text else none

/-- What follows the last `sep` of the text, if it has one. -/
def afterLast? (sep : Char) : List Char → Option (List Char)
  | [] => none
  | c :: text =>
    match afterLast? sep text with
    | some rest => some rest
    | none => if c = sep then some text else none

theorem after?_eq_some_iff {opening text rest : List Char} :
    after? opening text = some rest ↔ text = opening ++ rest := by
  induction opening generalizing text with
  | nil => simp [after?]
  | cons o opening ih =>
    cases text with
    | nil => simp [after?]
    | cons c text =>
      by_cases h : o = c
      · subst h; simp [after?, ih]
      · simp [after?, h, Ne.symm h]

@[simp] theorem after?_append (opening rest : List Char) :
    after? opening (opening ++ rest) = some rest :=
  after?_eq_some_iff.2 rfl

theorem afterLast?_eq_none_iff {sep : Char} {text : List Char} :
    afterLast? sep text = none ↔ sep ∉ text := by
  induction text with
  | nil => simp [afterLast?]
  | cons c text ih =>
    cases h : afterLast? sep text with
    | some rest =>
      have hmem : sep ∈ text := Decidable.byContradiction fun hn => by simp [ih.2 hn] at h
      simp [afterLast?, h, hmem]
    | none =>
      have hmem := ih.1 h
      by_cases hc : c = sep
      · simp [afterLast?, h, hc]
      · simp [afterLast?, h, hmem, hc, Ne.symm hc]

theorem afterLast?_append {sep : Char} {rest : List Char} (hrest : sep ∉ rest)
    (front : List Char) : afterLast? sep (front ++ sep :: rest) = some rest := by
  induction front with
  | nil => simp [afterLast?, afterLast?_eq_none_iff.2 hrest]
  | cons c front ih => simp [afterLast?, ih]

theorem afterLast?_eq_some_iff {sep : Char} {text rest : List Char} :
    afterLast? sep text = some rest ↔
      (∃ front, text = front ++ sep :: rest) ∧ sep ∉ rest := by
  refine ⟨fun h => ?_, fun ⟨⟨front, hf⟩, hr⟩ => hf ▸ afterLast?_append hr front⟩
  induction text with
  | nil => simp [afterLast?] at h
  | cons c text ih =>
    cases ht : afterLast? sep text with
    | some r =>
      obtain rfl : r = rest := by simpa [afterLast?, ht] using h
      obtain ⟨⟨front, hf⟩, hr⟩ := ih ht
      exact ⟨⟨c :: front, by simp [hf]⟩, hr⟩
    | none =>
      by_cases hc : c = sep
      · obtain rfl : text = rest := by simpa [afterLast?, ht, hc] using h
        exact ⟨⟨[], by simp [hc]⟩, afterLast?_eq_none_iff.1 ht⟩
      · simp [afterLast?, ht, hc] at h

end Cut
end Rollover
