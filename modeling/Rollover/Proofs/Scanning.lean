import Mathlib.Data.List.Chain
import Rollover.Json.Layout
import Rollover.Proofs.Spelling

/-!
# Taking texts apart

`Spells tokens cs` says that a text consists of spelled tokens, in order, with blanks anywhere
between them.  The scanner finds the tokens of such a text (`Spells.tokens?_eq`), and what it finds
in a text are tokens that it consists of (`spells_of_tokens?`).

The first of these needs a condition on the tokens.  Two numbers in a row may be spelled without a
blank in between, and read as one.  The tokens of a value never come to this: a number is followed
by a comma or by a closing bracket, if by anything (`Separated`), and a number ends there.

The layouts add nothing but blanks, so the texts they make spell the tokens they were given
(`spells_compact`, `spells_pretty`).
-/

namespace Rollover
namespace Json

variable {c : Char} {cs : List Char} {token : Token} {tokens : List Token}

/-! ## Texts -/

/-- The text consists of the tokens, in order, and of blanks. -/
inductive Spells : List Token → List Char → Prop
  | nil : Spells [] []
  | blank {tokens : List Token} {c : Char} {cs : List Char} (hc : isBlank c = true)
      (h : Spells tokens cs) : Spells tokens (c :: cs)
  | token {token : Token} {tokens : List Token} {spelling cs : List Char}
      (htoken : token.Spelled spelling) (h : Spells tokens cs) :
    Spells (token :: tokens) (spelling ++ cs)

/-- The tokens that may follow a value. -/
def Token.isCloser : Token → Bool
  | .comma | .rightBracket | .rightBrace => Bool.true
  | _ => Bool.false

/-- After a number comes a token that ends it, if any. -/
def Separated (tokens : List Token) : Prop :=
  tokens.IsChain fun a b => ∀ spelling, a = .number spelling → b.isCloser = true

/-- Every token starts with a character that is no blank. -/
theorem Token.Spelled.exists_eq_cons (h : token.Spelled cs) :
    ∃ c rest, cs = c :: rest ∧ isBlank c = Bool.false := by
  cases h with
  | fixed h =>
    match token with
    | .leftBrace | .rightBrace | .leftBracket | .rightBracket | .colon | .comma =>
      exact ⟨_, _, rfl, rfl⟩
    | .null => exact ⟨'n', ['u', 'l', 'l'], rfl, rfl⟩
    | .true => exact ⟨'t', ['r', 'u', 'e'], rfl, rfl⟩
    | .false => exact ⟨'f', ['a', 'l', 's', 'e'], rfl, rfl⟩
    | .number spelling => cases h
    | .string text => cases h
  | number h =>
    obtain ⟨c, rest, rfl, hc⟩ := h.exists_eq_cons
    refine ⟨c, rest, rfl, Bool.eq_false_iff.mpr fun hblank => ?_⟩
    simp only [isBlank, Bool.or_eq_true, beq_iff_eq] at hblank
    rcases hblank with ((rfl | rfl) | rfl) | rfl <;> revert hc <;> decide
  | string h => exact ⟨'"', _, rfl, rfl⟩

namespace Spells

/-- Before a token that ends it, a number is not continued. -/
theorem avoids (h : Spells tokens cs) (hcloser : ∀ token ∈ tokens.head?, token.isCloser = true) :
    Avoids mayGoOn cs := by
  cases h with
  | nil => exact nofun
  | blank hc =>
    rw [avoids_cons]
    simp only [isBlank, Bool.or_eq_true, beq_iff_eq] at hc
    rcases hc with ((rfl | rfl) | rfl) | rfl <;> rfl
  | @token token _ _ _ htoken =>
    have hclose := hcloser token rfl
    cases htoken with
    | fixed =>
      match token with
      | .comma | .rightBracket | .rightBrace => exact avoids_cons.mpr rfl
    | number => cases hclose
    | string => cases hclose

theorem scan_eq (h : Spells tokens cs) (hseparated : Separated tokens) {fuel : Nat}
    (hfuel : cs.length ≤ fuel) : scan fuel cs = some tokens := by
  induction h generalizing fuel with
  | nil => cases fuel <;> rfl
  | blank hc h ih =>
    obtain ⟨fuel, rfl⟩ := Nat.exists_eq_add_of_le' (Nat.one_le_of_lt hfuel)
    rw [scan, if_pos hc]
    exact ih hseparated (Nat.le_of_succ_le_succ hfuel)
  | @token token tokens spelling cs htoken h ih =>
    obtain ⟨hnext, hseparated⟩ := List.isChain_cons.mp hseparated
    have hscan : scanToken (spelling ++ cs) = some (token, cs) :=
      scanToken_append htoken fun number heq =>
        h.avoids fun next hmem => hnext next hmem number heq
    obtain ⟨c, rest, rfl, hc⟩ := htoken.exists_eq_cons
    rw [List.cons_append] at hfuel hscan ⊢
    obtain ⟨fuel, rfl⟩ := Nat.exists_eq_add_of_le' (Nat.one_le_of_lt hfuel)
    have hleft : cs.length ≤ fuel := by
      rw [List.length_cons, List.length_append] at hfuel
      omega
    rw [scan, hc, if_neg Bool.false_ne_true, hscan]
    show (scan fuel cs).map (token :: ·) = _
    rw [ih hseparated hleft, Option.map_some]

/-- **The tokens of a spelled text are found.** -/
theorem tokens?_eq (h : Spells tokens cs) (hseparated : Separated tokens) :
    tokens? cs = some tokens :=
  h.scan_eq hseparated (Nat.le_refl _)

theorem own (htoken : token.Spelled token.spell) (h : Spells tokens cs) :
    Spells (token :: tokens) (token.spell ++ cs) :=
  .token htoken h

/-- Blanks may be put in front. -/
theorem blanks (h : Spells tokens cs) {front : List Char} (hfront : ∀ c ∈ front, isBlank c = true) :
    Spells tokens (front ++ cs) := by
  induction front with
  | nil => exact h
  | cons c front ih =>
    exact .blank (hfront c List.mem_cons_self)
      (ih fun c hc => hfront c (List.mem_cons_of_mem _ hc))

end Spells

theorem spells_of_scan {fuel : Nat} (h : scan fuel cs = some tokens) : Spells tokens cs := by
  induction fuel generalizing cs tokens with
  | zero =>
    cases cs with
    | nil =>
      obtain rfl := Option.some.inj h
      exact .nil
    | cons c cs => cases h
  | succ fuel ih =>
    cases cs with
    | nil =>
      obtain rfl := Option.some.inj h
      exact .nil
    | cons c cs =>
      rw [scan] at h
      split at h
      · next hc => exact .blank hc (ih h)
      · split at h
        · next token left hscan =>
          obtain ⟨found, hfound, rfl⟩ := Option.map_eq_some_iff.mp h
          obtain ⟨spelling, hspelled, hsplit⟩ := exists_spelled_of_scanToken hscan
          exact hsplit ▸ .token hspelled (ih hfound)
        · cases h

/-- **The tokens that are found spell the text.** -/
theorem spells_of_tokens? (h : tokens? cs = some tokens) : Spells tokens cs :=
  spells_of_scan h

/-! ## The layouts -/

/-- Without blanks the tokens are spelled. -/
theorem spells_compact (h : ∀ token ∈ tokens, token.Spelled token.spell) :
    Spells tokens (compact tokens).toList := by
  rw [compact, String.toList_ofList]
  induction tokens with
  | nil => exact .nil
  | cons token tokens ih =>
    exact .own (h token List.mem_cons_self)
      (ih fun token htoken => h token (List.mem_cons_of_mem _ htoken))

theorem isBlank_of_mem_newline {level : Nat} (h : c ∈ newline level) : isBlank c = true := by
  rcases List.mem_cons.mp h with rfl | h
  · rfl
  · rw [(List.mem_replicate.mp h).2]
    rfl

/-- The indented lines spell their tokens, from any level on. -/
theorem spells_indented (level : Nat) (h : ∀ token ∈ tokens, token.Spelled token.spell) :
    Spells tokens (indented level tokens) := by
  fun_induction indented level tokens with
  | case1 => exact .nil
  | case2 level rest ih | case3 level rest ih =>
    have hrest := (List.forall_mem_cons.mp (List.forall_mem_cons.mp h).2)
    exact .own (List.forall_mem_cons.mp h).1 (.own hrest.1 (ih hrest.2))
  | case4 level rest _ ih | case5 level rest _ ih =>
    obtain ⟨htoken, hrest⟩ := List.forall_mem_cons.mp h
    exact .own htoken ((ih hrest).blanks fun _ => isBlank_of_mem_newline)
  | case6 level rest ih | case7 level rest ih =>
    obtain ⟨htoken, hrest⟩ := List.forall_mem_cons.mp h
    exact (Spells.own htoken (ih hrest)).blanks fun _ => isBlank_of_mem_newline
  | case8 level rest ih =>
    obtain ⟨htoken, hrest⟩ := List.forall_mem_cons.mp h
    exact .own htoken ((ih hrest).blanks fun _ => isBlank_of_mem_newline)
  | case9 level rest ih =>
    obtain ⟨htoken, hrest⟩ := List.forall_mem_cons.mp h
    exact .own htoken (.blank rfl (ih hrest))
  | case10 level token rest _ _ _ _ _ _ _ _ ih =>
    obtain ⟨htoken, hrest⟩ := List.forall_mem_cons.mp h
    exact .own htoken (ih hrest)

/-- Over several lines the tokens are spelled. -/
theorem spells_pretty (h : ∀ token ∈ tokens, token.Spelled token.spell) :
    Spells tokens (pretty tokens).toList := by
  rw [pretty, String.toList_ofList]
  exact spells_indented 0 h

end Json
end Rollover
