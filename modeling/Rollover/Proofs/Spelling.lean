import Rollover.Proofs.Numbers

/-!
# The spelling of tokens

`Token.Spelled` says how tokens may be written: marks and words in one way each, numbers as
`IsNumber` has it, and strings in many ways, for every character may be escaped.  The scanner takes
off a text what is the spelling of a token, and nothing else (`scanToken_append`,
`exists_spelled_of_scanToken`).

## Strings

The scanner tells three kinds of spelling apart within a string: a plain character, an escape of one
letter, and an escape of four hexadecimal digits.  `Piece.Spelled` lists them, and each of them is
taken off the text as a whole (`Piece.Spelled.scanPieces_append`).  What is written for a character
is of one of these kinds, and the piece it is read as stands for that character alone
(`exists_spelled_escape`): no half of a surrogate pair is ever written, so no two pieces are joined.
-/

namespace Rollover
namespace Json

variable {c : Char} {cs left : List Char} {piece : Piece} {pieces : List Piece} {token : Token}

/-! ## Pieces of a string -/

/-- A piece of a string and the characters it may be written with. -/
inductive Piece.Spelled : Piece → List Char → Prop
  | plain {c : Char} (hquote : c ≠ '"') (hslash : c ≠ '\\') (hcontrol : ¬c.toNat < 0x20) :
    Spelled (.char c) [c]
  | letter {e c : Char} (h : shortEscape? e = some c) : Spelled (.char c) ['\\', e]
  | digits {h₁ h₂ h₃ h₄ : Char} {code : Nat} (h : hexCode? h₁ h₂ h₃ h₄ = some code) :
    Spelled (.code code) ['\\', 'u', h₁, h₂, h₃, h₄]

/-- **A spelled piece is taken off the text.** -/
theorem Piece.Spelled.scanPieces_append (h : piece.Spelled cs) (rest : List Char) :
    scanPieces (cs ++ rest) =
      (scanPieces rest).map fun scanned => (piece :: scanned.1, scanned.2) := by
  have hslash : '\\' ≠ '"' := by decide
  cases h with
  | plain hquote hslash hcontrol =>
    rw [List.singleton_append, scanPieces.eq_def]
    simp only [if_neg hquote, if_neg hslash, if_neg hcontrol]
    cases scanPieces rest <;> rfl
  | @letter e c h =>
    -- `u` is not among the letters, it starts the other kind of escape
    have hu : e ≠ 'u' := by
      rintro rfl
      rw [show shortEscape? 'u' = none from by decide] at h
      cases h
    rw [scanPieces.eq_def]
    simp only [List.cons_append, List.nil_append, if_neg hslash, ↓reduceIte, if_neg hu, h]
    cases scanPieces rest <;> rfl
  | digits h =>
    rw [scanPieces.eq_def]
    simp only [List.cons_append, List.nil_append, if_neg hslash, ↓reduceIte, h]
    cases scanPieces rest <;> rfl

theorem scanPieces_quote (rest : List Char) : scanPieces ('"' :: rest) = some ([], rest) := by
  rw [scanPieces.eq_def]
  rfl

/-- A code below the surrogates stands for its character alone. -/
theorem Piece.join_code {code : Nat} (h : code < 0xd800) (pieces : List Piece) :
    join (.code code :: pieces) = (join pieces).map (Char.ofNat code :: ·) := by
  have hleading : isLeading code = false := by
    simp [isLeading]
    omega
  have htrailing : isTrailing code = false := by
    simp [isTrailing]
    omega
  rw [join.eq_def]
  simp only [hleading, htrailing, Bool.false_eq_true, ↓reduceIte]

theorem hexValue?_hexDigit : ∀ n < 16, hexValue? (hexDigit n) = some n := by
  decide

/-- The code of a control character is read from the digits it is written with. -/
theorem hexCode?_control (h : c.toNat < 0x20) :
    hexCode? '0' '0' (hexDigit (c.toNat / 16)) (hexDigit (c.toNat % 16)) = some c.toNat := by
  have hzero : hexValue? '0' = some 0 := by decide
  have hvalue : ((0 * 16 + 0) * 16 + c.toNat / 16) * 16 + c.toNat % 16 = c.toNat := by omega
  rw [hexCode?, hzero, hexValue?_hexDigit _ (by omega), hexValue?_hexDigit _ (by omega)]
  exact congrArg some hvalue

/-- **What is written for a character spells one piece, which stands for the character alone.** -/
theorem exists_spelled_escape (c : Char) : ∃ piece : Piece, piece.Spelled (escape c) ∧
    ∀ pieces, Piece.join (piece :: pieces) = (Piece.join pieces).map (c :: ·) := by
  have hletter : ∀ {e c : Char}, shortEscape? e = some c → ∃ piece : Piece,
      piece.Spelled ['\\', e] ∧
        ∀ pieces, Piece.join (piece :: pieces) = (Piece.join pieces).map (c :: ·) :=
    fun h => ⟨_, .letter h, fun _ => rfl⟩
  fun_cases escape c with
  | case1 | case2 | case3 | case4 | case5 | case6 | case7 =>
    subst c
    exact hletter (by decide)
  | case8 _ _ _ _ _ _ _ hcontrol =>
    refine ⟨_, .digits (hexCode?_control hcontrol), fun pieces => ?_⟩
    rw [Piece.join_code (by omega), Char.ofNat_toNat]
  | case9 hquote hslash _ _ _ _ _ hcontrol =>
    exact ⟨_, .plain hquote hslash hcontrol, fun _ => rfl⟩

/-! ## Strings -/

/-- The body of a string, up to the closing quote. -/
inductive Body : List Piece → List Char → Prop
  | nil : Body [] []
  | cons {piece : Piece} {pieces : List Piece} {spelling cs : List Char}
      (hpiece : piece.Spelled spelling) (h : Body pieces cs) :
    Body (piece :: pieces) (spelling ++ cs)

/-- **The pieces of a string are found.** -/
theorem Body.scanPieces_eq (h : Body pieces cs) (left : List Char) :
    scanPieces (cs ++ '"' :: left) = some (pieces, left) := by
  induction h with
  | nil => exact scanPieces_quote left
  | cons hpiece h ih =>
    rw [List.append_assoc, hpiece.scanPieces_append, ih]
    rfl

/-- **What is found are the pieces of a string.** -/
theorem exists_body_of_scanPieces (h : scanPieces cs = some (pieces, left)) :
    ∃ body, Body pieces body ∧ cs = body ++ '"' :: left := by
  have hcons : ∀ {piece pieces spelling rest}, piece.Spelled spelling →
      (∃ body, Body pieces body ∧ rest = body ++ '"' :: left) →
        ∃ body, Body (piece :: pieces) body ∧ spelling ++ rest = body ++ '"' :: left := by
    rintro piece pieces spelling _ hpiece ⟨body, hbody, rfl⟩
    exact ⟨_, .cons hpiece hbody, (List.append_assoc _ _ _).symm⟩
  fun_induction scanPieces cs generalizing pieces with
  | case2 =>
    obtain ⟨rfl, rfl⟩ := Prod.mk.inj (Option.some.inj h)
    exact ⟨[], .nil, rfl⟩
  | case4 h₁ h₂ h₃ h₄ rest code pieces left hscan hcode _ ih =>
    obtain ⟨rfl, rfl⟩ := Prod.mk.inj (Option.some.inj h)
    exact hcons (.digits hcode) (ih hscan)
  | case7 e rest _ c pieces left hscan hletter _ ih =>
    obtain ⟨rfl, rfl⟩ := Prod.mk.inj (Option.some.inj h)
    exact hcons (.letter hletter) (ih hscan)
  | case10 c rest hquote hslash hcontrol pieces left hscan ih =>
    obtain ⟨rfl, rfl⟩ := Prod.mk.inj (Option.some.inj h)
    exact hcons (.plain hquote hslash hcontrol) (ih hscan)
  | case1 | case3 | case5 | case6 | case8 | case9 | case11 => cases h

/-- A written text is the body of a string, and its pieces stand for the text. -/
theorem exists_body_escape (text : List Char) :
    ∃ pieces, Body pieces (text.flatMap escape) ∧ Piece.join pieces = some text := by
  induction text with
  | nil => exact ⟨[], .nil, rfl⟩
  | cons c text ih =>
    obtain ⟨pieces, hbody, hjoin⟩ := ih
    obtain ⟨piece, hspelled, hpiece⟩ := exists_spelled_escape c
    refine ⟨piece :: pieces, .cons hspelled hbody, ?_⟩
    rw [hpiece, hjoin]
    rfl

/-! ## Tokens -/

/-- Marks and words are written in one way only. -/
def Token.isFixed : Token → Bool
  | .number _ | .string _ => Bool.false
  | _ => Bool.true

/-- How a token may be written. -/
inductive Token.Spelled : Token → List Char → Prop
  | fixed {token : Token} (h : token.isFixed = Bool.true) : Spelled token token.spell
  | number {spelling : List Char} (h : IsNumber spelling) : Spelled (.number spelling) spelling
  | string {pieces : List Piece} {body : List Char} (h : Body pieces body) :
    Spelled (.string ((Piece.join pieces).map String.ofList)) ('"' :: (body ++ ['"']))

/-- A string is written in one of the ways. -/
theorem spelled_ofString (text : String) :
    (Token.ofString text).Spelled (Token.ofString text).spell := by
  obtain ⟨pieces, hbody, hjoin⟩ := exists_body_escape text.toList
  have hspelled := Token.Spelled.string hbody
  rw [hjoin, Option.map_some, String.ofList_toList] at hspelled
  exact hspelled

theorem scanWord_append (token : Token) (left : List Char) :
    scanWord token (token.spell ++ left) = some (token, left) := by
  rw [scanWord, Cut.after?_append, Option.map_some]

/-- A text that starts like a number is taken for one. -/
theorem scanToken_of_digit (h : c.isDigit = true ∨ c = '-') (cs : List Char) :
    scanToken (c :: cs) = scanNumber (c :: cs) := by
  have hne : ∀ mark : Char, mark.isDigit = false → mark ≠ '-' → c ≠ mark := by
    rintro mark hdigit hminus rfl
    rcases h with h | h
    · rw [hdigit] at h
      cases h
    · exact hminus h
  rw [scanToken]
  iterate 10 rw [if_neg (hne _ (by decide) (by decide))]

theorem IsNumber.exists_eq_cons {spelling : List Char} (h : IsNumber spelling) :
    ∃ c cs, spelling = c :: cs ∧ (c.isDigit = true ∨ c = '-') := by
  obtain @⟨sign, whole, fraction, exponent, hsign, hwhole, -, -⟩ := h
  obtain ⟨c, cs, rfl, hc⟩ := hwhole.exists_eq_cons
  rcases hsign with rfl | rfl
  · exact ⟨c, _, rfl, .inl hc⟩
  · exact ⟨'-', _, rfl, .inr rfl⟩

/-- **A spelled token is taken off the text.**  After a number the text must not go on like one. -/
theorem scanToken_append (h : token.Spelled cs)
    (hleft : ∀ spelling, token = .number spelling → Avoids mayGoOn left) :
    scanToken (cs ++ left) = some (token, left) := by
  cases h with
  | fixed h =>
    match token with
    | .leftBrace | .rightBrace | .leftBracket | .rightBracket | .colon | .comma => rfl
    | .null =>
      have hword := scanWord_append .null left
      rw [show Token.null.spell = "null".toList from rfl] at hword ⊢
      exact hword
    | .true =>
      have hword := scanWord_append .true left
      rw [show Token.true.spell = "true".toList from rfl] at hword ⊢
      exact hword
    | .false =>
      have hword := scanWord_append .false left
      rw [show Token.false.spell = "false".toList from rfl] at hword ⊢
      exact hword
    | .number spelling => cases h
    | .string text => cases h
  | number h =>
    obtain ⟨c, rest, rfl, hc⟩ := h.exists_eq_cons
    rw [List.cons_append, scanToken_of_digit hc, ← List.cons_append,
      scanNumber_append h (hleft _ rfl)]
  | string h =>
    show scanString ((_ ++ ['"']) ++ left) = _
    rw [List.append_assoc, List.singleton_append, scanString, h.scanPieces_eq]

/-- **What is taken off the text is a spelled token.** -/
theorem exists_spelled_of_scanToken (h : scanToken cs = some (token, left)) :
    ∃ spelling, token.Spelled spelling ∧ cs = spelling ++ left := by
  have hmark : ∀ (mark : Token) {rest : List Char}, mark.isFixed = Bool.true →
      cs = mark.spell ++ rest → some (mark, rest) = some (token, left) →
        ∃ spelling, token.Spelled spelling ∧ cs = spelling ++ left := by
    rintro mark rest hfixed hcs ⟨⟩
    exact ⟨_, .fixed hfixed, hcs⟩
  have hword : ∀ word : Token, word.isFixed = Bool.true → scanWord word cs = some (token, left) →
      ∃ spelling, token.Spelled spelling ∧ cs = spelling ++ left := by
    intro word hfixed hscan
    obtain ⟨rest, hrest, heq⟩ := Option.map_eq_some_iff.mp hscan
    exact hmark word hfixed (Cut.after?_eq_some_iff.mp hrest) (congrArg some heq)
  revert h
  fun_cases scanToken cs with
  | case1 => exact nofun
  | case2 => exact hmark .leftBrace rfl rfl
  | case3 => exact hmark .rightBrace rfl rfl
  | case4 => exact hmark .leftBracket rfl rfl
  | case5 => exact hmark .rightBracket rfl rfl
  | case6 => exact hmark .colon rfl rfl
  | case7 => exact hmark .comma rfl rfl
  | case8 =>
    intro h
    rw [scanString] at h
    split at h
    · next pieces after hscan =>
      obtain ⟨rfl, rfl⟩ := Prod.mk.inj (Option.some.inj h)
      obtain ⟨body, hbody, rfl⟩ := exists_body_of_scanPieces hscan
      refine ⟨_, .string hbody, ?_⟩
      rw [List.cons_append, List.append_assoc, List.singleton_append]
    · cases h
  | case9 => exact hword .null rfl
  | case10 => exact hword .true rfl
  | case11 => exact hword .false rfl
  | case12 =>
    intro h
    obtain ⟨spelling, hnumber, rfl, hsplit⟩ := exists_isNumber_of_scanNumber h
    exact ⟨spelling, .number hnumber, hsplit⟩

end Json
end Rollover
