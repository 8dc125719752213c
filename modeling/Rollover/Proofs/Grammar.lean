import Rollover.Json.Reader
import Rollover.Proofs.Scanning

/-!
# The grammar of JSON

A text stands for a value if it consists of the tokens of the value, with blanks in between:
`Spells` says the first, `Derives` the second, and `Denotes` puts them together.  This is the
grammar of JSON, and it says nothing about how a text is read.

Reading comes to the same thing: a text is read as a value exactly if it stands for it
(`parse?_eq_some_iff`).  Both directions go through the tokens.

* The reader counts its steps, and takes at most two for each token.  `Reads` carries that bound
  along: a value of `n` tokens is read in `2 * n` steps, and a list of elements in one more, which
  the bracket before it pays for (`Derives.reads`).
* Whatever the reader takes off the tokens is derived from the value it makes of them
  (`derive`).
-/

namespace Rollover
namespace Json

variable {json : Json} {tokens rest : List Token} {fuel : Nat}

/-! ## Values and their tokens -/

/-- The tokens of a member. -/
def memberTokens (key : Text) (tokens : List Token) : List Token :=
  .string key :: .colon :: tokens

/-- The tokens that a value consists of. -/
inductive Derives : Json → List Token → Prop
  | null : Derives .null [.null]
  | bool (value : Bool) : Derives (.bool value) [.ofBool value]
  | number (spelling : List Char) : Derives (.number spelling) [.number spelling]
  | string (text : Text) : Derives (.string text) [.string text]
  | array {list : List (Json × List Token)} (h : ∀ item ∈ list, Derives item.1 item.2) :
    Derives (.array (list.map Prod.fst))
      (.leftBracket :: commaSeparated (list.map Prod.snd) ++ [.rightBracket])
  | object {list : List (Text × Json × List Token)}
      (h : ∀ member ∈ list, Derives member.2.1 member.2.2) :
    Derives (.object (list.map fun member => (member.1, member.2.1)))
      (.leftBrace :: commaSeparated (list.map fun member => memberTokens member.1 member.2.2) ++
        [.rightBrace])

/-- The text stands for the value. -/
def Denotes (text : String) (json : Json) : Prop :=
  ∃ tokens, Spells tokens text.toList ∧ Derives json tokens

/-! ## Numbers end -/

theorem Separated.cons {token : Token} (h : Separated tokens)
    (hnumber : ∀ spelling, token ≠ .number spelling) : Separated (token :: tokens) :=
  List.isChain_cons.mpr ⟨fun _ _ spelling heq => absurd heq (hnumber spelling), h⟩

theorem Separated.append {closer : Token} (h : Separated tokens) (hcloser : closer.isCloser = true)
    (hrest : Separated (closer :: rest)) : Separated (tokens ++ closer :: rest) := by
  refine List.isChain_append.mpr ⟨h, hrest, fun last _ next hnext spelling _ => ?_⟩
  obtain rfl := Option.some.inj hnext
  exact hcloser

theorem separated_commaSeparated {parts : List (List Token)} (closer : Token)
    (hcloser : closer.isCloser = true) (h : ∀ part ∈ parts, Separated part) :
    Separated (commaSeparated parts ++ [closer]) := by
  fun_induction commaSeparated parts with
  | case1 => exact .singleton closer
  | case2 part => exact (h part List.mem_cons_self).append hcloser (.singleton closer)
  | case3 part parts _ ih =>
    have hparts := ih fun other hother => h other (List.mem_cons_of_mem part hother)
    rw [List.append_assoc]
    exact (h part List.mem_cons_self).append rfl (hparts.cons fun _ => Token.noConfusion)

theorem separated_memberTokens (key : Text) (h : Separated tokens) :
    Separated (memberTokens key tokens) := by
  have hcolon : Separated (.colon :: tokens) := h.cons fun _ => Token.noConfusion
  exact hcolon.cons fun _ => Token.noConfusion

/-- After a number that is part of a value comes a token that ends it. -/
theorem Derives.separated (h : Derives json tokens) : Separated tokens := by
  induction h with
  | null | bool | number | string => exact .singleton _
  | array h ih =>
    exact (separated_commaSeparated .rightBracket rfl (List.forall_mem_map.mpr ih)).cons
      fun _ => Token.noConfusion
  | object h ih =>
    have hmembers := List.forall_mem_map.mpr fun member hmember =>
      separated_memberTokens member.1 (ih member hmember)
    exact (separated_commaSeparated .rightBrace rfl hmembers).cons fun _ => Token.noConfusion

/-! ## What is derived is read -/

/-- The tokens are taken for the value, whatever follows. -/
def Reads (json : Json) (tokens : List Token) : Prop :=
  ∀ fuel, 2 * tokens.length ≤ fuel → ∀ rest,
    readValue fuel (tokens ++ rest) = some (json, rest)

/-- The elements of an array are read in order, up to the closing bracket. -/
theorem readItems_commaSeparated {item : Json × List Token} {list : List (Json × List Token)}
    (h : ∀ other ∈ item :: list, Reads other.1 other.2)
    (hfuel : 2 * (commaSeparated ((item :: list).map Prod.snd)).length + 1 ≤ fuel)
    (rest : List Token) :
    readItems fuel (commaSeparated ((item :: list).map Prod.snd) ++ .rightBracket :: rest) =
      some ((item :: list).map Prod.fst, rest) := by
  obtain ⟨fuel, rfl⟩ := Nat.exists_eq_add_of_le' (Nat.one_le_of_lt hfuel)
  have hitem := h item List.mem_cons_self fuel
  induction list generalizing item fuel with
  | nil =>
    show readItems (fuel + 1) (item.2 ++ .rightBracket :: rest) = _
    rw [readItems, hitem (Nat.le_of_succ_le_succ hfuel)]
    rfl
  | cons other list ih =>
    have hlist := fun third hthird => h third (List.mem_cons_of_mem item hthird)
    have hlength : (commaSeparated ((item :: other :: list).map Prod.snd)).length =
        item.2.length + ((commaSeparated ((other :: list).map Prod.snd)).length + 1) :=
      List.length_append
    rw [hlength] at hfuel
    obtain ⟨fuel, rfl⟩ : ∃ left, fuel = left + 1 := ⟨fuel - 1, by omega⟩
    show readItems (fuel + 1 + 1) ((item.2 ++
      .comma :: commaSeparated ((other :: list).map Prod.snd)) ++ .rightBracket :: rest) = _
    rw [readItems, List.append_assoc, hitem (by omega)]
    show (readItems (fuel + 1)
      (commaSeparated ((other :: list).map Prod.snd) ++ .rightBracket :: rest)).map _ = _
    rw [ih hlist fuel (by omega) (hlist other List.mem_cons_self fuel)]
    rfl

/-- No element starts with a closing bracket, so elements are never taken for an empty array. -/
theorem readItems_rightBracket (fuel : Nat) (rest : List Token) :
    readItems fuel (.rightBracket :: rest) = none := by
  cases fuel with
  | zero => rfl
  | succ fuel => cases fuel <;> rfl

theorem readValue_leftBracket (h : ∀ left, rest ≠ .rightBracket :: left) :
    readValue (fuel + 1) (.leftBracket :: rest) =
      (readItems fuel rest).map fun read => (.array read.1, read.2) := by
  rw [readValue]
  exact h

theorem reads_array {list : List (Json × List Token)} (h : ∀ item ∈ list, Reads item.1 item.2) :
    Reads (.array (list.map Prod.fst))
      (.leftBracket :: commaSeparated (list.map Prod.snd) ++ [.rightBracket]) := by
  intro fuel hfuel rest
  rw [List.length_append, List.length_cons, List.length_singleton] at hfuel
  obtain ⟨fuel, rfl⟩ : ∃ left, fuel = left + 1 := ⟨fuel - 1, by omega⟩
  rw [List.append_assoc, List.singleton_append, List.cons_append]
  cases list with
  | nil => rfl
  | cons item list =>
    have hitems : readItems fuel
        (commaSeparated ((item :: list).map Prod.snd) ++ .rightBracket :: rest) = _ :=
      readItems_commaSeparated h (by omega) rest
    rw [readValue_leftBracket, hitems]
    · rfl
    · intro left heq
      rw [heq, readItems_rightBracket] at hitems
      cases hitems

/-- The members of an object are read in order, up to the closing brace. -/
theorem readMembers_commaSeparated {member : Text × Json × List Token}
    {list : List (Text × Json × List Token)}
    (h : ∀ other ∈ member :: list, Reads other.2.1 other.2.2)
    (hfuel : 2 * (commaSeparated ((member :: list).map fun member =>
      memberTokens member.1 member.2.2)).length + 1 ≤ fuel) (rest : List Token) :
    readMembers fuel (commaSeparated ((member :: list).map fun member =>
        memberTokens member.1 member.2.2) ++ .rightBrace :: rest) =
      some ((member :: list).map fun member => (member.1, member.2.1), rest) := by
  obtain ⟨fuel, rfl⟩ := Nat.exists_eq_add_of_le' (Nat.one_le_of_lt hfuel)
  have hvalue := h member List.mem_cons_self fuel
  induction list generalizing member fuel with
  | nil =>
    have hlength : (commaSeparated ([member].map fun member =>
        memberTokens member.1 member.2.2)).length = member.2.2.length + 2 := rfl
    show readMembers (fuel + 1)
      (.string member.1 :: .colon :: (member.2.2 ++ .rightBrace :: rest)) = _
    rw [readMembers, hvalue (by omega)]
    rfl
  | cons other list ih =>
    have hlist := fun third hthird => h third (List.mem_cons_of_mem member hthird)
    have hlength : (commaSeparated ((member :: other :: list).map fun member =>
          memberTokens member.1 member.2.2)).length =
        member.2.2.length + 2 + ((commaSeparated ((other :: list).map fun member =>
          memberTokens member.1 member.2.2)).length + 1) :=
      List.length_append
    rw [hlength] at hfuel
    obtain ⟨fuel, rfl⟩ : ∃ left, fuel = left + 1 := ⟨fuel - 1, by omega⟩
    show readMembers (fuel + 1 + 1) (.string member.1 :: .colon :: ((member.2.2 ++
      .comma :: commaSeparated ((other :: list).map fun member =>
        memberTokens member.1 member.2.2)) ++ .rightBrace :: rest)) = _
    rw [readMembers, List.append_assoc, hvalue (by omega)]
    show (readMembers (fuel + 1) (commaSeparated ((other :: list).map fun member =>
      memberTokens member.1 member.2.2) ++ .rightBrace :: rest)).map _ = _
    rw [ih hlist fuel (by omega) (hlist other List.mem_cons_self fuel)]
    rfl

/-- No member starts with a closing brace. -/
theorem readMembers_rightBrace (fuel : Nat) (rest : List Token) :
    readMembers fuel (.rightBrace :: rest) = none := by
  cases fuel <;> rfl

theorem readValue_leftBrace (h : ∀ left, rest ≠ .rightBrace :: left) :
    readValue (fuel + 1) (.leftBrace :: rest) =
      (readMembers fuel rest).map fun read => (.object read.1, read.2) := by
  rw [readValue]
  exact h

theorem reads_object {list : List (Text × Json × List Token)}
    (h : ∀ member ∈ list, Reads member.2.1 member.2.2) :
    Reads (.object (list.map fun member => (member.1, member.2.1)))
      (.leftBrace :: commaSeparated (list.map fun member => memberTokens member.1 member.2.2) ++
        [.rightBrace]) := by
  intro fuel hfuel rest
  rw [List.length_append, List.length_cons, List.length_singleton] at hfuel
  obtain ⟨fuel, rfl⟩ : ∃ left, fuel = left + 1 := ⟨fuel - 1, by omega⟩
  rw [List.append_assoc, List.singleton_append, List.cons_append]
  cases list with
  | nil => rfl
  | cons member list =>
    have hmembers : readMembers fuel (commaSeparated ((member :: list).map fun member =>
        memberTokens member.1 member.2.2) ++ .rightBrace :: rest) = _ :=
      readMembers_commaSeparated h (by omega) rest
    rw [readValue_leftBrace, hmembers]
    · rfl
    · intro left heq
      rw [heq, readMembers_rightBrace] at hmembers
      cases hmembers

/-- **The tokens of a value are taken for it.** -/
theorem Derives.reads (h : Derives json tokens) : Reads json tokens := by
  have hsingle : ∀ {value : Json} {token : Token},
      (∀ fuel rest, readValue (fuel + 1) (token :: rest) = some (value, rest)) →
        Reads value [token] := by
    intro value token hread fuel hfuel rest
    obtain ⟨fuel, rfl⟩ := Nat.exists_eq_add_of_le' (Nat.one_le_of_lt hfuel)
    exact hread fuel rest
  induction h with
  | null => exact hsingle fun _ _ => rfl
  | bool value => cases value <;> exact hsingle fun _ _ => rfl
  | number spelling => exact hsingle fun _ _ => rfl
  | string text => exact hsingle fun _ _ => rfl
  | array h ih => exact reads_array ih
  | object h ih => exact reads_object ih

/-! ## What is read is derived -/

theorem commaSeparated_cons_append {part : List Token} {parts : List (List Token)}
    (hne : parts ≠ []) (rest : List Token) : commaSeparated (part :: parts) ++ rest =
      part ++ .comma :: (commaSeparated parts ++ rest) := by
  obtain ⟨other, parts, rfl⟩ := List.exists_cons_of_ne_nil hne
  exact List.append_assoc part _ rest

/-- What is taken off the tokens for a value is derived from it. -/
def ValuesDerive (fuel : Nat) : Prop :=
  ∀ tokens json rest, readValue fuel tokens = some (json, rest) →
    ∃ front, tokens = front ++ rest ∧ Derives json front

/-- What is taken off the tokens for elements is derived from them. -/
def ItemsDerive (fuel : Nat) : Prop :=
  ∀ tokens items rest, readItems fuel tokens = some (items, rest) →
    ∃ list : List (Json × List Token), list ≠ [] ∧ items = list.map Prod.fst ∧
      tokens = commaSeparated (list.map Prod.snd) ++ .rightBracket :: rest ∧
      ∀ item ∈ list, Derives item.1 item.2

/-- What is taken off the tokens for members is derived from them. -/
def MembersDerive (fuel : Nat) : Prop :=
  ∀ tokens members rest, readMembers fuel tokens = some (members, rest) →
    ∃ list : List (Text × Json × List Token), list ≠ [] ∧
      members = list.map (fun member => (member.1, member.2.1)) ∧
      tokens = commaSeparated (list.map fun member => memberTokens member.1 member.2.2) ++
        .rightBrace :: rest ∧
      ∀ member ∈ list, Derives member.2.1 member.2.2

theorem ValuesDerive.succ (hitems : ItemsDerive fuel) (hmembers : MembersDerive fuel) :
    ValuesDerive (fuel + 1) := by
  intro tokens json rest h
  rw [readValue.eq_def] at h
  simp only at h
  split at h
  · obtain ⟨rfl, rfl⟩ := Prod.mk.inj (Option.some.inj h)
    exact ⟨[.null], rfl, .null⟩
  · obtain ⟨rfl, rfl⟩ := Prod.mk.inj (Option.some.inj h)
    exact ⟨[.true], rfl, .bool true⟩
  · obtain ⟨rfl, rfl⟩ := Prod.mk.inj (Option.some.inj h)
    exact ⟨[.false], rfl, .bool false⟩
  · obtain ⟨rfl, rfl⟩ := Prod.mk.inj (Option.some.inj h)
    exact ⟨[.number _], rfl, .number _⟩
  · obtain ⟨rfl, rfl⟩ := Prod.mk.inj (Option.some.inj h)
    exact ⟨[.string _], rfl, .string _⟩
  · obtain ⟨rfl, rfl⟩ := Prod.mk.inj (Option.some.inj h)
    exact ⟨[.leftBracket, .rightBracket], rfl, @Derives.array [] nofun⟩
  · obtain ⟨⟨items, left⟩, hread, heq⟩ := Option.map_eq_some_iff.mp h
    obtain ⟨rfl, rfl⟩ := Prod.mk.inj heq
    obtain ⟨list, -, rfl, rfl, hderives⟩ := hitems _ _ _ hread
    refine ⟨_, ?_, .array hderives⟩
    rw [List.append_assoc, List.cons_append, List.singleton_append]
  · obtain ⟨rfl, rfl⟩ := Prod.mk.inj (Option.some.inj h)
    exact ⟨[.leftBrace, .rightBrace], rfl, @Derives.object [] nofun⟩
  · obtain ⟨⟨members, left⟩, hread, heq⟩ := Option.map_eq_some_iff.mp h
    obtain ⟨rfl, rfl⟩ := Prod.mk.inj heq
    obtain ⟨list, -, rfl, rfl, hderives⟩ := hmembers _ _ _ hread
    refine ⟨_, ?_, .object hderives⟩
    rw [List.append_assoc, List.cons_append, List.singleton_append]
  · cases h

theorem ItemsDerive.succ (hvalue : ValuesDerive fuel) (hitems : ItemsDerive fuel) :
    ItemsDerive (fuel + 1) := by
  intro tokens items rest h
  rw [readItems] at h
  split at h
  · next item left hread =>
    obtain ⟨rfl, rfl⟩ := Prod.mk.inj (Option.some.inj h)
    obtain ⟨front, rfl, hderives⟩ := hvalue _ _ _ hread
    exact ⟨[(item, front)], List.cons_ne_nil _ _, rfl, rfl, List.forall_mem_singleton.mpr hderives⟩
  · next item left hread =>
    obtain ⟨⟨items, after⟩, hmore, heq⟩ := Option.map_eq_some_iff.mp h
    obtain ⟨rfl, rfl⟩ := Prod.mk.inj heq
    obtain ⟨front, rfl, hderives⟩ := hvalue _ _ _ hread
    obtain ⟨list, hne, rfl, rfl, hlist⟩ := hitems _ _ _ hmore
    refine ⟨(item, front) :: list, List.cons_ne_nil _ _, rfl, ?_,
      List.forall_mem_cons.mpr ⟨hderives, hlist⟩⟩
    rw [List.map_cons, commaSeparated_cons_append (mt List.map_eq_nil_iff.mp hne)]
  · cases h

theorem MembersDerive.succ (hvalue : ValuesDerive fuel) (hmembers : MembersDerive fuel) :
    MembersDerive (fuel + 1) := by
  intro tokens members rest h
  rw [readMembers.eq_def] at h
  simp only at h
  split at h
  · next key tokens =>
    split at h
    · next value left hread =>
      obtain ⟨rfl, rfl⟩ := Prod.mk.inj (Option.some.inj h)
      obtain ⟨front, rfl, hderives⟩ := hvalue _ _ _ hread
      exact ⟨[(key, value, front)], List.cons_ne_nil _ _, rfl, rfl,
        List.forall_mem_singleton.mpr hderives⟩
    · next value left hread =>
      obtain ⟨⟨members, after⟩, hmore, heq⟩ := Option.map_eq_some_iff.mp h
      obtain ⟨rfl, rfl⟩ := Prod.mk.inj heq
      obtain ⟨front, rfl, hderives⟩ := hvalue _ _ _ hread
      obtain ⟨list, hne, rfl, rfl, hlist⟩ := hmembers _ _ _ hmore
      refine ⟨(key, value, front) :: list, List.cons_ne_nil _ _, rfl, ?_,
        List.forall_mem_cons.mpr ⟨hderives, hlist⟩⟩
      rw [List.map_cons, commaSeparated_cons_append (mt List.map_eq_nil_iff.mp hne)]
      rfl
    · cases h
  · cases h

/-- **What is taken off the tokens is derived from what it is taken for.**  The three functions call
each other with one step less, so the three statements carry each other from one number of steps to
the next. -/
theorem derive (fuel : Nat) : ValuesDerive fuel ∧ ItemsDerive fuel ∧ MembersDerive fuel := by
  induction fuel with
  | zero => exact ⟨nofun, nofun, nofun⟩
  | succ fuel ih =>
    obtain ⟨hvalue, hitems, hmembers⟩ := ih
    exact ⟨.succ hitems hmembers, .succ hvalue hitems, .succ hvalue hmembers⟩

/-- **A text is read as a value exactly if it stands for it.** -/
theorem parse?_eq_some_iff {text : String} : parse? text = some json ↔ Denotes text json := by
  rw [parse?, Option.bind_eq_some_iff]
  constructor
  · rintro ⟨tokens, htokens, hread⟩
    refine ⟨tokens, spells_of_tokens? htokens, ?_⟩
    rw [ofTokens?] at hread
    split at hread
    · next value hvalue =>
      obtain rfl := Option.some.inj hread
      obtain ⟨front, hfront, hderives⟩ := (derive _).1 _ _ _ hvalue
      rw [List.append_nil] at hfront
      exact hfront ▸ hderives
    · cases hread
  · rintro ⟨tokens, hspells, hderives⟩
    refine ⟨tokens, hspells.tokens?_eq hderives.separated, ?_⟩
    have hread := hderives.reads _ (Nat.le_succ _) []
    rw [List.append_nil] at hread
    rw [ofTokens?, hread]

end Json
end Rollover
