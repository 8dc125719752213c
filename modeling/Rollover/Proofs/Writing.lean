import Rollover.Proofs.Grammar
import Rollover.Proofs.Members

/-!
# Writing JSON values

`Written json tokens` says that the tokens are those of the value, each in the spelling that a
layout gives it.  The token of a string is written (`written_string`), and `Token.array` and
`Token.object` keep to what they are made of (`written_array`, `written_object`), so for a writer
that is put together from these three it is enough to look at the parts.

Either layout of a written value stands for the value (`Written.denotes_compact`,
`Written.denotes_pretty`).
-/

namespace Rollover
namespace Json

variable {α : Type} {json : Json} {tokens : List Token} {list : List α} {f : α → List Token}
  {g : α → Json}

/-- The tokens are those of the value, and each is spelled as a layout spells it. -/
structure Written (json : Json) (tokens : List Token) : Prop where
  derives : Derives json tokens
  spelled : ∀ token ∈ tokens, token.Spelled token.spell

/-- A text is written as one token. -/
theorem written_string (text : String) : Written (ofText text) [.ofString text] where
  derives := .string (some text)
  spelled := List.forall_mem_singleton.mpr (spelled_ofString text)

theorem mem_commaSeparated {parts : List (List Token)} {token : Token}
    (h : token ∈ commaSeparated parts) : token = .comma ∨ ∃ part ∈ parts, token ∈ part := by
  fun_induction commaSeparated parts with
  | case1 => cases h
  | case2 part => exact .inr ⟨part, List.mem_singleton_self part, h⟩
  | case3 part parts _ ih =>
    rcases List.mem_append.mp h with h | h
    · exact .inr ⟨part, List.mem_cons_self, h⟩
    · rcases List.mem_cons.mp h with rfl | h
      · exact .inl rfl
      · rcases ih h with rfl | ⟨other, hother, h⟩
        · exact .inl rfl
        · exact .inr ⟨other, List.mem_cons_of_mem _ hother, h⟩

/-- Brackets and commas are marks, so what stands between them is all there is to check. -/
theorem spelled_enclosed {first last : Token} {parts : List (List Token)}
    (hfirst : first.isFixed = true) (hlast : last.isFixed = true)
    (h : ∀ part ∈ parts, ∀ token ∈ part, token.Spelled token.spell) :
    ∀ token ∈ first :: commaSeparated parts ++ [last], token.Spelled token.spell := by
  simp only [List.mem_append, List.mem_cons, List.not_mem_nil, or_false]
  rintro token ((rfl | htoken) | rfl)
  · exact .fixed hfirst
  · rcases mem_commaSeparated htoken with rfl | ⟨part, hpart, htoken⟩
    · exact .fixed rfl
    · exact h part hpart token htoken
  · exact .fixed hlast

/-- **An array is written if its elements are.** -/
theorem written_array (h : ∀ a ∈ list, Written (g a) (f a)) :
    Written (.array (list.map g)) (Token.array (list.map f)) where
  derives := by
    have hitems := @Derives.array (list.map fun a => (g a, f a))
      (List.forall_mem_map.mpr fun a ha => (h a ha).derives)
    rw [List.map_map, List.map_map] at hitems
    exact hitems
  spelled := spelled_enclosed rfl rfl (List.forall_mem_map.mpr fun a ha => (h a ha).spelled)

/-- **An object is written if the values of its members are.** -/
theorem written_object (key : α → String) (h : ∀ a ∈ list, Written (g a) (f a)) :
    Written (ofMembers (list.map fun a => (key a, g a)))
      (Token.object (list.map fun a => (key a, f a))) where
  derives := by
    have hmembers := @Derives.object (list.map fun a => (some (key a), g a, f a))
      (List.forall_mem_map.mpr fun a ha => (h a ha).derives)
    rw [List.map_map, List.map_map] at hmembers
    rw [ofMembers, Token.object, List.map_map, List.map_map]
    exact hmembers
  spelled := by
    rw [Token.object, List.map_map]
    refine spelled_enclosed rfl rfl (List.forall_mem_map.mpr fun a ha => ?_)
    exact List.forall_mem_cons.mpr ⟨spelled_ofString (key a),
      List.forall_mem_cons.mpr ⟨.fixed rfl, (h a ha).spelled⟩⟩

namespace Written

/-- A value written without blanks. -/
theorem denotes_compact (h : Written json tokens) : Denotes (compact tokens) json :=
  ⟨tokens, spells_compact h.spelled, h.derives⟩

/-- A value written over several lines. -/
theorem denotes_pretty (h : Written json tokens) : Denotes (pretty tokens) json :=
  ⟨tokens, spells_pretty h.spelled, h.derives⟩

end Written

end Json
end Rollover
