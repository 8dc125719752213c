import Mathlib.Data.List.Forall2
import Rollover.Json.Reader

/-!
# Looking at JSON values

Readers look at a value through four questions: is it a string, an array, an object, and what stands
under a name in an object.  Each lemma here turns one answer into what the value is.

The strictest answer is the one about names.  `field` finds a value if exactly one member has the
name (`field_eq_found_iff`), wherever it stands and whatever the other members are; it tells this
from no such member (`field_eq_missing_iff`) and from several.
-/

namespace Rollover
namespace Json

variable {α β : Type} {json value : Json} {key : String} {members : List (String × Json)}

/-! ## Lists -/

/-- A list is read if each of its elements is. -/
theorem mapM_eq_some_iff {read : α → Option β} {list : List α} {result : List β} :
    list.mapM read = some result ↔ List.Forall₂ (fun a b => read a = some b) list result := by
  induction list generalizing result with
  | nil =>
    rw [List.mapM_nil, List.forall₂_nil_left_iff]
    exact ⟨fun h => (Option.some.inj h).symm, fun h => congrArg some h.symm⟩
  | cons a list ih =>
    simp only [List.mapM_cons, Option.bind_eq_bind, Option.bind_eq_some_iff, Option.pure_def,
      Option.some.injEq, ih, List.forall₂_cons_left_iff]
    constructor
    · rintro ⟨b, hb, rest, hrest, rfl⟩
      exact ⟨b, rest, hb, hrest, rfl⟩
    · rintro ⟨b, rest, hb, hrest, rfl⟩
      exact ⟨b, hb, rest, hrest, rfl⟩

/-- If each element can be read in one form only, so can the list. -/
theorem mapM_eq_some_iff_eq_map {read : α → Option β} (form : β → α)
    (h : ∀ a b, read a = some b ↔ a = form b) {list : List α} {result : List β} :
    list.mapM read = some result ↔ list = result.map form := by
  simp only [mapM_eq_some_iff, h]
  rw [← List.forall₂_map_right_iff (R := (· = ·)), List.forall₂_eq_eq_eq]

/-! ## Values -/

/-- The string of a text. -/
def ofText (text : String) : Json :=
  .string (some text)

/-- The object with these members. -/
def ofMembers (members : List (String × Json)) : Json :=
  .object (members.map fun member => (some member.1, member.2))

theorem text?_eq_some_iff {text : String} : json.text? = some text ↔ json = ofText text := by
  cases json <;> simp [text?, ofText]

theorem items?_eq_some_iff {items : List Json} :
    json.items? = some items ↔ json = .array items := by
  cases json <;> simp [items?]

theorem members?_eq_some_iff : json.members? = some members ↔ json = ofMembers members := by
  cases json with
  | object given =>
    rw [members?, ofMembers, Json.object.injEq]
    refine mapM_eq_some_iff_eq_map (fun member : String × Json => (some member.1, member.2)) ?_
    rintro ⟨key, value⟩ ⟨key', value'⟩
    cases key <;> simp
  | _ => simp [members?, ofMembers]

theorem members?_ofMembers (members : List (String × Json)) :
    (ofMembers members).members? = some members :=
  members?_eq_some_iff.mpr rfl

/-! ## Members -/

/-- The members have the name exactly once, and there it has the value. -/
def Once (members : List (String × Json)) (key : String) (value : Json) : Prop :=
  ∃ front back, members = front ++ (key, value) :: back ∧
    ∀ member ∈ front ++ back, member.1 ≠ key

theorem Once.filter_eq (h : Once members key value) :
    (members.filter fun member => member.1 == key) = [(key, value)] := by
  obtain ⟨front, back, rfl, hother⟩ := h
  have hnone : ∀ others ⊆ front ++ back, (others.filter fun member => member.1 == key) = [] :=
    fun others hsub => List.filter_eq_nil_iff.mpr fun member hmember heq =>
      hother member (hsub hmember) (beq_iff_eq.mp heq)
  rw [List.filter_append, hnone front (List.subset_append_left front back), List.nil_append,
    List.filter_cons, hnone back (List.subset_append_right front back), if_pos]
  exact beq_self_eq_true key

theorem once_of_filter_eq {member : String × Json}
    (h : (members.filter fun member => member.1 == key) = [member]) :
    Once members key member.2 := by
  obtain ⟨front, back, rfl, hfront, hkey, hback⟩ := List.filter_eq_cons_iff.mp h
  refine ⟨front, back, by rw [← beq_iff_eq.mp hkey], fun other hother heq => ?_⟩
  rcases List.mem_append.mp hother with hother | hother
  · exact hfront other hother (beq_iff_eq.mpr heq)
  · exact List.filter_eq_nil_iff.mp hback other hother (beq_iff_eq.mpr heq)

/-- **What is found is the value of the only member of that name.** -/
theorem field_eq_found_iff : field key members = .found value ↔ Once members key value := by
  rw [field]
  constructor
  · intro h
    split at h
    · cases h
    · next member hmember =>
      rw [← Field.found.inj h]
      exact once_of_filter_eq hmember
    · cases h
  · intro h
    rw [h.filter_eq]

theorem field_eq_missing_iff :
    field key members = .missing ↔ ∀ member ∈ members, member.1 ≠ key := by
  have hnil : (∀ member ∈ members, member.1 ≠ key) ↔
      (members.filter fun member => member.1 == key) = [] := by
    rw [List.filter_eq_nil_iff]
    exact forall₂_congr fun member _ => not_congr beq_iff_eq.symm
  rw [field, hnil]
  constructor
  · intro h
    split at h
    · assumption
    · cases h
    · cases h
  · intro h
    rw [h]

end Json
end Rollover
