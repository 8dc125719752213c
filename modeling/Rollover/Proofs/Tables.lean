import Mathlib.Data.List.Nodup
import Rollover.GroupTable

/-!
# What a table of groups holds

A table is filled by going through the groups in order and keeping those whose index name is new.
What comes out can be said without the loop: under each index name the table has the first group
with that name in the list that was sifted (`GroupTable.getElem?_sift`).  For a set of groups, whose
list is sorted, this is the least one, so the table depends on the set alone
(`GroupTable.getElem?_ofSet`).

A table that was filled this way is *keyed*: each group stands under its own index name.  Keyed
tables can be read off their groups (`GroupTable.Keyed.ext`), which is why it is enough to compare
sets of groups where tables are meant.
-/

namespace Rollover
namespace GroupTable

variable {a b group : IndexGroup} {groups : GroupSet} {table table' : GroupTable} {key : String}

/-! ## The order of groups -/

theorem inOrder_refl (a : IndexGroup) : inOrder a a = true := by
  rw [inOrder, Std.ReflOrd.compare_self]
  rfl

theorem inOrder_trans (a b c : IndexGroup) (hab : inOrder a b = true) (hbc : inOrder b c = true) :
    inOrder a c = true :=
  Std.TransCmp.isLE_trans hab hbc

theorem inOrder_total (a b : IndexGroup) : (inOrder a b || inOrder b a) = true := by
  rw [Bool.or_eq_true, inOrder, inOrder, Std.OrientedOrd.eq_swap (a := b)]
  cases compare a b with
  | lt | eq => exact Or.inl rfl
  | gt => exact Or.inr rfl

theorem inOrder_antisymm (hab : inOrder a b = true) (hba : inOrder b a = true) : a = b :=
  Std.LawfulEqOrd.eq_of_compare (Std.OrientedCmp.isLE_antisymm hab hba)

/-- Groups are in ascending order by prefix, and those with one prefix by index name. -/
theorem compare_eq_lt_iff : compare a b = .lt ↔ a.globalPrefix < b.globalPrefix ∨
    (a.globalPrefix = b.globalPrefix ∧ a.indexName < b.indexName) := by
  rw [IndexGroup.compare_def, Ordering.then_eq_lt, Std.LawfulEqOrd.compare_eq_iff_eq]
  exact or_congr compareOfLessAndEq_eq_lt (and_congr_right fun _ => compareOfLessAndEq_eq_lt)

/-- The group comes first among those of the set that have its index name. -/
structure IsFirst (groups : GroupSet) (group : IndexGroup) : Prop where
  mem : group ∈ groups
  inOrder : ∀ other ∈ groups, other.indexName = group.indexName → inOrder group other = true

/-- There is one first group for an index name. -/
theorem IsFirst.unique (ha : IsFirst groups a) (hb : IsFirst groups b)
    (hname : a.indexName = b.indexName) : a = b :=
  inOrder_antisymm (ha.inOrder b hb.mem hname.symm) (hb.inOrder a ha.mem hname)

/-! ## Sifting -/

/-- Sifting leaves what the table has, and adds the first group for each other index name. -/
theorem getElem?_sift (table : GroupTable) (list : List IndexGroup) (key : String) :
    (sift table list).1[key]? =
      table[key]?.or (list.find? fun group => group.indexName == key) := by
  induction list generalizing table with
  | nil => rw [sift, List.find?_nil, Option.or_none]
  | cons group list ih =>
    rw [sift, List.find?_cons]
    by_cases hmem : table.contains group.indexName = true
    · rw [if_pos hmem]
      by_cases hkey : group.indexName = key
      · obtain ⟨kept, hkept⟩ : ∃ kept, table[key]? = some kept := by
          rw [← hkey, ← Option.isSome_iff_exists, ← Std.ExtTreeMap.contains_eq_isSome_getElem?,
            hmem]
        rw [ih, hkept, Option.some_or, Option.some_or]
      · rw [ih, beq_false_of_ne hkey]
    · rw [if_neg hmem, ih, Std.ExtTreeMap.getElem?_insert]
      by_cases hkey : group.indexName = key
      · have hnone : table[key]? = none := by
          rw [← Option.not_isSome_iff_eq_none, ← Std.ExtTreeMap.contains_eq_isSome_getElem?, ← hkey]
          exact hmem
        rw [if_pos (Std.LawfulEqOrd.compare_eq_iff_eq.mpr hkey), hnone, beq_iff_eq.mpr hkey,
          Option.some_or, Option.none_or]
      · rw [if_neg (mt Std.LawfulEqOrd.compare_eq_iff_eq.mp hkey), beq_false_of_ne hkey]

/-- In a list that is in order, what is found first is the least of what could be found. -/
theorem find?_eq_some_iff_of_pairwise {list : List IndexGroup} {p : IndexGroup → Bool}
    (hsorted : list.Pairwise fun a b => inOrder a b = true) :
    list.find? p = some group ↔ group ∈ list ∧ p group = true ∧
      ∀ other ∈ list, p other = true → inOrder group other = true := by
  have hleast : ∀ found, list.find? p = some found →
      ∀ other ∈ list, p other = true → inOrder found other = true := by
    intro found hfound other hother hp
    obtain ⟨-, before, after, rfl, hbefore⟩ := List.find?_eq_some_iff_append.mp hfound
    rcases List.mem_append.mp hother with hother | hother
    · have hnot := hbefore other hother
      rw [hp] at hnot
      cases hnot
    · rcases List.mem_cons.mp hother with rfl | hother
      · exact inOrder_refl _
      · exact (List.pairwise_cons.mp (List.pairwise_append.mp hsorted).2.1).1 other hother
  constructor
  · intro hfound
    exact ⟨List.mem_of_find?_eq_some hfound, List.find?_some hfound, hleast group hfound⟩
  · rintro ⟨hmem, hp, hfirst⟩
    obtain ⟨found, hfound⟩ : ∃ found, list.find? p = some found := by
      rw [← Option.isSome_iff_exists, List.find?_isSome]
      exact ⟨group, hmem, hp⟩
    rw [hfound, inOrder_antisymm (hleast found hfound group hmem hp)
      (hfirst found (List.mem_of_find?_eq_some hfound) (List.find?_some hfound))]

/-! ## The table of a set -/

/-- **Under an index name the table of a set has the first group with that name.** -/
theorem getElem?_ofSet :
    (ofSet groups)[key]? = some group ↔ IsFirst groups group ∧ group.indexName = key := by
  have hsorted : (groups.toList.mergeSort inOrder).Pairwise fun a b => inOrder a b = true :=
    List.pairwise_mergeSort inOrder_trans inOrder_total groups.toList
  rw [ofSet, distinct, getElem?_sift, Std.ExtTreeMap.getElem?_empty, Option.none_or,
    find?_eq_some_iff_of_pairwise hsorted]
  simp only [List.mem_mergeSort, Std.ExtTreeSet.mem_toList, beq_iff_eq]
  constructor
  · rintro ⟨hmem, rfl, hfirst⟩
    exact ⟨⟨hmem, hfirst⟩, rfl⟩
  · rintro ⟨hfirst, rfl⟩
    exact ⟨hfirst.mem, rfl, hfirst.inOrder⟩

/-- There is a group under each index name that occurs in the set. -/
theorem exists_isFirst (hmem : group ∈ groups) :
    ∃ first, IsFirst groups first ∧ first.indexName = group.indexName := by
  obtain ⟨first, hfirst⟩ : ∃ first, (ofSet groups)[group.indexName]? = some first := by
    rw [← Option.isSome_iff_exists, ofSet, distinct, getElem?_sift, Std.ExtTreeMap.getElem?_empty,
      Option.none_or, List.find?_isSome]
    exact ⟨group, List.mem_mergeSort.mpr (Std.ExtTreeSet.mem_toList.mpr hmem), beq_self_eq_true _⟩
  exact ⟨first, getElem?_ofSet.mp hfirst⟩

/-! ## Keyed tables -/

/-- Each group stands under its own index name. -/
def Keyed (table : GroupTable) : Prop :=
  ∀ (key : String) (group : IndexGroup), table[key]? = some group → group.indexName = key

theorem keyed_ofSet (groups : GroupSet) : (ofSet groups).Keyed :=
  fun _ _ h => (getElem?_ofSet.mp h).2

theorem keyed_singleton (group : IndexGroup) :
    (Std.ExtTreeMap.ofList [(group.indexName, group)] : GroupTable).Keyed := by
  intro key other h
  rw [Std.ExtTreeMap.ofList_singleton, Std.ExtTreeMap.getElem?_insert] at h
  split at h
  · next heq =>
    rw [← Option.some.inj h]
    exact Std.LawfulEqOrd.compare_eq_iff_eq.mp heq
  · cases h

theorem values_eq_map_toList (table : GroupTable) : table.values = table.toList.map Prod.snd := by
  obtain ⟨tree⟩ := table
  induction tree using Std.ExtDTreeMap.inductionOn with
  | mk tree =>
    show tree.inner.values = (Std.DTreeMap.Internal.Impl.Const.toList tree.inner).map Prod.snd
    rw [Std.DTreeMap.Internal.Impl.values_eq_map_snd,
      Std.DTreeMap.Internal.Impl.Const.toList_eq_toListModel_map, List.map_map]
    rfl

theorem mem_groups : group ∈ table.groups ↔ ∃ key : String, table[key]? = some group := by
  rw [GroupTable.groups, Std.ExtTreeSet.mem_ofList, List.contains_iff_mem, values_eq_map_toList,
    List.mem_map]
  constructor
  · rintro ⟨⟨key, found⟩, hmem, rfl⟩
    exact ⟨key, Std.ExtTreeMap.mem_toList_iff_getElem?_eq_some.mp hmem⟩
  · rintro ⟨key, h⟩
    exact ⟨(key, group), Std.ExtTreeMap.mem_toList_iff_getElem?_eq_some.mpr h, rfl⟩

theorem Keyed.mem_groups (h : table.Keyed) :
    group ∈ table.groups ↔ table[group.indexName]? = some group := by
  rw [GroupTable.mem_groups]
  constructor
  · rintro ⟨key, hkey⟩
    rwa [h key group hkey]
  · exact fun hgroup => ⟨_, hgroup⟩

/-- **Keyed tables with the same groups are one table.** -/
theorem Keyed.ext (h : table.Keyed) (h' : table'.Keyed)
    (hgroups : ∀ group, group ∈ table.groups ↔ group ∈ table'.groups) : table = table' := by
  refine Std.ExtTreeMap.ext_getElem? fun key => Option.ext fun group => ?_
  have hiff := hgroups group
  rw [h.mem_groups, h'.mem_groups] at hiff
  constructor
  · intro hkey
    obtain rfl := h key group hkey
    exact hiff.mp hkey
  · intro hkey
    obtain rfl := h' key group hkey
    exact hiff.mpr hkey

/-- The groups of the table of a set are the first ones. -/
theorem mem_groups_ofSet : group ∈ (ofSet groups).groups ↔ IsFirst groups group := by
  rw [(keyed_ofSet groups).mem_groups, getElem?_ofSet]
  exact and_iff_left rfl

/-- Of groups with different index names none has to give way. -/
theorem mem_groups_ofSet_of_nodup {list : List IndexGroup}
    (h : (list.map IndexGroup.indexName).Nodup) :
    group ∈ (ofSet (Std.ExtTreeSet.ofList list)).groups ↔ group ∈ list := by
  have hmem : ∀ group, group ∈ (Std.ExtTreeSet.ofList list : GroupSet) ↔ group ∈ list := by
    intro group
    rw [Std.ExtTreeSet.mem_ofList, List.contains_iff_mem]
  rw [mem_groups_ofSet]
  constructor
  · exact fun hfirst => (hmem group).mp hfirst.mem
  · intro hgroup
    refine ⟨(hmem group).mpr hgroup, fun other hother hname => ?_⟩
    rw [List.inj_on_of_nodup_map h ((hmem other).mp hother) hgroup hname]
    exact inOrder_refl group

end GroupTable
end Rollover
