import Rollover.Proofs.Tables

/-!
# Telling groups apart

`GroupTable.distinct` makes a table of any list of groups, repetitions included.  `Tables` says what
a reader finds under an index name; this file says what happens to the list as a whole.

1. Nothing is lost.  Going through a list moves each group either to the table or to those that are
   dropped, so the groups of both are the groups of the list, each as often as it was given
   (`GroupTable.sift_perm`).
2. What is kept under an index name is the least group with this name, and whoever is dropped gave
   way to such a group (`GroupTable.Distinguishes`).
3. The order in which the groups were given does not matter, because they are sorted first
   (`GroupTable.distinct_congr`), and whoever was kept is kept again (`GroupTable.distinct_kept`).
-/

namespace Rollover
namespace GroupTable

variable {a b group : IndexGroup} {groups others : List IndexGroup} {table : GroupTable}
  {key : String}

/-! ## Nothing is lost -/

theorem nodup_toList (table : GroupTable) : table.toList.Nodup :=
  Std.ExtTreeMap.distinct_keys_toList.imp fun hne heq =>
    hne (Std.LawfulEqOrd.compare_eq_iff_eq.mpr (congrArg Prod.fst heq))

/-- A group that is put under a new index name is added to those of the table. -/
theorem values_insert_perm (hnew : table[key]? = none) :
    (table.insert key group).values.Perm (group :: table.values) := by
  have hmem : (key, group) ∉ table.toList := by
    rw [Std.ExtTreeMap.mem_toList_iff_getElem?_eq_some, hnew]
    exact Option.some_ne_none group ∘ Eq.symm
  have hlist : (table.insert key group).toList.Perm ((key, group) :: table.toList) := by
    rw [List.perm_ext_iff_of_nodup (nodup_toList _)
      (List.nodup_cons.mpr ⟨hmem, nodup_toList table⟩)]
    rintro ⟨name, other⟩
    rw [List.mem_cons, Std.ExtTreeMap.mem_toList_iff_getElem?_eq_some,
      Std.ExtTreeMap.mem_toList_iff_getElem?_eq_some, Std.ExtTreeMap.getElem?_insert, Prod.mk.injEq]
    by_cases hname : key = name
    · subst hname
      rw [if_pos Std.ReflCmp.compare_self, hnew, Option.some_inj]
      exact ⟨fun h => Or.inl ⟨rfl, h.symm⟩,
        fun h => h.elim (fun h => h.2.symm) fun h => absurd h.symm (Option.some_ne_none other)⟩
    · rw [if_neg (mt Std.LawfulEqOrd.compare_eq_iff_eq.mp hname)]
      exact ⟨Or.inr, fun h => h.elim (fun h => absurd h.1.symm hname) id⟩
  rw [values_eq_map_toList, values_eq_map_toList]
  exact hlist.map Prod.snd

/-- **Sifting loses nothing**: what is kept and what is dropped are what the table had and what was
sifted. -/
theorem sift_perm (table : GroupTable) (list : List IndexGroup) :
    ((sift table list).1.values ++ (sift table list).2).Perm (table.values ++ list) := by
  induction list generalizing table with
  | nil => exact List.Perm.refl _
  | cons group list ih =>
    rw [sift]
    by_cases hmem : table.contains group.indexName = true
    · rw [if_pos hmem]
      calc List.Perm ((sift table list).1.values ++ group :: (sift table list).2)
            (group :: ((sift table list).1.values ++ (sift table list).2)) := List.perm_middle
        List.Perm _ (group :: (table.values ++ list)) := (ih table).cons group
        List.Perm _ (table.values ++ group :: list) := List.perm_middle.symm
    · have hnew : table[group.indexName]? = none := by
        rw [← Option.not_isSome_iff_eq_none, ← Std.ExtTreeMap.contains_eq_isSome_getElem?]
        exact hmem
      rw [if_neg hmem]
      calc List.Perm ((sift (table.insert group.indexName group) list).1.values ++
              (sift (table.insert group.indexName group) list).2)
            ((table.insert group.indexName group).values ++ list) := ih _
        List.Perm _ (group :: table.values ++ list) := (values_insert_perm hnew).append_right list
        List.Perm _ (table.values ++ group :: list) := List.perm_middle.symm

/-- What is dropped stays in the order in which it was given. -/
theorem sift_sublist (table : GroupTable) (list : List IndexGroup) :
    (sift table list).2.Sublist list := by
  induction list generalizing table with
  | nil => exact List.Sublist.refl []
  | cons group list ih =>
    rw [sift]
    split
    · exact (ih table).cons_cons group
    · exact (ih _).cons group

theorem values_empty : (∅ : GroupTable).values = [] := by
  rw [values_eq_map_toList, Std.ExtTreeMap.toList_eq_nil_iff.mpr rfl, List.map_nil]

/-! ## What is kept and what is dropped -/

/-- Whether a group is the same as another or comes before it: the prefixes decide, and where they
are the same, the index names. -/
def NotAbove (a b : IndexGroup) : Prop :=
  a.globalPrefix < b.globalPrefix ∨ (a.globalPrefix = b.globalPrefix ∧ a.indexName ≤ b.indexName)

theorem inOrder_iff : inOrder a b = true ↔ NotAbove a b := by
  rw [inOrder, Ordering.isLE_iff_eq_lt_or_eq_eq, compare_eq_lt_iff,
    Std.LawfulEqOrd.compare_eq_iff_eq, NotAbove]
  constructor
  · rintro ((hfirst | ⟨hfirst, hname⟩) | rfl)
    · exact Or.inl hfirst
    · exact Or.inr ⟨hfirst, Std.le_of_lt hname⟩
    · exact Or.inr ⟨rfl, String.le_refl _⟩
  · rintro (hfirst | ⟨hfirst, hname⟩)
    · exact Or.inl (Or.inl hfirst)
    · rcases Decidable.em (a.indexName < b.indexName) with hlt | hnot
      · exact Or.inl (Or.inr ⟨hfirst, hlt⟩)
      · have heq : a.indexName = b.indexName := String.le_antisymm hname (String.not_lt.mp hnot)
        exact Or.inr (congrArg₂ IndexGroup.mk hfirst heq)

/-- Between groups with one index name the prefixes decide. -/
theorem notAbove_iff_of_indexName (hname : a.indexName = b.indexName) :
    NotAbove a b ↔ a.globalPrefix ≤ b.globalPrefix := by
  rw [NotAbove, hname]
  constructor
  · rintro (hlt | ⟨heq, -⟩)
    · exact Std.le_of_lt hlt
    · exact heq ▸ String.le_refl _
  · intro hle
    rcases Decidable.em (a.globalPrefix < b.globalPrefix) with hlt | hnot
    · exact Or.inl hlt
    · exact Or.inr ⟨String.le_antisymm hle (String.not_lt.mp hnot), String.le_refl _⟩

/-- The group is the one with the least prefix among those of the list that have the index name. -/
structure LeastNamed (groups : List IndexGroup) (key : String) (group : IndexGroup) : Prop where
  mem : group ∈ groups
  named : group.indexName = key
  least : ∀ other ∈ groups, other.indexName = key → group.globalPrefix ≤ other.globalPrefix

/-- The table and the dropped groups tell the groups of the list apart by their index names. -/
structure Distinguishes (groups : List IndexGroup) (kept : GroupTable) (dropped : List IndexGroup) :
    Prop where
  /-- The keys are the index names of the list. -/
  contains_iff : ∀ key, kept.contains key = true ↔ ∃ group ∈ groups, group.indexName = key
  /-- Under each there is the least group with this name. -/
  kept_iff : ∀ key group, kept[key]? = some group ↔ LeastNamed groups key group
  /-- Each group is kept or dropped, as often as it was given. -/
  perm : (kept.values ++ dropped).Perm groups
  /-- The dropped groups are in order. -/
  sorted : dropped.Pairwise NotAbove
  /-- Whoever is dropped gives way to a group with the same index name. -/
  gives_way : ∀ group ∈ dropped, ∃ other, kept[group.indexName]? = some other ∧
    other.indexName = group.indexName ∧ NotAbove other group

/-- Under an index name there is the least group with this name. -/
theorem getElem?_distinct :
    (distinct groups).1[key]? = some group ↔ LeastNamed groups key group := by
  have hsorted : (groups.mergeSort inOrder).Pairwise fun a b => inOrder a b = true :=
    List.pairwise_mergeSort inOrder_trans inOrder_total groups
  rw [distinct, getElem?_sift, Std.ExtTreeMap.getElem?_empty, Option.none_or,
    find?_eq_some_iff_of_pairwise hsorted]
  simp only [List.mem_mergeSort, beq_iff_eq, inOrder_iff]
  constructor
  · rintro ⟨hmem, rfl, hleast⟩
    exact ⟨hmem, rfl, fun other hother hname =>
      (notAbove_iff_of_indexName hname.symm).mp (hleast other hother hname)⟩
  · rintro ⟨hmem, rfl, hleast⟩
    exact ⟨hmem, rfl, fun other hother hname =>
      (notAbove_iff_of_indexName hname.symm).mpr (hleast other hother hname)⟩

/-- There is a group under each index name of the list, and under no other. -/
theorem contains_distinct :
    (distinct groups).1.contains key = true ↔ ∃ group ∈ groups, group.indexName = key := by
  rw [Std.ExtTreeMap.contains_eq_isSome_getElem?, distinct, getElem?_sift,
    Std.ExtTreeMap.getElem?_empty, Option.none_or, List.find?_isSome]
  simp only [List.mem_mergeSort, beq_iff_eq]

theorem distinct_perm (groups : List IndexGroup) :
    ((distinct groups).1.values ++ (distinct groups).2).Perm groups := by
  have hsift := sift_perm ∅ (groups.mergeSort inOrder)
  rw [values_empty, List.nil_append] at hsift
  exact hsift.trans (List.mergeSort_perm groups inOrder)

theorem distinct_distinguishes (groups : List IndexGroup) :
    Distinguishes groups (distinct groups).1 (distinct groups).2 where
  contains_iff _ := contains_distinct
  kept_iff _ _ := getElem?_distinct
  perm := distinct_perm groups
  sorted := ((List.pairwise_mergeSort inOrder_trans inOrder_total groups).sublist
    (sift_sublist ∅ _)).imp inOrder_iff.mp
  gives_way := by
    intro group hdropped
    have hgroup : group ∈ groups :=
      (distinct_perm groups).mem_iff.mp (List.mem_append_right _ hdropped)
    obtain ⟨other, hother⟩ : ∃ other, (distinct groups).1[group.indexName]? = some other := by
      rw [← Option.isSome_iff_exists, ← Std.ExtTreeMap.contains_eq_isSome_getElem?]
      exact contains_distinct.mpr ⟨group, hgroup, rfl⟩
    have hleast := getElem?_distinct.mp hother
    exact ⟨other, hother, hleast.named,
      (notAbove_iff_of_indexName hleast.named).mpr (hleast.least group hgroup rfl)⟩

/-! ## The order in which groups are given -/

/-- Groups in another order are the same groups once they are sorted. -/
theorem distinct_congr (h : others.Perm groups) : distinct others = distinct groups := by
  have hsorted : others.mergeSort inOrder = groups.mergeSort inOrder :=
    List.Perm.eq_of_pairwise (fun _ _ _ _ => inOrder_antisymm)
      (List.pairwise_mergeSort inOrder_trans inOrder_total others)
      (List.pairwise_mergeSort inOrder_trans inOrder_total groups)
      (((List.mergeSort_perm others inOrder).trans h).trans
        (List.mergeSort_perm groups inOrder).symm)
  rw [distinct, distinct, hsorted]

theorem mem_values : group ∈ table.values ↔ group ∈ table.groups := by
  rw [GroupTable.groups, Std.ExtTreeSet.mem_ofList, List.contains_iff_mem]

/-- The groups of a table that has each under its own index name are least among themselves. -/
theorem Keyed.leastNamed_values (h : table.Keyed) :
    LeastNamed table.values key group ↔ table[key]? = some group := by
  have hmem : ∀ other, other ∈ table.values ↔ table[other.indexName]? = some other :=
    fun other => mem_values.trans h.mem_groups
  constructor
  · rintro ⟨hgroup, rfl, -⟩
    exact (hmem group).mp hgroup
  · intro hkey
    obtain rfl := h key group hkey
    refine ⟨(hmem group).mpr hkey, rfl, fun other hother hname => ?_⟩
    have hsame := (hmem other).mp hother
    rw [hname, hkey] at hsame
    exact Option.some.inj hsame ▸ String.le_refl _

/-- **The groups of a keyed table are all kept.** -/
theorem Keyed.distinct_values (h : table.Keyed) : distinct table.values = (table, []) := by
  have hkept : (distinct table.values).1 = table :=
    Std.ExtTreeMap.ext_getElem? fun key => Option.ext fun group =>
      getElem?_distinct.trans h.leastNamed_values
  -- The groups that were given are in the table, which leaves none to be dropped.
  have hlength := (distinct_perm table.values).length_eq
  rw [hkept, List.length_append] at hlength
  exact Prod.ext hkept (List.length_eq_zero_iff.mp (by omega))

theorem keyed_distinct (groups : List IndexGroup) : (distinct groups).1.Keyed :=
  fun _ _ h => (getElem?_distinct.mp h).named

/-- Whoever was kept is kept again, in whatever order the kept groups are given. -/
theorem distinct_kept (h : others.Perm (distinct groups).1.values) :
    distinct others = ((distinct groups).1, []) :=
  (distinct_congr h).trans (keyed_distinct groups).distinct_values

/-- **Telling groups apart keeps the least of each index name and loses none.**  It does not depend
on the order of the list, and among the groups that it keeps there is nothing left to do. -/
theorem distinct_spec (groups : List IndexGroup) :
    Distinguishes groups (distinct groups).1 (distinct groups).2 ∧
    (∀ others : List IndexGroup, others.Perm groups → distinct others = distinct groups) ∧
    (∀ others : List IndexGroup, others.Perm (distinct groups).1.values →
      distinct others = ((distinct groups).1, [])) :=
  ⟨distinct_distinguishes groups, fun _ => distinct_congr, fun _ => distinct_kept⟩

/-- Of three groups named `audit`, two of them the same, the one with the least prefix is kept,
whichever way round they are given, and what is kept is kept again. -/
theorem distinct_spec_of_clash :
    let groups : List IndexGroup :=
      [⟨"b", "audit"⟩, ⟨"graylog", "internal"⟩, ⟨"a", "audit"⟩, ⟨"b", "audit"⟩]
    groups.reverse.Perm groups ∧ distinct groups.reverse = distinct groups ∧
      (distinct groups).1["audit"]? = some ⟨"a", "audit"⟩ ∧
      distinct (distinct groups).1.values = ((distinct groups).1, []) := by
  intro groups
  obtain ⟨hsplit, hany, hagain⟩ := distinct_spec groups
  exact ⟨groups.reverse_perm, hany _ groups.reverse_perm,
    (hsplit.kept_iff _ _).mpr ⟨by decide, rfl, by decide⟩, hagain _ (List.Perm.refl _)⟩

end GroupTable
end Rollover
