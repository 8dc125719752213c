import Rollover.Proofs.Names
import Rollover.Proofs.Reconciliation

/-!
# Groups that share a full name

A registry has one group for each index name.  What the engine sees of a group is its full name,
and that is the prefix and the index name joined by an underscore, which either of them may contain
as well.  So different index names are not enough: where the prefix of one group goes on into the
index name of another, the two have one full name, and with it one alias and the same indices
(`IndexGroup.fullName_eq_iff`).

The groups of a registry have their names to themselves exactly if no two of them overlap in this
way (`Registry.Reaches.namesApart_iff`).  Groups with one prefix do not overlap
(`GroupTable.clear_of_globalPrefix`), but nothing keeps a store from having groups with several.
-/

namespace Rollover

namespace IndexGroup

variable {a b : IndexGroup}

/-- The prefix of `b` goes on into what is the index name of `a`. -/
def Overlaps (a b : IndexGroup) : Prop :=
  ∃ between, b.globalPrefix = a.globalPrefix ++ "_" ++ between ∧
    a.indexName = between ++ "_" ++ b.indexName

theorem Overlaps.fullName_eq (h : a.Overlaps b) : a.fullName = b.fullName := by
  obtain ⟨between, hfront, hname⟩ := h
  simp only [fullName, hfront, hname, String.append_assoc]

theorem Overlaps.globalPrefix_ne (h : a.Overlaps b) : a.globalPrefix ≠ b.globalPrefix := by
  obtain ⟨between, hfront, -⟩ := h
  intro heq
  have hlength := congrArg String.length (heq.trans hfront)
  rw [String.length_append, String.length_append] at hlength
  have hone : "_".length = 1 := rfl
  omega

theorem toList_fullName (group : IndexGroup) :
    group.fullName.toList = group.globalPrefix.toList ++ '_' :: group.indexName.toList := by
  simp [fullName]

/-- Where one of two joins is cut before the other, the groups are equal or overlap. -/
theorem eq_or_overlaps {rest : List Char}
    (hfront : b.globalPrefix.toList = a.globalPrefix.toList ++ rest)
    (hname : '_' :: a.indexName.toList = rest ++ '_' :: b.indexName.toList) :
    a = b ∨ a.Overlaps b := by
  cases rest with
  | nil =>
    rw [List.append_nil, String.toList_inj] at hfront
    rw [List.nil_append, List.cons_inj_right, String.toList_inj] at hname
    left
    cases a
    cases b
    simp_all
  | cons c between =>
    rw [List.cons_append, List.cons.injEq] at hname
    obtain ⟨rfl, hname⟩ := hname
    refine Or.inr ⟨String.ofList between, String.toList_inj.mp ?_, String.toList_inj.mp ?_⟩
    · simp [hfront]
    · simp [hname]

/-- **Different groups with one full name overlap.** -/
theorem fullName_eq_iff : a.fullName = b.fullName ↔ a = b ∨ a.Overlaps b ∨ b.Overlaps a := by
  constructor
  · intro h
    rw [← String.toList_inj, toList_fullName, toList_fullName, List.append_eq_append_iff] at h
    rcases h with ⟨rest, hfront, hname⟩ | ⟨rest, hfront, hname⟩
    · exact (eq_or_overlaps hfront hname).imp_right Or.inl
    · exact (eq_or_overlaps hfront hname).imp Eq.symm Or.inr
  · rintro (rfl | h | h)
    · rfl
    · exact h.fullName_eq
    · exact h.fullName_eq.symm

end IndexGroup

namespace GroupTable

/-- The groups that a set leaves in a table do not overlap. -/
def Clear (groups : GroupSet) : Prop :=
  ∀ a b, IsFirst groups a → IsFirst groups b → ¬ a.Overlaps b

/-- Groups with one prefix do not overlap. -/
theorem clear_of_globalPrefix {groups : GroupSet} {shared : String}
    (h : ∀ group ∈ groups, group.globalPrefix = shared) : Clear groups :=
  fun a b ha hb hoverlaps =>
    hoverlaps.globalPrefix_ne ((h a ha.mem).trans (h b hb.mem).symm)

end GroupTable

namespace Registry

open GroupTable

variable {settings : Settings} {registry : Registry} {groups : GroupSet}

/-- No two groups in use have a full name, an alias, or the name of an index in common. -/
def NamesApart (registry : Registry) : Prop :=
  ∀ a ∈ registry.groups, ∀ b ∈ registry.groups, a ≠ b →
    a.fullName ≠ b.fullName ∧ a.aliasName ≠ b.aliasName ∧ ∀ m n, a.nameOf m ≠ b.nameOf n

theorem namesApart_iff_of_mem_groups
    (hgroups : ∀ group, group ∈ registry.groups ↔ IsFirst groups group) :
    registry.NamesApart ↔ Clear groups := by
  constructor
  · intro hapart a b ha hb hoverlaps
    have hne : a ≠ b := fun heq => hoverlaps.globalPrefix_ne (congrArg IndexGroup.globalPrefix heq)
    exact (hapart a ((hgroups a).mpr ha) b ((hgroups b).mpr hb) hne).1 hoverlaps.fullName_eq
  · intro hclear a ha b hb hne
    rw [hgroups] at ha hb
    have hfull : a.fullName ≠ b.fullName := by
      intro heq
      rcases IndexGroup.fullName_eq_iff.mp heq with heq | hoverlaps | hoverlaps
      · exact hne heq
      · exact hclear a b ha hb hoverlaps
      · exact hclear b a hb ha hoverlaps
    refine ⟨hfull, fun heq => hfull (IndexGroup.aliasName_inj.mp heq), fun m n heq => hfull ?_⟩
    have hnumber := b.numberOf?_nameOf n
    rw [← heq] at hnumber
    exact (IndexGroup.numberOf?_unique (a.numberOf?_nameOf m) hnumber).1

/-- **Exactly when the groups of a registry have their names to themselves**: when the groups that
are left of those put in place, or of those wanted by a reconciliation, do not overlap. -/
theorem Reaches.namesApart_iff (h : Reaches settings registry) :
    (∀ groups, (registry.publish groups).NamesApart ↔ Clear groups) ∧
      ∀ stored : GroupSet, (registry.reconcile (.ok stored)).1.NamesApart ↔
        Clear (stored.insert settings.defaultGroup) :=
  ⟨fun _ => namesApart_iff_of_mem_groups fun _ => mem_groups_ofSet,
    fun _ => namesApart_iff_of_mem_groups fun _ => h.mem_groups_reconcile⟩

/-- The groups of a store with the prefix of the installation have their names to themselves. -/
theorem Reaches.namesApart_iff_of_shared_prefix :
    let settings : Settings := {}
    let stored : GroupSet := Std.ExtTreeSet.ofList [settings.group "audit", settings.group "a_b"]
    Reaches settings (ofSettings settings) ∧
      ((ofSettings settings).publish stored).NamesApart ∧
      ((ofSettings settings).reconcile (.ok stored)).1.NamesApart := by
  intro settings stored
  have hstored : ∀ group ∈ stored, group.globalPrefix = "graylog" := by
    intro group hmem
    rw [Std.ExtTreeSet.mem_ofList, List.contains_iff_mem] at hmem
    rcases List.mem_cons.mp hmem with rfl | hmem
    · rfl
    · rw [List.mem_singleton.mp hmem]
      rfl
  have hwanted : ∀ group ∈ stored.insert settings.defaultGroup, group.globalPrefix = "graylog" := by
    intro group hmem
    rcases Std.ExtTreeSet.mem_insert.mp hmem with heq | hmem
    · rw [← Std.LawfulEqOrd.compare_eq_iff_eq.mp heq]
      rfl
    · exact hstored group hmem
  have hiff := Reaches.namesApart_iff (.start : Reaches settings (ofSettings settings))
  exact ⟨.start, (hiff.1 stored).mpr (clear_of_globalPrefix hstored),
    (hiff.2 stored).mpr (clear_of_globalPrefix hwanted)⟩

/-- Two groups that differ in prefix and index name are both kept, and have one alias and the same
indices. -/
theorem not_namesApart_of_underscore :
    let a : IndexGroup := ⟨"a", "b_c"⟩
    let b : IndexGroup := ⟨"a_b", "c"⟩
    let registry := (ofSettings {}).publish (Std.ExtTreeSet.ofList [a, b])
    a ∈ registry.groups ∧ b ∈ registry.groups ∧ a ≠ b ∧ a.fullName = b.fullName ∧
      a.aliasName = b.aliasName ∧ (∀ n, a.nameOf n = b.nameOf n) ∧ ¬ registry.NamesApart := by
  intro a b registry
  have hmem : ∀ group, group ∈ (Std.ExtTreeSet.ofList [a, b] : GroupSet) ↔
      group = a ∨ group = b := by
    intro group
    rw [Std.ExtTreeSet.mem_ofList, List.contains_iff_mem, List.mem_cons, List.mem_singleton]
  have hfirst : ∀ group, group = a ∨ group = b → group ∈ registry.groups := by
    intro group hgroup
    refine mem_groups_ofSet.mpr ⟨(hmem group).mpr hgroup, fun other hother hname => ?_⟩
    have heq : group = other := by
      rcases hgroup with rfl | rfl <;> rcases (hmem other).mp hother with rfl | rfl
      · rfl
      · exact absurd hname (by decide)
      · exact absurd hname (by decide)
      · rfl
    rw [heq, inOrder_refl]
  have hfull : a.fullName = b.fullName := by decide
  have hne : a ≠ b := by decide
  refine ⟨hfirst a (Or.inl rfl), hfirst b (Or.inr rfl), hne, hfull,
    IndexGroup.aliasName_congr hfull, IndexGroup.nameOf_congr hfull, fun hapart => ?_⟩
  exact (hapart a (hfirst a (Or.inl rfl)) b (hfirst b (Or.inr rfl)) hne).1 hfull

end Registry
end Rollover
