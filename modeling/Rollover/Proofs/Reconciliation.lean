import Mathlib.Data.Set.Card
import Rollover.Proofs.Tables
import Rollover.Registry

/-!
# What a reconciliation leads to

A reconciliation compares sets of groups, and puts a table in place.  The two could part: the set
that is compared has one group for each index name already, while the set that is put in place has
not.  They do not, because the groups of a table are the first ones of its set
(`GroupTable.mem_groups_ofSet`), and because every table that a registry ever has is keyed
(`Registry.Reaches.keyed`), so that equal groups mean equal tables.

So a reconciliation has two ends only (`Registry.reconcile_ok`): the registry has the right groups
and stays as it is, or it has not and gets them.  Either way the table is the one of the wanted set,
whatever there was before (`Registry.Reaches.table_reconcile`), and that is all a second
reconciliation looks at.
-/

namespace Rollover
namespace Registry

open GroupTable

variable {settings : Settings} {registry : Registry} {groups others stored : GroupSet}

/-- A registry of an installation with the settings, after any changes. -/
inductive Reaches (settings : Settings) : Registry → Prop
  /-- Nothing has changed yet. -/
  | start : Reaches settings (ofSettings settings)
  /-- Groups were put in place. -/
  | publish {registry : Registry} (h : Reaches settings registry) (groups : GroupSet) :
    Reaches settings (registry.publish groups)
  /-- The registry was reconciled with what a store had, or failed to have. -/
  | reconcile {registry : Registry} (h : Reaches settings registry)
      (loaded : Except Error GroupSet) : Reaches settings (registry.reconcile loaded).1

/-! ## Counting -/

/-- What is counted are the groups of one set that are not in the other. -/
theorem countMissing_eq_ncard (groups others : GroupSet) :
    countMissing groups others = Set.ncard {group | group ∈ groups ∧ group ∉ others} := by
  let missing := groups.toList.filter fun group => !others.contains group
  have hnodup : missing.Nodup := by
    refine List.Pairwise.filter _ (Std.ExtTreeSet.distinct_toList.imp fun hne heq => ?_)
    exact hne (Std.LawfulEqOrd.compare_eq_iff_eq.mpr heq)
  have hmissing : {group | group ∈ groups ∧ group ∉ others} =
      (missing.toFinset : Set IndexGroup) := by
    ext group
    rw [List.coe_toFinset, Set.mem_ofPred_eq, Set.mem_ofPred_eq, List.mem_filter,
      Std.ExtTreeSet.mem_toList, Bool.not_eq_true', ← Bool.not_eq_true,
      Std.ExtTreeSet.contains_iff_mem]
  rw [hmissing, Set.ncard_coe_finset, List.toFinset_card_of_nodup hnodup]
  rfl

theorem countMissing_eq_zero_iff :
    countMissing groups others = 0 ↔ ∀ group ∈ groups, group ∈ others := by
  simp only [countMissing, List.length_eq_zero_iff, List.filter_eq_nil_iff,
    Std.ExtTreeSet.mem_toList, Bool.not_eq_true, Bool.not_eq_false',
    Std.ExtTreeSet.contains_iff_mem]

/-- Two sets miss nothing of each other exactly if they are equal. -/
theorem countMissing_eq_zero_and_iff :
    countMissing groups others = 0 ∧ countMissing others groups = 0 ↔
      ∀ group, group ∈ others ↔ group ∈ groups := by
  rw [countMissing_eq_zero_iff, countMissing_eq_zero_iff]
  constructor
  · exact fun ⟨h, h'⟩ group => ⟨h' group, h group⟩
  · exact fun h => ⟨fun group => (h group).mpr, fun group => (h group).mp⟩

/-! ## The two ends -/

/-- **How a reconciliation ends** when the store could be read. -/
theorem reconcile_ok (registry : Registry) (stored : GroupSet) :
    let wanted := stored.insert registry.fallback
    ((∀ group, group ∈ registry.groups ↔ IsFirst wanted group) ∧
        registry.reconcile (.ok stored) = (registry, .unchanged)) ∨
      ((¬ ∀ group, group ∈ registry.groups ↔ IsFirst wanted group) ∧
        registry.reconcile (.ok stored) = (registry.publish wanted, .updated
          (countMissing (registry.publish wanted).groups registry.groups)
          (countMissing registry.groups (registry.publish wanted).groups))) := by
  intro wanted
  have hiff : countMissing (ofSet wanted).groups registry.groups = 0 ∧
      countMissing registry.groups (ofSet wanted).groups = 0 ↔
        ∀ group, group ∈ registry.groups ↔ IsFirst wanted group := by
    rw [countMissing_eq_zero_and_iff]
    simp only [mem_groups_ofSet]
  rw [← hiff, reconcile]
  by_cases h : countMissing (ofSet wanted).groups registry.groups = 0 ∧
      countMissing registry.groups (ofSet wanted).groups = 0
  · exact Or.inl ⟨h, if_pos h⟩
  · exact Or.inr ⟨h, if_neg h⟩

/-! ## Registries after any changes -/

theorem fallback_reconcile (registry : Registry) (loaded : Except Error GroupSet) :
    (registry.reconcile loaded).1.fallback = registry.fallback := by
  cases loaded with
  | error cause => rfl
  | ok stored =>
    rcases registry.reconcile_ok stored with ⟨-, h⟩ | ⟨-, h⟩
    · rw [h]
    · rw [h]
      rfl

/-- The default group of the settings stays the fallback. -/
theorem Reaches.fallback (h : Reaches settings registry) :
    registry.fallback = settings.defaultGroup := by
  induction h with
  | start => rfl
  | publish h groups ih => exact ih
  | reconcile h loaded ih => rw [fallback_reconcile, ih]

theorem keyed_reconcile (h : registry.table.Keyed) (loaded : Except Error GroupSet) :
    (registry.reconcile loaded).1.table.Keyed := by
  cases loaded with
  | error cause => exact h
  | ok stored =>
    rcases registry.reconcile_ok stored with ⟨-, heq⟩ | ⟨-, heq⟩
    · rwa [heq]
    · rw [heq]
      exact keyed_ofSet _

/-- **Each group of a registry stands under its own index name.** -/
theorem Reaches.keyed (h : Reaches settings registry) : registry.table.Keyed := by
  induction h with
  | start => exact keyed_singleton settings.defaultGroup
  | publish h groups ih => exact keyed_ofSet groups
  | reconcile h loaded ih => exact keyed_reconcile ih loaded

/-- **After a reconciliation the table is the one of the wanted set**, whatever it was before. -/
theorem Reaches.table_reconcile (h : Reaches settings registry) (stored : GroupSet) :
    (registry.reconcile (.ok stored)).1.table = ofSet (stored.insert settings.defaultGroup) := by
  rw [← h.fallback]
  rcases registry.reconcile_ok stored with ⟨hgroups, heq⟩ | ⟨-, heq⟩
  · rw [heq]
    exact h.keyed.ext (keyed_ofSet _) fun group => (hgroups group).trans mem_groups_ofSet.symm
  · rw [heq]
    rfl

theorem Reaches.mem_groups_reconcile (h : Reaches settings registry) {group : IndexGroup} :
    group ∈ (registry.reconcile (.ok stored)).1.groups ↔
      IsFirst (stored.insert settings.defaultGroup) group := by
  rw [Registry.groups, h.table_reconcile, mem_groups_ofSet]

/-- The default group has the default index name. -/
theorem Reaches.indexName_defaultGroup (h : Reaches settings registry) :
    registry.defaultGroup.indexName = settings.defaultIndexName := by
  have hname : registry.fallback.indexName = settings.defaultIndexName := by
    rw [h.fallback]
    rfl
  rw [defaultGroup, defaultIn]
  cases hgroup : registry.table[registry.fallback.indexName]? with
  | none => exact hname
  | some group => exact (h.keyed _ _ hgroup).trans hname

/-- The default group is among the groups once the store was read. -/
theorem Reaches.defaultGroup_mem_groups (h : Reaches settings registry) (stored : GroupSet) :
    (registry.reconcile (.ok stored)).1.defaultGroup ∈
      (registry.reconcile (.ok stored)).1.groups := by
  have hmem : settings.defaultGroup ∈ stored.insert settings.defaultGroup :=
    Std.ExtTreeSet.mem_insert_self
  obtain ⟨first, hfirst, hname⟩ := exists_isFirst hmem
  have hget : (registry.reconcile (.ok stored)).1.table[settings.defaultGroup.indexName]? =
      some first := by
    rw [h.table_reconcile]
    exact getElem?_ofSet.mpr ⟨hfirst, hname⟩
  have hdefault : (registry.reconcile (.ok stored)).1.defaultGroup = first := by
    rw [defaultGroup, defaultIn, fallback_reconcile, h.fallback, hget, Option.getD_some]
  rw [hdefault]
  exact h.mem_groups_reconcile.mpr hfirst

/-- A second reconciliation with the same groups finds nothing to do. -/
theorem Reaches.reconcile_again (h : Reaches settings registry) (stored : GroupSet) :
    (registry.reconcile (.ok stored)).1.reconcile (.ok stored) =
      ((registry.reconcile (.ok stored)).1, .unchanged) := by
  have hafter := h.reconcile (.ok stored)
  rcases (registry.reconcile (.ok stored)).1.reconcile_ok stored with ⟨-, heq⟩ | ⟨hnot, -⟩
  · exact heq
  · refine absurd (fun group => ?_) hnot
    rw [hafter.fallback]
    exact h.mem_groups_reconcile

/-! ## Convergence -/

/-- What a reconciliation makes of a registry, when the store could be read: the registry has the
first of the wanted groups for each index name, and the outcome says how much is new and how much is
gone. -/
structure Reconciles (wanted : GroupSet) (before after : Registry) (outcome : Reconciliation) :
    Prop where
  group?_eq_some_iff : ∀ indexName group, after.group? indexName = some group ↔
    IsFirst wanted group ∧ group.indexName = indexName
  mem_groups_iff : ∀ group, group ∈ after.groups ↔ IsFirst wanted group
  isSome_group? : ∀ group ∈ wanted, (after.group? group.indexName).isSome = true
  unchanged_iff : outcome = .unchanged ↔ ∀ group, group ∈ before.groups ↔ IsFirst wanted group
  eq_of_unchanged : outcome = .unchanged → after = before
  /-- The outcome has the number of groups that are new, and of those that are gone. -/
  updated : outcome ≠ .unchanged → outcome = .updated
    (Set.ncard {group | group ∈ after.groups ∧ group ∉ before.groups})
    (Set.ncard {group | group ∈ before.groups ∧ group ∉ after.groups})
  default_mem : after.defaultGroup ∈ after.groups

theorem Reaches.reconciles (h : Reaches settings registry) (stored : GroupSet) :
    Reconciles (stored.insert settings.defaultGroup) registry (registry.reconcile (.ok stored)).1
      (registry.reconcile (.ok stored)).2 := by
  have hget : ∀ indexName group,
      (registry.reconcile (.ok stored)).1.group? indexName = some group ↔
        IsFirst (stored.insert settings.defaultGroup) group ∧ group.indexName = indexName := by
    intro indexName group
    rw [group?, h.table_reconcile, getElem?_ofSet]
  have hsome : ∀ group ∈ stored.insert settings.defaultGroup,
      ((registry.reconcile (.ok stored)).1.group? group.indexName).isSome = true := by
    intro group hmem
    obtain ⟨first, hfirst⟩ := exists_isFirst hmem
    rw [(hget _ _).mpr hfirst, Option.isSome_some]
  have hmem : ∀ group, group ∈ (registry.reconcile (.ok stored)).1.groups ↔
      IsFirst (stored.insert settings.defaultGroup) group := fun _ => h.mem_groups_reconcile
  have hdefault := h.defaultGroup_mem_groups stored
  have hends := registry.reconcile_ok stored
  rw [h.fallback] at hends
  rcases hends with ⟨hgroups, heq⟩ | ⟨hnot, heq⟩
  · rw [heq] at hget hsome hmem hdefault ⊢
    exact ⟨hget, hmem, hsome, iff_of_true rfl hgroups, fun _ => rfl, fun hne => absurd rfl hne,
      hdefault⟩
  · rw [heq] at hget hsome hmem hdefault ⊢
    refine ⟨hget, hmem, hsome, iff_of_false nofun hnot, nofun, fun _ => ?_, hdefault⟩
    rw [countMissing_eq_ncard, countMissing_eq_ncard]

/-- **Reconciliation converges in one run, and forgets what there was.**  A store that cannot be
read changes nothing.  Otherwise the registry has afterwards the first group for each index name,
of those in the store and the default group of the settings; it reports exactly what has changed;
and a second run changes nothing. -/
theorem Reaches.reconcile_converges (h : Reaches settings registry) :
    (∀ indexName group, registry.group? indexName = some group → group.indexName = indexName) ∧
      registry.defaultGroup.indexName = settings.defaultIndexName ∧
      (∀ cause, registry.reconcile (.error cause) = (registry, .storeFailed)) ∧
      ∀ stored : GroupSet,
        Reconciles (stored.insert settings.defaultGroup) registry
          (registry.reconcile (.ok stored)).1 (registry.reconcile (.ok stored)).2 ∧
        (registry.reconcile (.ok stored)).1.reconcile (.ok stored) =
          ((registry.reconcile (.ok stored)).1, .unchanged) :=
  ⟨h.keyed, h.indexName_defaultGroup, fun _ => rfl,
    fun stored => ⟨h.reconciles stored, h.reconcile_again stored⟩⟩

/-- A registry without groups meets a store that has another group under the default index name.
That group takes the place of the default one, and stays there. -/
theorem reconcile_converges_of_displaced_default :
    let settings : Settings := {}
    let registry := (ofSettings settings).publish ∅
    let other : IndexGroup := ⟨"a", "internal"⟩
    let stored : GroupSet := Std.ExtTreeSet.ofList [other]
    let after := (registry.reconcile (.ok stored)).1
    Reaches settings registry ∧ (registry.reconcile (.ok stored)).2 ≠ .unchanged ∧
      after.group? "internal" = some other ∧ after.defaultGroup.indexName = "internal" ∧
      after.reconcile (.ok stored) = (after, .unchanged) := by
  intro settings registry other stored after
  have hreaches : Reaches settings registry := .publish .start ∅
  obtain ⟨-, -, -, hconverges⟩ := hreaches.reconcile_converges
  obtain ⟨hreconciles, hagain⟩ := hconverges stored
  have hfirst : IsFirst (stored.insert settings.defaultGroup) other := by
    refine ⟨by decide +kernel, fun group hmem _ => ?_⟩
    rcases Std.ExtTreeSet.mem_insert.mp hmem with heq | hmem
    · rw [← Std.LawfulEqOrd.compare_eq_iff_eq.mp heq]
      decide
    · rw [Std.ExtTreeSet.mem_ofList, List.contains_iff_mem, List.mem_singleton] at hmem
      rw [hmem, inOrder_refl]
  refine ⟨hreaches, fun hunchanged => ?_, (hreconciles.group?_eq_some_iff _ _).mpr ⟨hfirst, rfl⟩,
    (hreaches.reconcile (.ok stored)).indexName_defaultGroup, hagain⟩
  have hmem := (hreconciles.unchanged_iff.mp hunchanged other).mpr hfirst
  exact Std.ExtTreeSet.not_mem_empty (mem_groups_ofSet.mp hmem).mem

end Registry
end Rollover
