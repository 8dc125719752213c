import Rollover.Proofs.BestEffort
import Rollover.Proofs.Turnover

/-!
# From one index to the next

`Rollover.Proofs.Turnover` follows a group among others from one number of rotations to the next.
This file says the same of an engine that one group at a time works on, and says more: what an
operation writes to the activity log (`Scene.entries`), and that setting up, too, is such a step,
namely the one from nothing to the first index.

* `faultless_setUp_first`: an untouched group is set up, and has gone through one index.
* `faultless_rotate_next`: a group that has gone through `count` indices is rotated, and has gone
  through one more.
* `Engine.Shows.names_viewOf`: the names of a group that has gone through `count` indices.

Both steps stay in the group's territory, and so what other groups have is the same before and after
(`Program.Upholds.keeps_shows`).
-/

namespace Rollover

open Program Environment

variable {group : IndexGroup} {holding : Holding} {e e' : Engine} {s s' : Scene}
  {maxSegments : UInt32} {count : Nat}

/-! ## What is recorded -/

/-- The entry that an effect writes to the activity log. -/
def Effect.entry? : Effect → Option Activity
  | .record entry => some entry
  | .call _ | .submit _ => none

/-- The activity log, oldest entry first, without the notes that a rebuild was not taken on. -/
def Scene.entries (s : Scene) : List Activity :=
  s.deeds.filterMap Effect.entry?

theorem Scene.entries_next (s : Scene) (effect : Effect) (reply : effect.Reply)
    (engine : Engine) : (s.next effect reply engine).entries =
      s.entries ++ ([effect].filter Effect.isDeed).filterMap Effect.entry? := by
  rw [entries, deeds_next, List.filterMap_append, entries]

theorem Scene.entries_of_deeds {effects : List Effect} (h : s'.deeds = s.deeds ++ effects) :
    s'.entries = s.entries ++ effects.filterMap Effect.entry? := by
  rw [entries, h, List.filterMap_append, entries]

theorem Scene.Quiet.entries (h : s.Quiet s') : s'.entries = s.entries := by
  rw [Scene.entries, h.deeds, Scene.entries]

/-- The entry of a rotation, after `count` others. -/
def rotationEntry (group : IndexGroup) : Nat → Activity
  | 0 => .rotated none (group.nameOf (UInt64.ofNat 0))
  | n + 1 => .rotated (some (group.nameOf (UInt64.ofNat n))) (group.nameOf (UInt64.ofNat (n + 1)))

/-- A rotation writes one entry. -/
theorem filterMap_entry?_rotationDeeds (bound : Option String) (old : Option UInt64) (n : UInt64) :
    (rotationDeeds maxSegments group bound old n).filterMap Effect.entry? =
      [.rotated (old.map group.nameOf) (group.nameOf n)] := by
  cases old with
  | none | some => rfl

/-! ## What a group shows -/

namespace Engine.Shows

theorem mirrors_viewOf (h : e.Shows group holding) : (e.viewOf group).Mirrors group holding where
  group := viewOf_group _ _
  collision := by rw [viewOf_collision, h.hasIndex_aliasName]
  mem_numbers_iff n := by rw [mem_viewOf_numbers, h.hasNumber_iff]

/-- What the group's alias is on, if that is an index of the group, has the group's name for it. -/
theorem hasIndex_writeNumber (h : e.Shows group holding) {m : UInt64}
    (hm : e.writeNumber? group = some m) : e.hasIndex (group.nameOf m) = true := by
  obtain ⟨-, -, -, hnumber⟩ := writeNumber?_eq_some_iff.mp hm
  exact h.hasIndex_iff.mpr (h.hasNumber_iff.mp hnumber)

/-- The alias of a group that has gone through some indices is on the last of them. -/
theorem writeNumber?_after_succ (h : e.Shows group (.after group (count + 1)))
    (hroom : count < UInt64.size) : e.writeNumber? group = some (UInt64.ofNat count) := by
  rw [writeNumber?, h.targetsOf, h.mirrors_viewOf.held?_min? hroom]

/-- The first rotation of a group. -/
theorem rotated_first (h : e.Shows group (.after group 0))
    (hrotated : e.Rotated group none (UInt64.ofNat 0) e') :
    e'.Shows group (.after group 1) := by
  have hgrown : (e.grown group (UInt64.ofNat 0)).Shows group
      ((Holding.after group 0).insert (UInt64.ofNat 0) {}) := h.insert (.refl _)
  have hsize : ((e.grown group (UInt64.ofNat 0)).targetsOf group.aliasName).size ≤ 1 := by
    rw [hgrown.targetsOf, Holding.binding_insert]
    exact Holding.size_targets_after
  rw [← Holding.after_one]
  refine hgrown.bindTo ⟨Std.ExtTreeMap.ext_getElem? fun name => hrotated.indices name, ?_⟩
  rw [hrotated.aliases, pointed, hgrown.binding, movedTargets_of_size_le_one hsize]

end Engine.Shows

/-- Lists that ascend are known by what is in them. -/
theorem eq_of_ascending {α : Type} {r : α → α → Prop} {xs ys : List α}
    (hasymm : ∀ a b, r a b → ¬ r b a) (hxs : xs.Pairwise r) (hys : ys.Pairwise r)
    (hmem : ∀ a, a ∈ xs ↔ a ∈ ys) : xs = ys := by
  have hnodup : ∀ {list : List α}, list.Pairwise r → list.Nodup := fun hlist =>
    List.nodup_iff_pairwise_ne.mpr (hlist.imp fun {a b} hab => by
      rintro rfl
      exact hasymm a a hab hab)
  exact List.Perm.eq_of_pairwise (fun a b _ _ hab hba => absurd hba (hasymm a b hab)) hxs hys
    ((List.perm_ext_iff_of_nodup (hnodup hxs) (hnodup hys)).mpr hmem)

/-- The numbers of a group that has gone through `count` indices. -/
theorem GroupView.Mirrors.toList_after {view : GroupView}
    (h : view.Mirrors group (.after group count)) (hroom : count ≤ UInt64.size) :
    view.toList = (List.range count).map UInt64.ofNat := by
  have hlt : ∀ k ∈ List.range count, k < UInt64.size := fun k hk =>
    Nat.lt_of_lt_of_le (List.mem_range.mp hk) hroom
  refine eq_of_ascending (r := (· < ·)) (fun a b => UInt64.lt_asymm) ?_ ?_ fun n => ?_
  · refine (Std.ExtTreeSet.ordered_toList (t := view.numbers)).imp fun {m n} hlt => ?_
    exact compareOfLessAndEq_eq_lt.mp hlt
  · rw [List.pairwise_map]
    refine List.pairwise_lt_range.imp_of_mem fun {a b} ha hb hab => ?_
    rwa [UInt64.lt_iff_toNat_lt, UInt64.toNat_ofNat_of_lt' (hlt a ha),
      UInt64.toNat_ofNat_of_lt' (hlt b hb)]
  · rw [toList, Std.ExtTreeSet.mem_toList, h.mem_numbers_iff, Holding.isSome_index_after,
      List.mem_map]
    constructor
    · exact fun hn => ⟨n.toNat, List.mem_range.mpr hn, UInt64.ofNat_toNat⟩
    · rintro ⟨k, hk, rfl⟩
      rw [UInt64.toNat_ofNat_of_lt' (hlt k hk)]
      exact List.mem_range.mp hk

/-- The names of a group that has gone through `count` indices. -/
theorem Engine.Shows.names_viewOf (h : e.Shows group (.after group count))
    (hroom : count ≤ UInt64.size) : (e.viewOf group).names =
      (List.range count).map fun number => group.nameOf (UInt64.ofNat number) := by
  rw [GroupView.names, h.mirrors_viewOf.toList_after hroom, viewOf_group, List.map_map]
  rfl

/-! ## Two steps -/

/-- What stays in the territories of some groups leaves what all others have. -/
theorem Program.Upholds.keeps_shows {α : Type} {p : Program α} {goal : α → Scene → Prop}
    {guard : Scene → Effect → Prop} {others : List IndexGroup} {held : IndexGroup → Holding}
    (h : p.Upholds faultless guard goal s)
    (hguard : ∀ s effect, guard s effect → ∀ other ∈ others,
      ∃ group : IndexGroup, effect.StaysIn group ∧ group.fullName ≠ other.fullName)
    (hshows : ∀ other ∈ others, s.engine.Shows other (held other)) :
    p.Upholds faultless guard (fun result s' => goal result s' ∧
      ∀ other ∈ others, s'.engine.Shows other (held other)) s := by
  refine h.keeps (P := fun e => ∀ other ∈ others, e.Shows other (held other)) ?_ hshows
  intro s effect reply engine hpermitted happens hshows other hother
  obtain ⟨group, hstays, hne⟩ := hguard s effect hpermitted other hother
  exact (hshows other hother).of_alike (hstays.alike hne (disturbed_of_faultless happens))

/-- **An untouched group gets its first index by being set up.** -/
theorem faultless_setUp_first (maxSegments : UInt32)
    (h : s.engine.Shows group (.after group 0)) :
    (group.setUp maxSegments).Upholds faultless (fun _ effect => effect.StaysIn group)
      (fun outcome s' =>
        outcome = .ok (.bootstrapped (.complete group none GroupView.firstNumber)) ∧
          s'.engine.Shows group (.after group 1) ∧
          s'.entries = s.entries ++ [.creatingFirstIndex, rotationEntry group 0]) s := by
  have hempty : ∀ n, ¬ s.engine.HasNumber group n := fun n hn =>
    Nat.not_lt_zero _ (Holding.isSome_index_after.mp (h.hasNumber_iff.mp hn))
  have hstays := (tendsTo_setUp group maxSegments).bestEffort.upholds (.record _) faultless s
  have hcourse : (group.setUp maxSegments).Upholds (steady false) (fun _ _ => True)
      (fun outcome s' => SetUpCourse false maxSegments group s s' outcome) s :=
    steady_setUp maxSegments fun n hn => absurd hn (hempty n)
  refine (hstays.and hcourse).imp (fun outcome s' h' => ?_) |>.permit fun _ _ hguard => hguard.1
  obtain ⟨-, h'⟩ := h'
  cases h' with
  | collision hcollision =>
    rw [h.hasIndex_aliasName] at hcollision
    cases hcollision
  | alreadyUp n htarget =>
    rw [Engine.viewOf_target h.hasIndex_aliasName,
      Engine.writeNumber?_of_empty (Engine.viewOf_latest?_eq_none_iff.mpr hempty)] at htarget
    cases htarget
  | repaired n s₂ _ hlatest =>
    exact absurd (Engine.viewOf_latest?_eq_some_iff.mp hlatest).1 (hempty n)
  | refused _ hrefused =>
    rw [h.contains_nameOf] at hrefused
    exact absurd hrefused (not_or.mpr ⟨Bool.false_ne_true, Bool.false_ne_true⟩)
  | bootstrapped _ hrotated hdeeds =>
    refine ⟨rfl, h.rotated_first hrotated, ?_⟩
    rw [Scene.entries_of_deeds hdeeds, List.filterMap_cons, filterMap_entry?_rotationDeeds]
    rfl

/-- **A rotation takes a group from one index to the next.** -/
theorem faultless_rotate_next (maxSegments : UInt32) (hroom : count < UInt64.size)
    (h : s.engine.Shows group (.after group count)) :
    (group.rotate maxSegments).Upholds faultless (fun _ effect => effect.StaysIn group)
      (fun outcome s' => (∃ rotation, outcome = .ok rotation) ∧
        s'.engine.Shows group (.after group (count + 1)) ∧
        s'.entries = s.entries ++ [rotationEntry group count]) s := by
  have hamid : (group.rotate maxSegments).Upholds (amid group)
      (fun _ effect => effect.StaysIn group) (fun outcome s' =>
        (∃ rotation, outcome = .ok rotation) ∧
          s'.engine.Shows group (.after group (count + 1)) ∧
          s'.handed = s.handed ++ rotationJobs maxSegments group count) s :=
    amid_rotate hroom h
  replace hamid := hamid.restrict fun e effect reply e' happens => ⟨e, .refl e group, happens⟩
  have hcourse : (group.rotate maxSegments).Upholds (steady false) (fun _ _ => True)
      (fun outcome s' => RotationCourse false maxSegments group s s' outcome) s :=
    steady_rotate maxSegments fun m => h.hasIndex_writeNumber
  refine (hamid.and hcourse).imp (fun outcome s' h' => ?_) |>.permit fun _ _ hguard => hguard.1
  obtain ⟨⟨⟨rotation, rfl⟩, hshows, -⟩, h'⟩ := h'
  refine ⟨⟨rotation, rfl⟩, hshows, ?_⟩
  cases h' with
  | rotated n _ hnext _ _ hdeeds =>
    obtain rfl := Option.some.inj ((h.mirrors_viewOf.next? hroom).symm.trans hnext)
    rw [Scene.entries_of_deeds hdeeds, filterMap_entry?_rotationDeeds]
    cases count with
    | zero =>
      have hnone : s.engine.writeNumber? group = none := by
        rw [Engine.writeNumber?, h.targetsOf]
        exact congrArg (Option.bind · _) Std.ExtTreeSet.min?_empty
      rw [hnone]
      rfl
    | succ last =>
      rw [h.writeNumber?_after_succ (Nat.lt_of_succ_lt hroom)]
      rfl

end Rollover
