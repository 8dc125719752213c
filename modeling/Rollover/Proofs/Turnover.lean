import Rollover.Proofs.Conduct
import Rollover.Proofs.Deeds
import Rollover.Proofs.Holding

/-!
# One rotation after the other

A group that is rotated from nothing, and only rotated, is known completely after any number of
rotations: it has the indices `0`, ..., `count - 1`, all of them sealed but the last, and its alias
has been on each of them in turn and is on the last (`Holding.after`).

`amid_rotate` is the step from one number to the next.  It says what a rotation does to a group that
was rotated `count` times, while others are at work on the same engine and leave the group alone:
the rotation succeeds, the engine shows the group rotated once more, and the jobs that were handed
over are those of this rotation (`rotationJobs`).  And it leaves the others alone in its turn: every
one of its effects stays in the group's territory.
-/

namespace Rollover

open Program Environment

/-- An effect that stays in a group's territory hands over jobs about the group only. -/
theorem Effect.StaysIn.isOf {effect : Effect} {group : IndexGroup} {job : Job}
    (h : effect.StaysIn group) (hjob : job ∈ effect.job?.toList) : job.isOf group = true := by
  cases h with
  | submit _ hisOf => rwa [List.mem_singleton.mp hjob]
  | ask | createIndex | flush | setReadOnly | moveAlias | record => cases hjob

/-! ## A group after a number of rotations -/

/-- An index that was sealed, and nothing else happened to it. -/
def IndexState.retired : IndexState :=
  { stats := { readOnly := true }, flushes := 1 }

/-- The jobs that a rotation of a group hands over, after `count` others. -/
def rotationJobs (maxSegments : UInt32) (group : IndexGroup) : Nat → List Job
  | 0 => [.rebuildRanges group]
  | n + 1 => [.rebuildRanges group, .optimize (group.nameOf (UInt64.ofNat n)) maxSegments]

/-- The jobs that a number of rotations of a group hand over, from the first on. -/
def jobsThrough (maxSegments : UInt32) (group : IndexGroup) (count : Nat) : List Job :=
  (List.range count).flatMap (rotationJobs maxSegments group)

theorem jobsThrough_succ (maxSegments : UInt32) (group : IndexGroup) (count : Nat) :
    jobsThrough maxSegments group (count + 1) =
      jobsThrough maxSegments group count ++ rotationJobs maxSegments group count := by
  rw [jobsThrough, List.range_succ, List.flatMap_append, List.flatMap_singleton, jobsThrough]

namespace Holding

variable {group : IndexGroup} {count : Nat} {n : UInt64}

/-- What there is of a group after a number of rotations. -/
def after (group : IndexGroup) (count : Nat) : Holding where
  index n :=
    if n.toNat + 1 < count then some .retired
    else if n.toNat < count then some {}
    else none
  binding := {
    targets := match count with
      | 0 => ∅
      | last + 1 => Std.ExtTreeSet.ofList [group.nameOf (UInt64.ofNat last)]
    history := (List.range count).map fun number => [group.nameOf (UInt64.ofNat number)] }

theorem isSome_index_after : ((after group count).index n).isSome = true ↔ n.toNat < count := by
  unfold after
  dsimp only
  split
  · simp only [Option.isSome_some, true_iff]
    omega
  · split
    · simpa
    · simpa using Nat.le_of_not_lt ‹_›

theorem index_after_eq_none (h : count < UInt64.size) :
    (after group count).index (UInt64.ofNat count) = none := by
  rw [← Option.not_isSome_iff_eq_none, isSome_index_after, UInt64.toNat_ofNat_of_lt' h]
  exact Nat.lt_irrefl count

theorem index_after_last (h : count < UInt64.size) :
    (after group (count + 1)).index (UInt64.ofNat count) = some {} := by
  unfold after
  dsimp only
  rw [UInt64.toNat_ofNat_of_lt' h, if_neg (Nat.lt_irrefl _), if_pos (Nat.lt_succ_self _)]

theorem size_targets_after : (after group count).binding.targets.size ≤ 1 := by
  cases count with
  | zero => exact Nat.zero_le 1
  | succ last => exact Nat.le_of_eq (size_ofList_singleton _)

theorem min?_targets_after (group : IndexGroup) (count : Nat) :
    (after group (count + 1)).binding.targets.min? = some (group.nameOf (UInt64.ofNat count)) := by
  rw [min?_eq_some_iff size_targets_after]
  exact mem_ofList_singleton.mpr rfl

/-! ### One more rotation -/

/-- The alias moves on to the next index. -/
theorem binding_after_succ (group : IndexGroup) (count : Nat) :
    (after group (count + 1)).binding =
      ((after group count).bindTo (group.nameOf (UInt64.ofNat count))).binding := by
  simp only [after, bindTo, AliasState.retarget, toList_ofList_singleton, List.range_succ,
    List.map_append, List.map_cons, List.map_nil]

theorem eq_ofNat_iff {k : Nat} (h : k < UInt64.size) : n = UInt64.ofNat k ↔ n.toNat = k := by
  rw [← UInt64.toNat_inj, UInt64.toNat_ofNat_of_lt' h]

/-- There is one index more, and the one before it is sealed. -/
theorem index_after_succ (h : count < UInt64.size) (n : UInt64) :
    (after group (count + 1)).index n =
      if n.toNat + 1 = count then some .retired
      else ((after group count).insert (UInt64.ofNat count) {}).index n := by
  rw [index_insert]
  simp only [eq_ofNat_iff h, after]
  grind

/-- The first rotation makes an index and puts the alias there. -/
theorem after_one (group : IndexGroup) :
    ((after group 0).insert (UInt64.ofNat 0) {}).bindTo (group.nameOf (UInt64.ofNat 0)) =
      after group 1 := by
  have hzero : 0 < UInt64.size := by decide
  ext1
  · funext n
    rw [index_bindTo, index_after_succ hzero, if_neg (Nat.succ_ne_zero _)]
  · rw [binding_after_succ]
    rfl

/-- Every other rotation seals the index that there was last, too. -/
theorem after_add_two (h : count + 1 < UInt64.size) (state : IndexState) :
    ((((after group (count + 1)).insert (UInt64.ofNat (count + 1)) {}).bindTo
        (group.nameOf (UInt64.ofNat (count + 1)))).insert (UInt64.ofNat count) state).insert
          (UInt64.ofNat count) .retired = after group (count + 2) := by
  have hlast : count < UInt64.size := Nat.lt_of_succ_lt h
  ext1
  · funext n
    rw [index_after_succ h]
    by_cases hn : n = UInt64.ofNat count
    · rw [hn, index_insert_self, if_pos (by rw [UInt64.toNat_ofNat_of_lt' hlast])]
    · have hne : n.toNat + 1 ≠ count + 1 := fun heq =>
        hn ((eq_ofNat_iff hlast).mpr (Nat.succ.inj heq))
      rw [index_insert_of_ne _ _ hn, index_insert_of_ne _ _ hn, index_bindTo, if_neg hne]
  · rw [binding_after_succ]
    rfl

end Holding

/-- An engine without anything in it has nothing of a group. -/
theorem Engine.shows_empty (group : IndexGroup) : Shows {} group (.after group 0) where
  index name n _ := by
    rw [show (Holding.after group 0).index n = none from rfl, ite_self]
    exact Std.ExtTreeMap.getElem?_empty
  noCollision := Std.ExtTreeMap.getElem?_empty
  binding := by
    rw [aliasState, Std.ExtTreeMap.getElem?_empty]
    rfl
  unclaimed _ := Std.ExtTreeMap.getElem?_empty

/-! ## A rotation among others -/

variable {group : IndexGroup} {view : GroupView} {holding : Holding} {s : Scene}
  {maxSegments : UInt32} {n : UInt64}

/-- Taking a view. -/
theorem amid_view (h : s.engine.Shows group holding) :
    group.view.Upholds (amid group) (fun _ effect => effect.StaysIn group) (fun result s' =>
      (∃ view : GroupView, result = .ok view ∧ view.Mirrors group holding) ∧
        s'.engine.Shows group holding ∧ s'.handed = s.handed) s := by
  unfold IndexGroup.view
  refine upholds_ask.mpr ⟨.ask _ rfl, fun reply e₁ h₁ => ?_⟩
  obtain ⟨hshows₁, met, hmet, rfl⟩ := h.amid_read rfl h₁
  have hmirrors := hmet.mirrors_ofListing
  simp only [Engine.respond, hmirrors.collision]
  refine upholds_ask.mpr ⟨.ask _ rfl, fun reply e₂ h₂ => ?_⟩
  obtain ⟨hshows₂, rfl⟩ := hshows₁.amid_aliasExists h₂
  cases holding.binding.targets.isEmpty with
  | true => exact ⟨⟨_, rfl, hmirrors⟩, hshows₂, by simp⟩
  | false =>
    refine upholds_ask.mpr ⟨.ask _ rfl, fun reply e₃ h₃ => ?_⟩
    obtain ⟨hshows₃, rfl⟩ := hshows₂.amid_aliasTarget h₃
    exact ⟨⟨_, rfl, hmirrors.group, rfl, hmirrors.mem_numbers_iff⟩, hshows₃, by simp⟩

/-- Creating an index. -/
theorem amid_create (hview : view.group = group) (h : s.engine.Shows group holding)
    (hfree : holding.index n = none) :
    (view.create (view.segment n)).Upholds (amid group) (fun _ effect => effect.StaysIn group)
      (fun result s' => result = (view.insert n, .ok true) ∧
        s'.engine.Shows group (holding.insert n {}) ∧ s'.handed = s.handed) s := by
  subst hview
  unfold GroupView.create
  simp only [GroupView.requireMember_eq_ok_iff.mpr rfl]
  refine upholds_ask.mpr ⟨.createIndex n, fun reply e₁ h₁ => ?_⟩
  obtain ⟨rfl, hshows⟩ := h.amid_createIndex hfree h₁
  exact ⟨rfl, hshows, by simp⟩

/-- Handing over a rebuild. -/
theorem amid_offerRebuild (hview : view.group = group) (h : s.engine.Shows group holding) :
    view.offerRebuild.Upholds (amid group) (fun _ effect => effect.StaysIn group) (fun _ s' =>
      s'.engine.Shows group holding ∧ s'.handed = s.handed ++ [.rebuildRanges group]) s := by
  subst hview
  unfold GroupView.offerRebuild
  refine upholds_submit.mpr ⟨.submit _ (Job.isOf_rebuildRanges _), fun reply e₁ h₁ => ?_⟩
  have hshows₁ := h.amid_submit h₁
  cases reply with
  | ok => exact ⟨hshows₁, by simp⟩
  | error => exact ⟨.record _, fun _ e₂ h₂ => ⟨hshows₁.amid_record h₂, by
      show ((s.next _ _ _).next (.record .rangesNotRebuilt) () e₂).handed = _
      simp⟩⟩

/-- Pointing the alias at an index, away from what it is on. -/
theorem amid_pointTo (hview : view.group = group) (h : s.engine.Shows group holding)
    (hindex : (holding.index n).isSome = true) (hsize : holding.binding.targets.size ≤ 1) :
    (view.pointTo n holding.binding.targets.min?).Upholds (amid group)
      (fun _ effect => effect.StaysIn group) (fun result s' =>
        result = ({ view with target := some n }, .ok ()) ∧
          s'.engine.Shows group (holding.bindTo (group.nameOf n)) ∧ s'.handed = s.handed) s := by
  subst hview
  unfold GroupView.pointTo
  refine upholds_ask.mpr ⟨.moveAlias _ _, fun reply e₁ h₁ => ?_⟩
  obtain ⟨rfl, hshows⟩ := h.amid_moveAlias hindex hsize h₁
  exact ⟨rfl, hshows, by simp⟩

/-- Sealing an index that is new. -/
theorem amid_sealIndex (h : s.engine.Shows group holding) (hstate : holding.index n = some {}) :
    (GroupView.sealIndex maxSegments (group.nameOf n)).Upholds (amid group)
      (fun _ effect => effect.StaysIn group) (fun result s' => result = .ok true ∧
        s'.engine.Shows group ((holding.insert n { flushes := 1 }).insert n .retired) ∧
        s'.handed = s.handed ++ [.optimize (group.nameOf n) maxSegments]) s := by
  unfold GroupView.sealIndex
  refine upholds_ask.mpr ⟨.flush n, fun reply e₁ h₁ => ?_⟩
  obtain ⟨rfl, hshows₁⟩ := h.amid_flush hstate (by decide) h₁
  refine upholds_ask.mpr ⟨.setReadOnly n, fun reply e₂ h₂ => ?_⟩
  obtain ⟨rfl, hshows₂⟩ := hshows₁.amid_setReadOnly (Holding.index_insert_self _ _ _) h₂
  refine upholds_submit.mpr ⟨.submit _ (Job.isOf_optimize _ _ _), fun reply e₃ h₃ => ?_⟩
  exact ⟨rfl, hshows₂.amid_submit h₃, by simp⟩

/-- The end of a rotation that has come from nowhere. -/
theorem amid_retire_none (h : s.engine.Shows group holding) :
    (view.retire maxSegments none n).Upholds (amid group) (fun _ effect => effect.StaysIn group)
      (fun outcome s' => (∃ rotation, outcome = .ok rotation) ∧ s'.engine.Shows group holding ∧
        s'.handed = s.handed) s := by
  unfold GroupView.retire
  refine upholds_record.mpr ⟨.record _, fun reply e₁ h₁ => ?_⟩
  exact ⟨⟨_, rfl⟩, h.amid_record h₁, Scene.handed_next_record _ _ _⟩

/-- The end of a rotation that has come from an index that is new. -/
theorem amid_retire_some {m : UInt64} (hview : view.group = group)
    (h : s.engine.Shows group holding) (hstate : holding.index m = some {}) :
    (view.retire maxSegments (some m) n).Upholds (amid group)
      (fun _ effect => effect.StaysIn group) (fun outcome s' =>
        (∃ rotation, outcome = .ok rotation) ∧
          s'.engine.Shows group ((holding.insert m { flushes := 1 }).insert m .retired) ∧
          s'.handed = s.handed ++ [.optimize (group.nameOf m) maxSegments]) s := by
  subst hview
  unfold GroupView.retire
  refine upholds_bind.mpr ((amid_sealIndex h hstate).imp fun result s₁ h₁ => ?_)
  obtain ⟨rfl, hshows₁, hhanded⟩ := h₁
  refine upholds_record.mpr ⟨.record _, fun reply e₂ h₂ => ?_⟩
  exact ⟨⟨_, rfl⟩, hshows₁.amid_record h₂, (Scene.handed_next_record _ _ _).trans hhanded⟩

/-- What comes after the indices `0`, ..., `count - 1` is the index `count`. -/
theorem GroupView.Mirrors.next? {count : Nat} (h : view.Mirrors group (Holding.after group count))
    (hroom : count < UInt64.size) : view.next? = some (UInt64.ofNat count) := by
  have hmem : ∀ n, n ∈ view.numbers ↔ n.toNat < count := fun n =>
    (h.mem_numbers_iff n).trans Holding.isSome_index_after
  unfold GroupView.next?
  cases count with
  | zero =>
    have hnone : view.latest? = none :=
      GroupView.latest?_eq_none_iff.mpr fun n hn => Nat.not_lt_zero _ ((hmem n).mp hn)
    rw [hnone]
    rfl
  | succ last =>
    have hlast : (UInt64.ofNat last).toNat = last :=
      UInt64.toNat_ofNat_of_lt' (Nat.lt_of_succ_lt hroom)
    have hlatest : view.latest? = some (UInt64.ofNat last) := by
      rw [GroupView.latest?_eq_some_iff, hmem, hlast]
      refine ⟨Nat.lt_succ_self last, fun m hm => ?_⟩
      rw [UInt64.le_iff_toNat_le, hlast]
      exact Nat.le_of_lt_succ ((hmem m).mp hm)
    rw [hlatest]
    simp only [hlast, hroom, if_true]
    rw [UInt64.ofNat_add]
    rfl

/-- What the alias is on is the last index of the view. -/
theorem GroupView.Mirrors.held?_min? {count : Nat}
    (h : view.Mirrors group (Holding.after group (count + 1))) (hroom : count < UInt64.size) :
    (Holding.after group (count + 1)).binding.targets.min?.bind view.held? =
      some (UInt64.ofNat count) := by
  rw [Holding.min?_targets_after, Option.bind_some, held?_eq_some_iff, h.group, h.mem_numbers_iff,
    Holding.index_after_last hroom]
  exact ⟨group.numberOf?_nameOf _, rfl⟩

/-- A rotation on a view of a group that was rotated `count` times. -/
theorem amid_rotate_view {count : Nat} (hroom : count < UInt64.size)
    (hmirrors : view.Mirrors group (Holding.after group count))
    (h : s.engine.Shows group (Holding.after group count)) :
    (view.rotate maxSegments).Upholds (amid group) (fun _ effect => effect.StaysIn group)
      (fun result s' => (∃ rotation, result.2 = .ok rotation) ∧
        s'.engine.Shows group (Holding.after group (count + 1)) ∧
        s'.handed = s.handed ++ rotationJobs maxSegments group count) s := by
  have hgroup := hmirrors.group
  subst hgroup
  unfold GroupView.rotate
  simp only [hmirrors.collision, hmirrors.next? hroom]
  refine upholds_ask.mpr ⟨.ask _ rfl, fun reply e₁ h₁ => ?_⟩
  obtain ⟨hshows₁, rfl⟩ := h.amid_aliasTarget h₁
  refine upholds_bind.mpr ((amid_create rfl hshows₁ (Holding.index_after_eq_none hroom)).imp
    fun result s₂ h₂ => ?_)
  obtain ⟨rfl, hshows₂, hhanded₂⟩ := h₂
  refine upholds_bind.mpr ((amid_offerRebuild (view.group_insert _) hshows₂).imp
    fun _ s₃ h₃ => ?_)
  obtain ⟨hshows₃, hhanded₃⟩ := h₃
  have hindex : (((Holding.after view.group count).insert (UInt64.ofNat count) {}).index
      (UInt64.ofNat count)).isSome = true := by
    rw [Holding.index_insert_self, Option.isSome_some]
  refine upholds_bind.mpr ((amid_pointTo (view.group_insert _) hshows₃ hindex
    Holding.size_targets_after).imp fun result s₄ h₄ => ?_)
  obtain ⟨rfl, hshows₄, hhanded₄⟩ := h₄
  have hhanded : s₄.handed = s.handed ++ [.rebuildRanges view.group] := by
    rw [hhanded₄, hhanded₃, hhanded₂, Scene.handed_next_call]
  cases count with
  | zero =>
    have hprevious : (Holding.after view.group 0).binding.targets.min? = none :=
      Std.ExtTreeSet.min?_empty
    rw [hprevious]
    refine upholds_bind.mpr ((amid_retire_none hshows₄).imp fun outcome s₅ h₅ => ?_)
    obtain ⟨hok, hshows₅, hhanded₅⟩ := h₅
    rw [Holding.after_one] at hshows₅
    exact ⟨hok, hshows₅, hhanded₅.trans hhanded⟩
  | succ last =>
    have hlast : last < UInt64.size := Nat.lt_of_succ_lt hroom
    have hstate : (((Holding.after view.group (last + 1)).insert
        (UInt64.ofNat (last + 1)) {}).bindTo
          (view.group.nameOf (UInt64.ofNat (last + 1)))).index (UInt64.ofNat last) =
        some {} := by
      rw [Holding.index_bindTo, Holding.index_insert_of_ne, Holding.index_after_last hlast]
      rw [ne_eq, Holding.eq_ofNat_iff hroom, UInt64.toNat_ofNat_of_lt' hlast]
      exact Nat.ne_of_lt (Nat.lt_succ_self last)
    rw [hmirrors.held?_min? hlast]
    refine upholds_bind.mpr ((amid_retire_some rfl hshows₄ hstate).imp
      fun outcome s₅ h₅ => ?_)
    obtain ⟨hok, hshows₅, hhanded₅⟩ := h₅
    rw [Holding.after_add_two hroom] at hshows₅
    rw [hhanded, List.append_assoc] at hhanded₅
    exact ⟨hok, hshows₅, hhanded₅⟩

/-- **A rotation takes a group from one number of rotations to the next**, whatever others do to
what is not the group's in the meantime. -/
theorem amid_rotate {count : Nat} (hroom : count < UInt64.size)
    (h : s.engine.Shows group (Holding.after group count)) :
    (group.rotate maxSegments).Upholds (amid group) (fun _ effect => effect.StaysIn group)
      (fun outcome s' => (∃ rotation, outcome = .ok rotation) ∧
        s'.engine.Shows group (Holding.after group (count + 1)) ∧
        s'.handed = s.handed ++ rotationJobs maxSegments group count) s := by
  unfold IndexGroup.rotate IndexGroup.withView
  refine upholds_bind.mpr ((amid_view h).imp fun result s₁ h₁ => ?_)
  obtain ⟨⟨view, rfl, hmirrors⟩, hshows₁, hhanded₁⟩ := h₁
  rw [← hhanded₁]
  exact upholds_bind.mpr (amid_rotate_view hroom hmirrors hshows₁)

end Rollover
