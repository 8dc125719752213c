import Rollover.Proofs.Deeds

/-!
# When nothing comes in the way

Operations can fail because calls get lost, and because of what the engine holds.  An engine is
*ready* for a group if it holds nothing of that kind (`Engine.Ready`): no index has the name of the
group's alias, no alias has a name that the group gives to its indices, the group's indices have the
names that it gives them, and there is a number left.  On such an engine, when every call is
answered, setting up the group succeeds (`faultless_setUp`), and so does a rotation, except that it
may be cut off by a full flush counter (`faultless_rotate`).

How the operations go was said in `Rollover.Proofs.Deeds`.  What is left to say here is that none of
the ways in which they fail is open to them on a ready engine.
-/

namespace Rollover

open Program Environment

namespace Engine

variable {e e' : Engine} {group : IndexGroup}

/-- The operations on a group find nothing in the engine that they could fail on. -/
structure Ready (e : Engine) (group : IndexGroup) : Prop where
  /-- No index has the name of the group's alias. -/
  noCollision : e.hasIndex group.aliasName = false
  /-- No alias has the name of an index of the group. -/
  unclaimed : ∀ n, e.aliases.contains (group.nameOf n) = false
  /-- The indices of the group have the names that it gives them. -/
  canonical : ∀ name n, e.hasIndex name = true → group.numberOf? name = some n →
    name = group.nameOf n
  /-- No number of the group is the last one. -/
  room : ∀ n, e.HasNumber group n → n.toNat + 1 < UInt64.size

theorem Ready.of_same (h : e.Ready group) (hsame : e.Same e') : e'.Ready group where
  noCollision := by rw [hsame.hasIndex, h.noCollision]
  unclaimed n := by rw [hsame.aliases, h.unclaimed]
  canonical name n hindex := h.canonical name n (hsame.hasIndex name ▸ hindex)
  room n hn := h.room n (hsame.hasNumber_iff.mp hn)

/-- There is a next number, and its name is free. -/
theorem Ready.next? (h : e.Ready group) :
    ∃ n, (e.viewOf group).next? = some n ∧ e.hasIndex (group.nameOf n) = false := by
  have hnext : ∃ n, (e.viewOf group).next? = some n := by
    unfold GroupView.next?
    cases hlatest : (e.viewOf group).latest? with
    | none => exact ⟨_, rfl⟩
    | some n =>
      exact ⟨n + 1, if_pos (h.room n (viewOf_latest?_eq_some_iff.mp hlatest).1)⟩
  obtain ⟨n, hnext⟩ := hnext
  exact ⟨n, hnext, hasIndex_nameOf_of_above fun m hm => lt_of_viewOf_next? hnext hm⟩

/-- A number of the group is the number of an index with the group's own name for it. -/
theorem Ready.hasIndex (h : e.Ready group) {n : UInt64} (hn : e.HasNumber group n) :
    e.hasIndex (group.nameOf n) = true := by
  obtain ⟨name, hindex, hnumber⟩ := hn
  rw [← h.canonical name n hindex hnumber]
  exact hindex

/-- The index that the group's alias is on cannot be flushed any more. -/
def FlushedUp (e : Engine) (group : IndexGroup) : Prop :=
  ∃ m, e.writeNumber? group = some m ∧ e.Full (group.nameOf m)

/-- New indices can be flushed. -/
theorem not_flushedUp_of_new
    (h : ∀ (name : String) (state : IndexState), e.indices[name]? = some state → state = {}) :
    ¬ e.FlushedUp group := by
  rintro ⟨m, -, state, hstate, hfull⟩
  rw [h _ _ hstate] at hfull
  exact hfull (by decide)

end Engine

variable {group : IndexGroup} {s : Scene}

/-- A ready engine creates the index of the group that it is asked for. -/
theorem Engine.Ready.not_refused {e : Engine} {n : UInt64} (h : e.Ready group) :
    ¬ (false = true ∨ e.aliases.contains (group.nameOf n) = true) := by
  rw [h.unclaimed]
  exact fun hrefused => hrefused.elim Bool.false_ne_true Bool.false_ne_true

/-- **On a ready engine setting up succeeds.** -/
theorem faultless_setUp (maxSegments : UInt32) (hready : s.engine.Ready group) :
    (group.setUp maxSegments).Upholds faultless (fun _ _ => True) (fun outcome _ =>
      ∃ found, outcome = .ok found) s := by
  have hcourse : (group.setUp maxSegments).Upholds (steady false) (fun _ _ => True)
      (fun outcome s' => SetUpCourse false maxSegments group s s' outcome) s :=
    steady_setUp maxSegments fun n => hready.hasIndex
  refine hcourse.imp fun outcome s' h => ?_
  cases h with
  | collision hcollision =>
    rw [hready.noCollision] at hcollision
    cases hcollision
  | refused _ hrefused => exact absurd hrefused hready.not_refused
  | alreadyUp | repaired | bootstrapped => exact ⟨_, rfl⟩

/-- **On a ready engine a rotation succeeds**, and the index that it leaves is sealed, unless the
flush counter of that index is full. -/
theorem faultless_rotate (maxSegments : UInt32) (hready : s.engine.Ready group) :
    (group.rotate maxSegments).Upholds faultless (fun _ _ => True) (fun outcome s' =>
      (∃ rotation, outcome = .ok rotation ∧ rotation.sealed = rotation.previous.isSome ∧
          ∀ m, s.engine.writeNumber? group = some m →
            ∃ state, s.engine.indices[group.nameOf m]? = some state ∧
              s'.engine.indices[group.nameOf m]? = some state.seal) ∨
        (outcome = .error .overflow ∧ s.engine.FlushedUp group)) s := by
  have hown : ∀ m, s.engine.writeNumber? group = some m →
      s.engine.hasIndex (group.nameOf m) = true := by
    intro m hm
    obtain ⟨-, -, -, hnumber⟩ := Engine.writeNumber?_eq_some_iff.mp hm
    exact hready.hasIndex hnumber
  have hcourse : (group.rotate maxSegments).Upholds (steady false) (fun _ _ => True)
      (fun outcome s' => RotationCourse false maxSegments group s s' outcome) s :=
    steady_rotate maxSegments hown
  refine hcourse.imp fun outcome s' h => ?_
  cases h with
  | collision hcollision =>
    rw [hready.noCollision] at hcollision
    cases hcollision
  | exhausted _ hnext =>
    obtain ⟨n, hn, -⟩ := hready.next?
    rw [hnext] at hn
    cases hn
  | refused n _ _ hrefused => exact absurd hrefused hready.not_refused
  | cutOff m hwrites hfull => exact Or.inr ⟨rfl, m, hwrites, hfull⟩
  | rotated n _ hnext _ hrotated =>
    have hfree : s.engine.hasIndex (group.nameOf n) = false :=
      Engine.hasIndex_nameOf_of_above fun m hm => Engine.lt_of_viewOf_next? hnext hm
    exact Or.inl ⟨_, rfl, by rw [Rotation.complete, Option.isSome_map], fun m hm =>
      hrotated.getElem?_left hfree hm (hown m hm)⟩

end Rollover
