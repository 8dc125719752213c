import Rollover.Operation

/-!
# How long a program can take

A program is *within* a number of effects if it ends after at most that many, whatever the replies
are (`Program.Within`).  The bound of a sequence is the sum of the bounds (`Program.within_bind`).

A view of a group takes three effects and a rotation on the view nine, so a rotation is within
twelve (`within_rotate`).
-/

namespace Rollover

namespace Program

variable {α β : Type} {m n : Nat}

/-- The program ends after at most `n` effects. -/
def Within : Nat → Program α → Prop
  | _, done _ => True
  | 0, perform _ _ => False
  | n + 1, perform _ next => ∀ reply, (next reply).Within n

theorem within_done (n : Nat) (result : α) : (done result).Within n := by
  cases n <;> trivial

theorem within_pure (n : Nat) (result : α) : (pure result : Program α).Within n :=
  within_done n result

/-- A program that has an effect before it has one less to come after it. -/
theorem Within.perform {effect : Effect} {next : effect.Reply → Program α}
    (h : (perform effect next).Within n) : ∃ m, n = m + 1 ∧ ∀ reply, (next reply).Within m := by
  cases n with
  | zero => exact absurd h id
  | succ m => exact ⟨m, rfl, h⟩

theorem within_ask {request : EngineCall} {f : request.Reply → Program α}
    (h : ∀ reply, (f reply).Within n) : (ask request >>= f).Within (n + 1) := h

theorem within_submit {job : Job} {f : Except Error Unit → Program α}
    (h : ∀ reply, (f reply).Within n) : (submit job >>= f).Within (n + 1) := h

theorem within_record {entry : Activity} {f : Unit → Program α}
    (h : ∀ reply, (f reply).Within n) : (record entry >>= f).Within (n + 1) := h

theorem Within.mono {p : Program α} (h : p.Within m) (hle : m ≤ n) : p.Within n := by
  induction p generalizing m n with
  | done result => exact within_done n result
  | perform effect next ih =>
    obtain ⟨k, rfl, hnext⟩ := h.perform
    obtain ⟨l, rfl⟩ : ∃ l, n = l + 1 := ⟨n - 1, by omega⟩
    exact fun reply => ih reply (hnext reply) (Nat.le_of_succ_le_succ hle)

/-- The bounds of two programs add up. -/
theorem within_bind {p : Program α} {f : α → Program β} (h : p.Within m)
    (hf : ∀ result, (f result).Within n) : (p >>= f).Within (m + n) := by
  induction p generalizing m with
  | done result => exact (hf result).mono (Nat.le_add_left n m)
  | perform effect next ih =>
    obtain ⟨k, rfl, hnext⟩ := h.perform
    rw [perform_bind, Nat.succ_add]
    exact fun reply => ih reply (hnext reply)

end Program

open Program

variable {view : GroupView} {maxSegments : UInt32}

theorem within_view (group : IndexGroup) : group.view.Within 3 := by
  refine within_ask fun reply => ?_
  cases reply with
  | error cause => exact within_pure 2 _
  | ok listing =>
    dsimp only
    split
    · exact within_pure 2 _
    · refine within_ask fun reply => ?_
      rcases reply with cause | ⟨_ | _⟩
      · exact within_pure 1 _
      · exact within_pure 1 _
      · refine within_ask fun reply => ?_
        cases reply <;> exact within_pure 0 _

theorem within_create (view : GroupView) (segment : Segment) : (view.create segment).Within 1 := by
  unfold GroupView.create
  split
  · exact within_pure 1 _
  · refine within_ask fun reply => ?_
    rcases reply with cause | ⟨_ | _⟩ <;> exact within_pure 0 _

theorem within_offerRebuild (view : GroupView) : view.offerRebuild.Within 2 := by
  refine within_submit fun reply => ?_
  cases reply with
  | ok => exact within_pure 1 _
  | error cause => exact within_record fun _ => within_pure 0 ()

theorem within_pointTo (view : GroupView) (number : UInt64) (old : Option String) :
    (view.pointTo number old).Within 1 := by
  refine within_ask fun reply => ?_
  split <;> exact within_pure 0 _

theorem within_sealIndex (maxSegments : UInt32) (name : String) :
    (GroupView.sealIndex maxSegments name).Within 3 := by
  refine within_ask fun reply => ?_
  rcases reply with cause | ⟨_ | _⟩
  · exact within_pure 2 _
  · refine within_ask fun reply => ?_
    cases reply with
    | error cause => exact within_pure 1 _
    | ok => exact within_submit fun _ => within_pure 0 _
  · exact within_pure 2 _

theorem within_retire (view : GroupView) (previous : Option UInt64) (next : UInt64) :
    (view.retire maxSegments previous next).Within 4 := by
  unfold GroupView.retire
  cases previous with
  | none => exact within_record fun _ => within_pure 3 _
  | some number =>
    refine within_bind (m := 3) (n := 1) (within_sealIndex maxSegments _) fun outcome => ?_
    cases outcome with
    | error halt => exact within_pure 1 _
    | ok frozen => exact within_record fun _ => within_pure 0 _

theorem within_rotate_view (view : GroupView) : (view.rotate maxSegments).Within 9 := by
  unfold GroupView.rotate
  split
  · exact within_pure 9 _
  split
  · exact within_pure 9 _
  refine within_ask fun reply => ?_
  cases reply with
  | error cause => exact within_pure 8 _
  | ok bound =>
    refine within_bind (m := 1) (n := 7) (within_create view _) fun result => ?_
    rcases result with ⟨grown, cause | ⟨_ | _⟩⟩
    · exact within_pure 7 _
    · exact within_pure 7 _
    · refine within_bind (m := 2) (n := 5) (within_offerRebuild grown) fun _ => ?_
      refine within_bind (m := 1) (n := 4) (within_pointTo grown _ bound) fun result => ?_
      rcases result with ⟨moved, cause | ⟨⟩⟩
      · exact within_pure 4 _
      · exact within_bind (m := 4) (n := 0) (within_retire moved _ _) fun _ => within_pure 0 _

/-- **A rotation has twelve effects at most.** -/
theorem within_rotate (group : IndexGroup) (maxSegments : UInt32) :
    (group.rotate maxSegments).Within 12 := by
  refine within_bind (m := 3) (n := 9) (within_view group) fun result => ?_
  cases result with
  | error cause => exact within_pure 9 _
  | ok view =>
    exact within_bind (m := 9) (n := 0) (within_rotate_view view) fun _ => within_pure 0 _

end Rollover
