import Rollover.RotationLocks

/-!
# One lock for each name

Locks come and go: whoever obtains a handle prunes the table first, and may put a new lock into it.
What makes them locks nevertheless is that a lock with a live handle stays where it is.  So all live
handles that were obtained under one name are handles on one lock, and handles that were obtained
under different names are on different ones.

The table is *sound* if it keeps to this (`RotationLocks.Sound`).  Obtaining a handle and dropping
one keep it sound, whatever names are registered at the moment, and neither takes a lock from under
a live handle (`getElem?_obtain`, `Sound.obtain`, `Sound.drop`).

Handles are *issued* to somebody if there is a list of them, each with the name that it was obtained
under (`RotationLocks.Issued`).  Then the table has the lock of each handle under that very name,
and this remains so when a handle is obtained or dropped.
-/

namespace Rollover.RotationLocks

variable {locks : RotationLocks} {registered : Std.ExtTreeSet String} {name other : String}
  {lock : LockId}

/-- Every lock is the lock of one name, and locks with a live handle are in the table. -/
structure Sound (locks : RotationLocks) : Prop where
  /-- The next identity is new. -/
  lt_fresh : ∀ (name : String) (lock : LockId),
    locks.table[name]? = some lock → lock < locks.fresh
  /-- No lock is that of two names. -/
  injective : ∀ (name other : String) (lock : LockId),
    locks.table[name]? = some lock → locks.table[other]? = some lock → name = other
  /-- A lock with a live handle is in the table. -/
  live : ∀ lock ∈ locks.handles, ∃ name : String, locks.table[name]? = some lock

theorem sound_empty : Sound {} := by
  have hempty : ∀ name : String, (∅ : Std.ExtTreeMap String LockId)[name]? = none := fun name =>
    Std.ExtTreeMap.getElem?_empty
  refine ⟨fun name lock h => ?_, fun name other lock h => ?_, fun lock h => ?_⟩
  · cases (hempty name).symm.trans h
  · cases (hempty name).symm.trans h
  · cases h

/-- What pruning leaves are locks that somebody has a handle on, and those of registered names. -/
theorem getElem?_pruned : (locks.pruned registered)[name]? = some lock ↔
    locks.table[name]? = some lock ∧ (lock ∈ locks.handles ∨ name ∈ registered) := by
  rw [pruned, Std.ExtTreeMap.getElem?_filter', Option.filter_eq_some_iff, Bool.or_eq_true,
    decide_eq_true_iff, Std.ExtTreeSet.contains_iff_mem]

/-- What pruning does about a lock is decided by the handles on that lock alone.  So a handle that
is dropped while the table is being pruned may as well have been dropped before that, or after. -/
theorem getElem?_pruned_drop {dropped : LockId} (h : locks.table[name]? ≠ some dropped) :
    ((locks.drop dropped).pruned registered)[name]? = (locks.pruned registered)[name]? := by
  ext lock
  rw [getElem?_pruned, getElem?_pruned]
  refine and_congr_right fun htable => or_congr_left ?_
  have hne : lock ≠ dropped := fun heq => h (heq ▸ htable)
  exact List.mem_erase_of_ne hne

/-- The lock that is obtained is that of the name, and the other locks are those that pruning has
left. -/
theorem getElem?_obtain : (locks.obtain registered name).1.table[other]? =
    if other = name then some (locks.obtain registered name).2
    else (locks.pruned registered)[other]? := by
  unfold obtain
  dsimp only
  split
  · next hold =>
    by_cases h : other = name
    · rw [if_pos h, h, hold]
    · rw [if_neg h]
  · rw [Std.ExtTreeMap.getElem?_insert]
    by_cases h : other = name
    · rw [if_pos h, if_pos (Std.LawfulEqOrd.compare_eq_iff_eq.mpr h.symm)]
    · rw [if_neg h, if_neg (mt Std.LawfulEqOrd.compare_eq_iff_eq.mp (Ne.symm h))]

theorem getElem?_obtain_self : (locks.obtain registered name).1.table[name]? =
    some (locks.obtain registered name).2 := by
  rw [getElem?_obtain, if_pos rfl]

theorem handles_obtain : (locks.obtain registered name).1.handles =
    (locks.obtain registered name).2 :: locks.handles := by
  unfold obtain
  dsimp only
  split <;> rfl

/-- A lock with a live handle stays the lock of its name. -/
theorem getElem?_obtain_of_live (htable : locks.table[other]? = some lock)
    (hlive : lock ∈ locks.handles) :
    (locks.obtain registered name).1.table[other]? = some lock := by
  have hpruned : (locks.pruned registered)[other]? = some lock :=
    getElem?_pruned.mpr ⟨htable, Or.inl hlive⟩
  rw [getElem?_obtain]
  by_cases h : other = name
  · rw [if_pos h, obtain, ← h, hpruned]
  · rw [if_neg h, hpruned]

/-- The lock that is obtained was that of the name before, or it is new. -/
theorem obtain_cases (locks : RotationLocks) (registered : Std.ExtTreeSet String) (name : String) :
    (locks.table[name]? = some (locks.obtain registered name).2 ∧
        (locks.obtain registered name).1.fresh = locks.fresh) ∨
      ((locks.obtain registered name).2 = locks.fresh ∧
        (locks.obtain registered name).1.fresh = locks.fresh + 1) := by
  unfold obtain
  dsimp only
  split
  · next hold => exact Or.inl ⟨(getElem?_pruned.mp hold).1, rfl⟩
  · exact Or.inr ⟨rfl, rfl⟩

/-- **Obtaining a handle keeps the table sound.** -/
theorem Sound.obtain (hs : locks.Sound) (registered : Std.ExtTreeSet String) (name : String) :
    (locks.obtain registered name).1.Sound := by
  have hcases := obtain_cases locks registered name
  -- apart from the name that was asked for, nothing is in the table that was not there before
  have hold : ∀ other lock, (locks.obtain registered name).1.table[other]? = some lock →
      (other = name ∧ lock = (locks.obtain registered name).2) ∨
        (other ≠ name ∧ locks.table[other]? = some lock) := by
    intro other lock h
    rw [getElem?_obtain] at h
    by_cases hname : other = name
    · rw [if_pos hname] at h
      exact Or.inl ⟨hname, (Option.some.inj h).symm⟩
    · rw [if_neg hname] at h
      exact Or.inr ⟨hname, (getElem?_pruned.mp h).1⟩
  -- and the lock of that name is no other name's
  have hnew : ∀ other, other ≠ name →
      locks.table[other]? ≠ some (locks.obtain registered name).2 := by
    intro other hne h
    rcases hcases with ⟨hsame, -⟩ | ⟨hfresh, -⟩
    · exact hne (hs.injective _ _ _ h hsame)
    · have hlt := hs.lt_fresh _ _ h
      rw [hfresh] at hlt
      exact Nat.lt_irrefl _ hlt
  constructor
  · intro other lock h
    rcases hold other lock h with ⟨-, rfl⟩ | ⟨-, htable⟩
    · rcases hcases with ⟨hsame, hfresh⟩ | ⟨hlock, hfresh⟩
      · rw [hfresh]
        exact hs.lt_fresh _ _ hsame
      · rw [hlock, hfresh]
        exact Nat.lt_succ_self _
    · have hlt := hs.lt_fresh _ _ htable
      rcases hcases with ⟨-, hfresh⟩ | ⟨-, hfresh⟩
      · rw [hfresh]
        exact hlt
      · rw [hfresh]
        exact Nat.lt_succ_of_lt hlt
  · intro first second lock h h'
    rcases hold first lock h with ⟨rfl, rfl⟩ | ⟨hne, htable⟩
    · rcases hold second _ h' with ⟨rfl, -⟩ | ⟨hne', htable'⟩
      · rfl
      · exact absurd htable' (hnew second hne')
    · rcases hold second lock h' with ⟨rfl, rfl⟩ | ⟨-, htable'⟩
      · exact absurd htable (hnew first hne)
      · exact hs.injective _ _ _ htable htable'
  · intro lock hlock
    rw [handles_obtain] at hlock
    rcases List.mem_cons.mp hlock with rfl | hlive
    · exact ⟨name, getElem?_obtain_self⟩
    · obtain ⟨other, htable⟩ := hs.live lock hlive
      exact ⟨other, getElem?_obtain_of_live htable hlive⟩

/-- **Dropping a handle keeps the table sound.** -/
theorem Sound.drop (hs : locks.Sound) (lock : LockId) : (locks.drop lock).Sound :=
  ⟨hs.lt_fresh, hs.injective, fun _ hlock => hs.live _ (List.mem_of_mem_erase hlock)⟩

/-! ## Handles in somebody's hands -/

/-- The live handles are those of a list, which has each with the name it was obtained under, and
each is a handle on the lock of its name. -/
structure Issued (locks : RotationLocks) (claims : List (String × LockId)) : Prop where
  sound : locks.Sound
  handles : locks.handles.Perm (claims.map Prod.snd)
  own : ∀ claim ∈ claims, locks.table[claim.1]? = some claim.2

namespace Issued

variable {claims claims' : List (String × LockId)}

theorem empty : Issued {} [] :=
  ⟨sound_empty, .nil, nofun⟩

/-- The order of the handles does not matter. -/
theorem perm (h : locks.Issued claims) (hperm : claims.Perm claims') : locks.Issued claims' :=
  ⟨h.sound, h.handles.trans (hperm.map _), fun claim hclaim =>
    h.own claim (hperm.mem_iff.mpr hclaim)⟩

theorem mem_handles_iff (h : locks.Issued claims) :
    lock ∈ locks.handles ↔ ∃ name, (name, lock) ∈ claims := by
  rw [h.handles.mem_iff, List.mem_map]
  constructor
  · rintro ⟨claim, hclaim, rfl⟩
    exact ⟨claim.1, hclaim⟩
  · rintro ⟨name, hclaim⟩
    exact ⟨(name, lock), hclaim, rfl⟩

/-- **Handles that were obtained under one name are handles on one lock.** -/
theorem lock_eq (h : locks.Issued claims) {lock' : LockId} (hclaim : (name, lock) ∈ claims)
    (hclaim' : (name, lock') ∈ claims) : lock = lock' :=
  Option.some.inj ((h.own _ hclaim).symm.trans (h.own _ hclaim'))

/-- A handle is obtained. -/
theorem obtain (h : locks.Issued claims) (registered : Std.ExtTreeSet String) (name : String) :
    (locks.obtain registered name).1.Issued
      ((name, (locks.obtain registered name).2) :: claims) := by
  refine ⟨h.sound.obtain registered name, ?_, List.forall_mem_cons.mpr ⟨?_, fun claim hclaim => ?_⟩⟩
  · rw [handles_obtain]
    exact h.handles.cons _
  · exact getElem?_obtain_self
  · -- the handle of another is live, and so its lock survives the pruning
    have hlive : claim.2 ∈ locks.handles := h.mem_handles_iff.mpr ⟨claim.1, hclaim⟩
    exact getElem?_obtain_of_live (h.own claim hclaim) hlive

/-- A handle is dropped. -/
theorem drop (h : locks.Issued ((name, lock) :: claims)) : (locks.drop lock).Issued claims := by
  refine ⟨h.sound.drop lock, ?_, (List.forall_mem_cons.mp h.own).2⟩
  have hperm := h.handles.erase lock
  rwa [List.map_cons, List.erase_cons_head] at hperm

end Issued
end Rollover.RotationLocks
