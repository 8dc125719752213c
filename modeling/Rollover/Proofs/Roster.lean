import Rollover.Crew
import Rollover.Proofs.Bounds
import Rollover.Proofs.Locks
import Rollover.Proofs.Scene

/-!
# Who holds which lock

What a crew keeps about its workers is just enough to go on: a worker in the middle of a rotation is
a lock and a program.  To say what is going on one must know more: which group it is that is
rotated, and what the rotation has seen and done so far.  A `Post` is a worker with that knowledge,
and a roster is a list of posts.  `Post.worker` forgets what the crew does not keep.

The first thing to say is who holds which lock (`RotationLocks.Held`).  Every worker who waits or
rotates has a handle on the lock of the group's full name, and the locks that are taken are those of
the workers who rotate, one each.  So there are never two at work on groups of one full name
(`RotationLocks.Held.fullName_ne`).  The four ways in which a worker deals with locks keep it so.
-/

namespace Rollover

/-- A rotation under way. -/
structure Ongoing where
  /-- The lock. -/
  lock : LockId
  /-- The group. -/
  group : IndexGroup
  /-- What the rotation has done so far, with the engine as it has left it. -/
  scene : Scene
  /-- What is left of it. -/
  rest : Program (Outcome Rotation)
  /-- How many effects are left at most. -/
  left : Nat

/-- Where a worker is with the rotation at hand. -/
inductive Duty where
  /-- Between two rotations. -/
  | idle
  /-- With a handle on the lock of a group. -/
  | waiting (lock : LockId) (group : IndexGroup)
  /-- In the middle of a rotation. -/
  | rotating (ongoing : Ongoing)

/-- A worker, with all that there is to know about the rotation at hand. -/
structure Post where
  /-- The groups still to rotate, besides the one at hand. -/
  todo : List IndexGroup
  /-- Where the worker is with the one at hand. -/
  duty : Duty := .idle

namespace Post

/-- The worker as the crew has it. -/
def worker (post : Post) : Worker where
  todo := post.todo
  stage := match post.duty with
    | .idle => .idle
    | .waiting lock group => .waiting lock group
    | .rotating ongoing => .rotating ongoing.lock ongoing.rest

/-- The lock that the worker has a handle on, with the group it was obtained for. -/
def claim? (post : Post) : Option (LockId × IndexGroup) :=
  match post.duty with
  | .idle => none
  | .waiting lock group => some (lock, group)
  | .rotating ongoing => some (ongoing.lock, ongoing.group)

/-- The rotation that the worker is in the middle of. -/
def ongoing? (post : Post) : Option Ongoing :=
  match post.duty with
  | .idle | .waiting _ _ => none
  | .rotating ongoing => some ongoing

/-- The groups that the worker has yet to rotate, the one at hand first. -/
def agenda (post : Post) : List IndexGroup :=
  (post.claim?.map Prod.snd).toList ++ post.todo

theorem claim?_of_ongoing? {post : Post} {ongoing : Ongoing} (h : post.ongoing? = some ongoing) :
    post.claim? = some (ongoing.lock, ongoing.group) := by
  obtain ⟨todo, duty⟩ := post
  cases duty with
  | idle | waiting => cases h
  | rotating other =>
    obtain rfl : other = ongoing := Option.some.inj h
    rfl

end Post

/-- The locks that workers have a handle on. -/
def claims (posts : List Post) : List (LockId × IndexGroup) :=
  posts.filterMap Post.claim?

/-- The rotations under way. -/
def ongoings (posts : List Post) : List Ongoing :=
  posts.filterMap Post.ongoing?

theorem mem_claims_of_mem_ongoings {posts : List Post} {ongoing : Ongoing}
    (h : ongoing ∈ ongoings posts) : (ongoing.lock, ongoing.group) ∈ claims posts := by
  obtain ⟨post, hmem, hongoing⟩ := List.mem_filterMap.mp h
  exact List.mem_filterMap.mpr ⟨post, hmem, Post.claim?_of_ongoing? hongoing⟩

/-- Whoever is between two rotations has no lock. -/
theorem claims_of_idle {posts : List Post} (h : ∀ post ∈ posts, post.duty = .idle) :
    claims posts = [] :=
  List.filterMap_eq_nil_iff.mpr fun post hpost => by rw [Post.claim?, h post hpost]

/-- Whoever is between two rotations is in the middle of none. -/
theorem ongoings_of_idle {posts : List Post} (h : ∀ post ∈ posts, post.duty = .idle) :
    ongoings posts = [] :=
  List.filterMap_eq_nil_iff.mpr fun post hpost => by rw [Post.ongoing?, h post hpost]

namespace RotationLocks

/-- Handles and locks are in the hands of the workers. -/
structure Held (locks : RotationLocks) (taken : List LockId) (posts : List Post) : Prop where
  sound : locks.Sound
  /-- The live handles are those of the workers. -/
  handles : locks.handles.Perm ((claims posts).map Prod.fst)
  /-- Each is a handle on the lock of its group's full name. -/
  own : ∀ claim ∈ claims posts, locks.table[claim.2.fullName]? = some claim.1
  /-- The locks that are taken are those of the rotations under way. -/
  busy : taken.Perm ((ongoings posts).map Ongoing.lock)
  /-- No lock is taken twice. -/
  nodup : taken.Nodup

namespace Held

variable {locks : RotationLocks} {taken : List LockId} {posts posts' : List Post}
  {todo : List IndexGroup} {lock : LockId} {group : IndexGroup} {ongoing : Ongoing}

/-- Before anybody has begun, there are no locks. -/
theorem of_idle (h : ∀ post ∈ posts, post.duty = .idle) : Held {} [] posts where
  sound := sound_empty
  handles := by
    rw [claims_of_idle h]
    rfl
  own := by
    rw [claims_of_idle h]
    exact nofun
  busy := by
    rw [ongoings_of_idle h]
    rfl
  nodup := List.nodup_nil

/-- The order of the workers does not matter. -/
theorem perm (h : locks.Held taken posts) (hperm : posts.Perm posts') :
    locks.Held taken posts' where
  sound := h.sound
  handles := h.handles.trans ((hperm.filterMap _).map _)
  own claim hclaim := h.own claim ((hperm.filterMap _).mem_iff.mpr hclaim)
  busy := h.busy.trans ((hperm.filterMap _).map _)
  nodup := h.nodup

/-- Handles are issued to the workers. -/
theorem issued (h : locks.Held taken posts) :
    locks.Issued ((claims posts).map fun claim => (claim.2.fullName, claim.1)) where
  sound := h.sound
  handles := by
    rw [List.map_map]
    exact h.handles
  own := List.forall_mem_map.mpr h.own

theorem of_issued (h : locks.Issued ((claims posts).map fun claim => (claim.2.fullName, claim.1)))
    (hbusy : taken.Perm ((ongoings posts).map Ongoing.lock)) (hnodup : taken.Nodup) :
    locks.Held taken posts where
  sound := h.sound
  handles := by
    have hhandles := h.handles
    rwa [List.map_map] at hhandles
  own := List.forall_mem_map.mp h.own
  busy := hbusy
  nodup := hnodup

/-- The lock of a rotation under way is taken. -/
theorem mem_taken (h : locks.Held taken posts) (hmem : ongoing ∈ ongoings posts) :
    ongoing.lock ∈ taken :=
  h.busy.mem_iff.mpr (List.mem_map_of_mem hmem)

/-- Rotations of one full name under way have one lock. -/
theorem lock_eq (h : locks.Held taken posts) {first second : LockId × IndexGroup}
    (hfirst : first ∈ claims posts) (hsecond : second ∈ claims posts)
    (hname : first.2.fullName = second.2.fullName) : first.1 = second.1 := by
  have hclaim : ∀ claim ∈ claims posts, (claim.2.fullName, claim.1) ∈
      (claims posts).map fun claim => (claim.2.fullName, claim.1) := fun claim hmem =>
    List.mem_map.mpr ⟨claim, hmem, rfl⟩
  exact h.issued.lock_eq (hclaim first hfirst) (hname ▸ hclaim second hsecond)

/-- **No two workers rotate groups of one full name at the same time.** -/
theorem fullName_ne (h : locks.Held taken (⟨todo, .rotating ongoing⟩ :: posts)) {other : Ongoing}
    (hother : other ∈ ongoings posts) : other.group.fullName ≠ ongoing.group.fullName := by
  intro hname
  have hlock : other.lock = ongoing.lock :=
    h.lock_eq (List.mem_cons_of_mem _ (mem_claims_of_mem_ongoings hother)) List.mem_cons_self hname
  have hnodup : (ongoing.lock :: (ongoings posts).map Ongoing.lock).Nodup :=
    h.busy.nodup_iff.mp h.nodup
  exact (List.nodup_cons.mp hnodup).1 (hlock ▸ List.mem_map_of_mem hother)

/-- Nobody rotates a group whose lock is free. -/
theorem fullName_ne_of_free (h : locks.Held taken (⟨todo, .waiting lock group⟩ :: posts))
    (hfree : lock ∉ taken) {other : Ongoing} (hother : other ∈ ongoings posts) :
    other.group.fullName ≠ group.fullName := by
  intro hname
  have hlock : other.lock = lock :=
    h.lock_eq (List.mem_cons_of_mem _ (mem_claims_of_mem_ongoings hother)) List.mem_cons_self hname
  have hmem : other ∈ ongoings (⟨todo, .waiting lock group⟩ :: posts) := hother
  exact hfree (hlock ▸ h.mem_taken hmem)

/-! ### What workers do with locks -/

/-- A worker obtains a handle. -/
theorem obtain (h : locks.Held taken (⟨group :: todo, .idle⟩ :: posts))
    (registered : Std.ExtTreeSet String) :
    (locks.obtain registered group.fullName).1.Held taken
      (⟨todo, .waiting (locks.obtain registered group.fullName).2 group⟩ :: posts) :=
  of_issued (h.issued.obtain registered group.fullName) h.busy h.nodup

/-- A worker takes a lock that is free. -/
theorem take (ongoing : Ongoing)
    (h : locks.Held taken (⟨todo, .waiting ongoing.lock ongoing.group⟩ :: posts))
    (hfree : ongoing.lock ∉ taken) :
    locks.Held (ongoing.lock :: taken) (⟨todo, .rotating ongoing⟩ :: posts) where
  sound := h.sound
  handles := h.handles
  own := h.own
  busy := h.busy.cons ongoing.lock
  nodup := List.nodup_cons.mpr ⟨hfree, h.nodup⟩

/-- A worker goes on with a rotation. -/
theorem goOn (h : locks.Held taken (⟨todo, .rotating ongoing⟩ :: posts)) (scene : Scene)
    (rest : Program (Outcome Rotation)) (left : Nat) :
    locks.Held taken
      (⟨todo, .rotating { ongoing with scene := scene, rest := rest, left := left }⟩ :: posts) where
  sound := h.sound
  handles := h.handles
  own := h.own
  busy := h.busy
  nodup := h.nodup

/-- A worker gives lock and handle back. -/
theorem giveBack (h : locks.Held taken (⟨todo, .rotating ongoing⟩ :: posts)) :
    (locks.drop ongoing.lock).Held (taken.erase ongoing.lock) (⟨todo, .idle⟩ :: posts) := by
  refine of_issued h.issued.drop ?_ (h.nodup.erase _)
  have hperm := h.busy.erase ongoing.lock
  rwa [show (ongoings (⟨todo, .rotating ongoing⟩ :: posts)).map Ongoing.lock =
    ongoing.lock :: (ongoings posts).map Ongoing.lock from rfl, List.erase_cons_head] at hperm

end Held
end RotationLocks
end Rollover
