import Mathlib.Logic.Relation
import Rollover.Proofs.Locks

/-!
# One at a time

Whoever wants to work on a group *visits* it.  A visit first reads which names are registered.  Then
it prunes the table of locks by what it has read and obtains a handle on the lock of the group's
name, in one go, since the table itself is locked meanwhile.  It waits for the lock, is inside,
leaves, and drops its handle.  Any number of visits are on their way at any time (`Traffic`), each
of them takes its next step when it likes, and the registry can be replaced in between by whatever
one pleases, also between the moment at which a visit reads it and the moment at which it prunes.

Pruning takes a lock out of the table whose name was not registered, but only if nobody has a handle
on it.  This is what keeps visits apart: a lock that somebody waits for or works under stays in the
table, and so whoever comes later obtains a handle on the very same lock (`Traffic.Orderly`).
Therefore two visits are never inside under one name, however often the name is unregistered and
registered again in the meantime (`Traffic.excludes`).

A handle can be dropped at any moment, even while somebody else is pruning the table.  That does not
matter, because what becomes of a lock is decided by the handles on it and by nothing else
(`RotationLocks.getElem?_pruned_drop`).
-/

namespace Rollover

/-- How far a visit has got. -/
inductive Access where
  /-- It has read which names are registered. -/
  | called (registered : Std.ExtTreeSet String)
  /-- It has a handle on a lock, and waits for the lock. -/
  | waiting (lock : LockId)
  /-- It has the lock. -/
  | inside (lock : LockId)
  /-- It has given the lock back, and still has the handle. -/
  | leaving (lock : LockId)

namespace Access

/-- The lock that the visit has a handle on. -/
def handle? : Access → Option LockId
  | called _ => none
  | waiting lock | inside lock | leaving lock => some lock

/-- The lock that the visit has taken. -/
def taken? : Access → Option LockId
  | inside lock => some lock
  | called _ | waiting _ | leaving _ => none

/-- Who has taken a lock has a handle on it. -/
theorem handle?_of_taken? {access : Access} {lock : LockId} (h : access.taken? = some lock) :
    access.handle? = some lock := by
  cases access with
  | inside => exact h
  | called | waiting | leaving => cases h

end Access

/-- Somebody on the way to work on a group. -/
structure Visit where
  /-- The full name of the group. -/
  name : String
  /-- How far the visit has got. -/
  access : Access

/-- The handle that the visit has, under its name. -/
def Visit.claim? (visit : Visit) : Option (String × LockId) :=
  visit.access.handle?.map fun lock => (visit.name, lock)

theorem Visit.claim?_eq_some_iff {visit : Visit} {name : String} {lock : LockId} :
    visit.claim? = some (name, lock) ↔ visit.name = name ∧ visit.access.handle? = some lock := by
  rw [claim?, Option.map_eq_some_iff]
  constructor
  · rintro ⟨_, hlock, ⟨⟩⟩
    exact ⟨rfl, hlock⟩
  · rintro ⟨rfl, hlock⟩
    exact ⟨lock, hlock, rfl⟩

/-- Whether the visit is inside under a name. -/
def Visit.isInside (name : String) (visit : Visit) : Bool :=
  visit.name = name && visit.access.taken?.isSome

theorem Visit.isInside_iff {name : String} {visit : Visit} : visit.isInside name = true ↔
    visit.name = name ∧ ∃ lock, visit.access.taken? = some lock := by
  rw [isInside, Bool.and_eq_true, decide_eq_true_iff, Option.isSome_iff_exists]

/-- Locks, the names that are registered at the moment, and everybody on the way. -/
structure Traffic where
  /-- The table of locks, and the handles on them. -/
  locks : RotationLocks := {}
  /-- The names that are registered. -/
  registered : Std.ExtTreeSet String
  /-- The visits that have begun and not ended. -/
  visits : List Visit := []

namespace Traffic

/-- One step of somebody. -/
inductive Step : Traffic → Traffic → Prop
  /-- Other names are registered. -/
  | register (t : Traffic) (registered : Std.ExtTreeSet String) :
    Step t { t with registered := registered }
  /-- A visit begins, and reads which names are registered. -/
  | call (t : Traffic) (name : String) :
    Step t { t with visits := t.visits ++ [⟨name, .called t.registered⟩] }
  /-- A visit prunes the table by what it has read, and obtains a handle. -/
  | obtain (locks : RotationLocks) (registered read : Std.ExtTreeSet String) (name : String)
      (before after : List Visit) :
    Step ⟨locks, registered, before ++ ⟨name, .called read⟩ :: after⟩
      ⟨(locks.obtain read name).1, registered,
        before ++ ⟨name, .waiting (locks.obtain read name).2⟩ :: after⟩
  /-- A visit takes its lock, which nobody else has. -/
  | enter (locks : RotationLocks) (registered : Std.ExtTreeSet String) (name : String)
      (lock : LockId) (before after : List Visit)
      (h : ∀ visit ∈ before ++ after, visit.access.taken? ≠ some lock) :
    Step ⟨locks, registered, before ++ ⟨name, .waiting lock⟩ :: after⟩
      ⟨locks, registered, before ++ ⟨name, .inside lock⟩ :: after⟩
  /-- A visit gives its lock back. -/
  | leave (locks : RotationLocks) (registered : Std.ExtTreeSet String) (name : String)
      (lock : LockId) (before after : List Visit) :
    Step ⟨locks, registered, before ++ ⟨name, .inside lock⟩ :: after⟩
      ⟨locks, registered, before ++ ⟨name, .leaving lock⟩ :: after⟩
  /-- A visit drops its handle and is over.  It need not have taken the lock. -/
  | drop (locks : RotationLocks) (registered : Std.ExtTreeSet String) (visit : Visit)
      (lock : LockId) (before after : List Visit) (h : visit.access.handle? = some lock)
      (hout : visit.access.taken? = none) :
    Step ⟨locks, registered, before ++ visit :: after⟩
      ⟨locks.drop lock, registered, before ++ after⟩

/-- Traffic gets from one state to another. -/
abbrev Reaches : Traffic → Traffic → Prop :=
  Relation.ReflTransGen Step

/-- The live handles are issued to the visits on their way, and no lock was taken twice. -/
structure Orderly (t : Traffic) : Prop where
  issued : t.locks.Issued (t.visits.filterMap Visit.claim?)
  taken : (t.visits.filterMap (·.access.taken?)).Nodup

variable {t t' : Traffic} {registered : Std.ExtTreeSet String}

/-- Where nobody is on the way, all is in order. -/
theorem orderly_of_nobody (registered : Std.ExtTreeSet String) :
    Orderly { registered := registered } :=
  ⟨.empty, .nil⟩

/-- What a list has at one place may as well come first. -/
theorem perm_filterMap_middle {α β : Type} (f : α → Option β) (before after : List α) (a : α) :
    ((before ++ a :: after).filterMap f).Perm
      ((f a).toList ++ (before ++ after).filterMap f) := by
  refine (List.perm_middle.filterMap f).trans ?_
  rw [List.filterMap_cons]
  cases f a <;> rfl

/-- What order means to one visit and all others. -/
theorem orderly_iff {locks : RotationLocks} {visit : Visit} {before after : List Visit} :
    Orderly ⟨locks, registered, before ++ visit :: after⟩ ↔
      locks.Issued (visit.claim?.toList ++ (before ++ after).filterMap Visit.claim?) ∧
      (visit.access.taken?.toList ++ (before ++ after).filterMap (·.access.taken?)).Nodup := by
  have hclaims := perm_filterMap_middle Visit.claim? before after visit
  have htook := perm_filterMap_middle (fun visit : Visit => visit.access.taken?) before after visit
  constructor
  · rintro ⟨hissued, htaken⟩
    exact ⟨hissued.perm hclaims, htook.nodup_iff.mp htaken⟩
  · rintro ⟨hissued, htaken⟩
    exact ⟨hissued.perm hclaims.symm, htook.nodup_iff.mpr htaken⟩

/-- **Every step keeps order.** -/
theorem Step.orderly (hstep : Step t t') (h : t.Orderly) : t'.Orderly := by
  cases hstep with
  | register registered => exact ⟨h.issued, h.taken⟩
  | call name =>
    refine orderly_iff.mpr ?_
    rw [List.append_nil]
    exact ⟨h.issued, h.taken⟩
  | obtain locks registered read name before after =>
    obtain ⟨hissued, htaken⟩ := orderly_iff.mp h
    exact orderly_iff.mpr ⟨hissued.obtain read name, htaken⟩
  | enter locks registered name lock before after hfree =>
    obtain ⟨hissued, htaken⟩ := orderly_iff.mp h
    refine orderly_iff.mpr ⟨hissued, List.nodup_cons.mpr ⟨fun hmem => ?_, htaken⟩⟩
    obtain ⟨other, hother, htook⟩ := List.mem_filterMap.mp hmem
    exact hfree other hother htook
  | leave locks registered name lock before after =>
    obtain ⟨hissued, htaken⟩ := orderly_iff.mp h
    exact orderly_iff.mpr ⟨hissued, (List.nodup_cons.mp htaken).2⟩
  | drop locks registered visit lock before after hlock hout =>
    obtain ⟨hissued, htaken⟩ := orderly_iff.mp h
    have hclaim : visit.claim? = some (visit.name, lock) :=
      Visit.claim?_eq_some_iff.mpr ⟨rfl, hlock⟩
    rw [hclaim] at hissued
    rw [hout] at htaken
    exact ⟨hissued.drop, htaken⟩

/-- Traffic that has begun with nobody is in order. -/
theorem Reaches.orderly (hreaches : Reaches t t') (h : t.Orderly) : t'.Orderly := by
  induction hreaches with
  | refl => exact h
  | tail _ hstep ih => exact hstep.orderly ih

namespace Orderly

/-- A handle was issued under a name exactly if a visit under that name has it. -/
theorem mem_claims_iff {name : String} {lock : LockId} :
    (name, lock) ∈ t.visits.filterMap Visit.claim? ↔
      ∃ visit ∈ t.visits, visit.name = name ∧ visit.access.handle? = some lock := by
  simp only [List.mem_filterMap, Visit.claim?_eq_some_iff]

/-- The live handles are those of the visits. -/
theorem handles (h : t.Orderly) :
    t.locks.handles.Perm (t.visits.filterMap (·.access.handle?)) := by
  have hlock : ∀ visit : Visit, visit.claim?.map Prod.snd = visit.access.handle? := by
    intro visit
    rw [Visit.claim?, Option.map_map]
    exact congrFun Option.map_id _
  refine h.issued.handles.trans (.of_eq ?_)
  rw [List.map_filterMap]
  simp only [hlock]

/-- The table has the lock of each handle, under the name of the visit. -/
theorem lock (h : t.Orderly) {visit : Visit} (hvisit : visit ∈ t.visits) {lock : LockId}
    (hlock : visit.access.handle? = some lock) : t.locks.table[visit.name]? = some lock :=
  h.issued.own _ (mem_claims_iff.mpr ⟨visit, hvisit, rfl, hlock⟩)

/-- Handles under one name are handles on one lock. -/
theorem eq_of_name_eq (h : t.Orderly) {visit other : Visit} {lock lock' : LockId}
    (hvisit : visit ∈ t.visits) (hother : other ∈ t.visits) (hname : visit.name = other.name)
    (hlock : visit.access.handle? = some lock) (hlock' : other.access.handle? = some lock') :
    lock = lock' :=
  h.issued.lock_eq (mem_claims_iff.mpr ⟨visit, hvisit, hname, hlock⟩)
    (mem_claims_iff.mpr ⟨other, hother, rfl, hlock'⟩)

/-- **There is at most one visit inside under each name.** -/
theorem countP_isInside_le_one (h : t.Orderly) (name : String) :
    t.visits.countP (Visit.isInside name) ≤ 1 := by
  by_cases hsome : ∃ visit ∈ t.visits, visit.isInside name = true
  · obtain ⟨visit, hvisit, hinside⟩ := hsome
    obtain ⟨hname, lock, hlock⟩ := Visit.isInside_iff.mp hinside
    -- whoever is inside under that name has taken the lock that this one has taken
    have hsame : ∀ other ∈ t.visits, other.isInside name = true →
        (other.access.taken? == some lock) = true := by
      intro other hother hin
      obtain ⟨hname', lock', hlock'⟩ := Visit.isInside_iff.mp hin
      rw [hlock', h.eq_of_name_eq hother hvisit (hname'.trans hname.symm)
        (Access.handle?_of_taken? hlock') (Access.handle?_of_taken? hlock)]
      exact beq_self_eq_true _
    calc t.visits.countP (Visit.isInside name)
        ≤ t.visits.countP fun other => other.access.taken? == some lock :=
          List.countP_mono_left hsame
      _ = (t.visits.filterMap (·.access.taken?)).count lock := (List.count_filterMap ..).symm
      _ ≤ 1 := List.nodup_iff_count.mp h.taken lock
  · rw [List.countP_eq_zero.mpr fun visit hvisit hinside => hsome ⟨visit, hvisit, hinside⟩]
    exact Nat.zero_le 1

/-- What is in the table after a visit has obtained a handle. -/
theorem of_obtain (h : t.Orderly) {read : Std.ExtTreeSet String} {name other : String}
    {lock : LockId} (htable : (t.locks.obtain read name).1.table[other]? = some lock) :
    other ∈ read ∨ (∃ visit ∈ t.visits, visit.name = other ∧ visit.access.handle? = some lock) ∨
      other = name := by
  rw [RotationLocks.getElem?_obtain] at htable
  by_cases hname : other = name
  · exact Or.inr (Or.inr hname)
  rw [if_neg hname] at htable
  obtain ⟨hold, hlive | hread⟩ := RotationLocks.getElem?_pruned.mp htable
  · obtain ⟨owner, hclaim⟩ := h.issued.mem_handles_iff.mp hlive
    obtain ⟨visit, hvisit, rfl, hlock⟩ := mem_claims_iff.mp hclaim
    have hname := h.issued.sound.injective _ _ _ (h.lock hvisit hlock) hold
    exact Or.inr (Or.inl ⟨visit, hvisit, hname, hlock⟩)
  · exact Or.inl hread

end Orderly

/-- **Visits exclude each other.**  In every state of all traffic the live handles are those of the
visits on their way.  All handles under one name are handles on one lock, which is the one that the
table has for it, so at most one visit is inside under each name.  And when a visit has obtained a
handle, the table has no names but those that it has read as registered, those that somebody had a
handle on, and its own. -/
theorem excludes {registered : Std.ExtTreeSet String} {t : Traffic}
    (hreaches : Reaches { registered := registered } t) :
    t.locks.handles.Perm (t.visits.filterMap (·.access.handle?)) ∧
      (∀ visit ∈ t.visits, ∀ lock, visit.access.handle? = some lock →
        t.locks.table[visit.name]? = some lock) ∧
      (∀ visit ∈ t.visits, ∀ other ∈ t.visits, visit.name = other.name → ∀ lock lock',
        visit.access.handle? = some lock → other.access.handle? = some lock' → lock = lock') ∧
      (∀ name, t.visits.countP (Visit.isInside name) ≤ 1) ∧
      ∀ visit ∈ t.visits, ∀ read, visit.access = .called read → ∀ (name : String) (lock : LockId),
        (t.locks.obtain read visit.name).1.table[name]? = some lock →
          name ∈ read ∨
            (∃ other ∈ t.visits, other.name = name ∧ other.access.handle? = some lock) ∨
            name = visit.name := by
  have h := hreaches.orderly (orderly_of_nobody registered)
  refine ⟨h.handles, fun _ hvisit _ => h.lock hvisit, ?_, h.countP_isInside_le_one,
    fun _ _ _ _ _ _ => h.of_obtain⟩
  intro visit hvisit other hother hname lock lock' hlock hlock'
  exact h.eq_of_name_eq hvisit hother hname hlock hlock'

/-- While somebody is inside under a name, the name is unregistered, somebody else prunes the table,
the name is registered again, and another visit under it begins: that one has to wait for the same
lock. -/
theorem excludes_of_registered_again :
    let known : Std.ExtTreeSet String := Std.ExtTreeSet.ofList ["graylog_a"]
    ∃ t : Traffic, Reaches { registered := known } t ∧
      t.visits = [⟨"graylog_a", .inside 0⟩, ⟨"graylog_a", .waiting 0⟩] ∧
      t.locks.table["graylog_a"]? = some 0 ∧ t.visits.countP (Visit.isInside "graylog_a") ≤ 1 := by
  intro known
  let held := (RotationLocks.obtain {} known "graylog_a").1
  let pruned := (held.obtain ∅ "graylog_b").1
  let again := ((pruned.drop 1).obtain known "graylog_a").1
  have hfirst : (RotationLocks.obtain {} known "graylog_a").2 = 0 := by decide +kernel
  have hother : (held.obtain ∅ "graylog_b").2 = 1 := by decide +kernel
  have hsecond : ((pruned.drop 1).obtain known "graylog_a").2 = 0 := by decide +kernel
  have hobtain : Reaches { registered := known } ⟨held, known, [⟨"graylog_a", .waiting 0⟩]⟩ := by
    have hcall : Reaches { registered := known } ⟨{}, known, [⟨"graylog_a", .called known⟩]⟩ :=
      .single (.call _ "graylog_a")
    have hstep := hcall.tail (.obtain {} known known "graylog_a" [] [])
    rwa [hfirst] at hstep
  have henter : Reaches { registered := known } ⟨held, ∅, [⟨"graylog_a", .inside 0⟩]⟩ :=
    (hobtain.tail (.enter held known "graylog_a" 0 [] [] nofun)).tail (.register _ ∅)
  have hprune : Reaches { registered := known }
      ⟨pruned, ∅, [⟨"graylog_a", .inside 0⟩, ⟨"graylog_b", .waiting 1⟩]⟩ := by
    have hstep := (henter.tail (.call _ "graylog_b")).tail
      (.obtain held ∅ ∅ "graylog_b" [⟨"graylog_a", .inside 0⟩] [])
    rwa [hother] at hstep
  have hdrop : Reaches { registered := known }
      ⟨pruned.drop 1, known, [⟨"graylog_a", .inside 0⟩]⟩ :=
    (hprune.tail (.drop pruned ∅ ⟨"graylog_b", .waiting 1⟩ 1 [⟨"graylog_a", .inside 0⟩] [] rfl
      rfl)).tail (.register _ known)
  have hagain : Reaches { registered := known }
      ⟨again, known, [⟨"graylog_a", .inside 0⟩, ⟨"graylog_a", .waiting 0⟩]⟩ := by
    have hstep := (hdrop.tail (.call _ "graylog_a")).tail
      (.obtain (pruned.drop 1) known known "graylog_a" [⟨"graylog_a", .inside 0⟩] [])
    rwa [hsecond] at hstep
  obtain ⟨-, hlock, -, hinside, -⟩ := excludes hagain
  exact ⟨_, hagain, rfl, hlock _ List.mem_cons_self 0 rfl, hinside _⟩

end Traffic
end Rollover
