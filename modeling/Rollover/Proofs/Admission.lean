import Mathlib.Logic.Relation
import Rollover.Installation

/-!
# Ceilings on jobs

A manager takes jobs on one by one, a pool of threads executes them, any number at once, and each
ends in its own time, with a result or in a crash.  A `Workshop` is a manager together with a ledger
of all that: what was taken on, what was turned away and why, what was started, and what has ended.
The manager sees none of it.  It has two counters, which go up when a job is taken on and down when
one ends, and the question is whether they are right.

They are, at every moment (`Workshop.Balanced`).  A counter is the number of jobs of its kind that
were taken on and have not ended.  It never passes the ceiling; as long as it is below, jobs are
taken on, and when it has reached the ceiling they are turned away.  When a job ends there is one to
be counted down, so a counter never stops at zero where it should have gone below.  And every job
that was taken on is either waiting or was started, and waits no more when it is.

What an installation does about its jobs are such steps, and what it does in them is the work of the
job: see `Rollover.Proofs.Execution`, where both are put together.
-/

namespace Rollover

open Installation (JobEnd)

namespace JobManager

variable {manager manager' : JobManager} {job : Job}

/-- At the ceiling of its kind a job is turned away, and nothing changes. -/
theorem submit_of_full (h : manager.limits.get job.kind ≤ manager.running.get job.kind) :
    manager.submit job =
      (manager, .error (.concurrencyLimit job.kind (manager.limits.get job.kind))) := by
  simp only [submit, h, if_true]

/-- Below the ceiling of its kind a job is taken on, and counted. -/
theorem submit_of_room (h : manager.running.get job.kind < manager.limits.get job.kind) :
    manager.submit job =
      ({ manager with
          running := manager.running.modify job.kind (· + 1)
          waiting := manager.waiting ++ [job] }, .ok ()) := by
  simp only [submit, Nat.not_le.mpr h, if_false]

/-- Whether a job is taken on is a matter of the ceiling and the counter of its kind. -/
theorem reply_congr (hlimits : manager'.limits = manager.limits)
    (hrunning : manager'.running.get job.kind = manager.running.get job.kind) :
    (manager'.submit job).2 = (manager.submit job).2 := by
  simp only [submit, hlimits, hrunning]
  split <;> rfl

end JobManager

/-- A manager, and a ledger of all jobs. -/
structure Workshop where
  /-- The manager. -/
  manager : JobManager
  /-- The jobs that were taken on, oldest first. -/
  admitted : List Job := []
  /-- The jobs that were turned away, with the reason, oldest first. -/
  rejected : List (Job × Error) := []
  /-- The jobs whose execution has begun, oldest first. -/
  started : List Job := []
  /-- The jobs that are being executed. -/
  executing : List Job := []
  /-- The jobs whose execution has ended, oldest first. -/
  ended : List (Job × JobEnd) := []

namespace Workshop

/-- A workshop that nobody has given a job to. -/
def ofSettings (settings : Settings) : Workshop :=
  { manager := .ofSettings settings }

/-- How many jobs of a kind are counted as running. -/
def running (w : Workshop) (kind : JobKind) : Nat :=
  w.manager.running.get kind

/-- How many jobs of a kind may be running. -/
def limit (w : Workshop) (kind : JobKind) : Nat :=
  w.manager.limits.get kind

/-- Hands over a job. -/
def submit (w : Workshop) (job : Job) : Workshop :=
  match w.manager.submit job with
  | (manager, .ok ()) => { w with manager := manager, admitted := w.admitted ++ [job] }
  | (manager, .error cause) =>
    { w with manager := manager, rejected := w.rejected ++ [(job, cause)] }

/-- Begins to execute a job. -/
def start (w : Workshop) (job : Job) : Workshop :=
  { w with
    manager := w.manager.take job
    started := w.started ++ [job]
    executing := w.executing ++ [job] }

/-- The end of the execution of a job. -/
def finish (w : Workshop) (job : Job) (ending : JobEnd) : Workshop :=
  { w with
    manager := w.manager.release job.kind
    executing := w.executing.erase job
    ended := w.ended ++ [(job, ending)] }

/-- Something happens to a job. -/
inductive Step : Workshop → Job → Workshop → Prop
  /-- It is handed over. -/
  | submit (w : Workshop) (job : Job) : Step w job (w.submit job)
  /-- Its execution begins. -/
  | start (w : Workshop) (job : Job) (h : job ∈ w.manager.waiting) : Step w job (w.start job)
  /-- Its execution ends, in one way or another. -/
  | finish (w : Workshop) (job : Job) (ending : JobEnd) (h : job ∈ w.executing) :
    Step w job (w.finish job ending)

/-- A workshop gets from one state to another. -/
abbrev Reaches : Workshop → Workshop → Prop :=
  Relation.ReflTransGen fun w w' => ∃ job, Step w job w'

variable {w w' : Workshop} {job : Job} {kind : JobKind}

theorem submit_of_full (h : w.limit job.kind ≤ w.running job.kind) :
    w.submit job =
      { w with
        rejected := w.rejected ++ [(job, .concurrencyLimit job.kind (w.limit job.kind))] } := by
  unfold submit
  rw [JobManager.submit_of_full h]
  rfl

theorem submit_of_room (h : w.running job.kind < w.limit job.kind) :
    w.submit job =
      { w with
        manager := {
          w.manager with
          running := w.manager.running.modify job.kind (· + 1)
          waiting := w.manager.waiting ++ [job] }
        admitted := w.admitted ++ [job] } := by
  unfold submit
  rw [JobManager.submit_of_room h]

/-- The counters and the ledger agree. -/
structure Balanced (settings : Settings) (w : Workshop) : Prop where
  limits : w.manager.limits = (JobManager.ofSettings settings).limits
  /-- What is counted is what waits or is being executed. -/
  running : ∀ kind, w.running kind =
    (w.manager.waiting ++ w.executing).countP fun job => job.kind = kind
  bounded : ∀ kind, w.running kind ≤ w.limit kind
  /-- What was taken on is waiting, or was started. -/
  admitted : w.admitted.Perm (w.manager.waiting ++ w.started)
  /-- What was started is being executed, or has ended. -/
  started : w.started.Perm (w.executing ++ w.ended.map Prod.fst)
  rejected : ∀ entry ∈ w.rejected,
    entry.2 = .concurrencyLimit entry.1.kind (w.limit entry.1.kind)

theorem balanced_ofSettings (settings : Settings) : (ofSettings settings).Balanced settings := by
  refine ⟨rfl, fun kind => ?_, fun kind => ?_, .refl _, .refl _, nofun⟩
  · cases kind <;> rfl
  · cases kind <;> exact Nat.zero_le _

/-- What is taken from one list and put at the end of another. -/
theorem perm_of_mem {α : Type} [BEq α] [LawfulBEq α] {a : α} {l : List α} (h : a ∈ l)
    (l' : List α) : (l.erase a ++ (l' ++ [a])).Perm (l ++ l') := by
  rw [← List.append_assoc]
  exact (List.perm_append_singleton a _).trans ((List.perm_cons_erase h).symm.append_right l')

/-- What is put at the end of two lists may as well be put between them. -/
theorem perm_append_middle {α : Type} (l l' : List α) (a : α) :
    (l ++ l' ++ [a]).Perm (l ++ [a] ++ l') := by
  rw [List.append_assoc, List.append_assoc]
  exact List.perm_append_comm.append_left l

/-- Handing over a job keeps the balance. -/
theorem Balanced.submit {settings : Settings} (h : w.Balanced settings) (job : Job) :
    (w.submit job).Balanced settings := by
  rcases Nat.lt_or_ge (w.running job.kind) (w.limit job.kind) with hroom | hfull
  · rw [submit_of_room hroom]
    have hup : ∀ kind, (w.manager.running.modify job.kind (· + 1)).get kind =
        if kind = job.kind then w.running kind + 1 else w.running kind := fun kind =>
      PerKind.get_modify _ _ _ _
    refine ⟨h.limits, fun kind => (hup kind).trans ?_,
      fun kind => Nat.le_trans (Nat.le_of_eq (hup kind)) ?_, ?_, h.started, h.rejected⟩
    · rw [h.running kind, List.append_assoc, List.countP_append, List.countP_append,
        List.countP_append, List.countP_singleton]
      by_cases hkind : kind = job.kind
      · simp only [hkind, if_true, decide_true]
        omega
      · simp only [hkind, Ne.symm hkind, if_false, decide_false, Bool.false_eq_true]
        omega
    · split
      · next hkind => exact hkind ▸ hroom
      · exact h.bounded kind
    · exact (h.admitted.append_right [job]).trans (perm_append_middle _ _ job)
  · rw [submit_of_full hfull]
    refine ⟨h.limits, h.running, h.bounded, h.admitted, h.started, fun entry hentry => ?_⟩
    rcases List.mem_append.mp hentry with hold | hnew
    · exact h.rejected entry hold
    · rw [List.mem_singleton.mp hnew]
      rfl

/-- Beginning to execute a job keeps the balance. -/
theorem Balanced.start {settings : Settings} (h : w.Balanced settings)
    (hjob : job ∈ w.manager.waiting) : (w.start job).Balanced settings := by
  refine ⟨h.limits, fun kind => ?_, h.bounded, ?_, ?_, h.rejected⟩
  · exact (h.running kind).trans ((perm_of_mem hjob w.executing).symm.countP_eq _)
  · exact h.admitted.trans (perm_of_mem hjob w.started).symm
  · exact (h.started.append_right [job]).trans (perm_append_middle _ _ job)

/-- The end of a job is counted down, and there is something to count down from. -/
theorem Balanced.running_finish {settings : Settings} (h : w.Balanced settings)
    (hjob : job ∈ w.executing) (ending : JobEnd) (kind : JobKind) :
    (w.finish job ending).running kind + (if kind = job.kind then 1 else 0) = w.running kind ∧
      (w.finish job ending).running kind =
        (w.manager.waiting ++ w.executing.erase job).countP fun job => job.kind = kind := by
  have hcounted := h.running kind
  rw [((List.perm_cons_erase hjob).append_left w.manager.waiting).countP_eq, List.countP_append,
    List.countP_cons] at hcounted
  have hdown : (w.finish job ending).running kind =
      if kind = job.kind then w.running kind - 1 else w.running kind :=
    PerKind.get_modify _ _ _ _
  rw [hdown, List.countP_append]
  by_cases hkind : kind = job.kind
  · rw [if_pos (by simp [hkind])] at hcounted
    rw [if_pos hkind, if_pos hkind]
    omega
  · rw [if_neg (by simp [Ne.symm hkind])] at hcounted
    rw [if_neg hkind, if_neg hkind]
    omega

/-- The end of a job keeps the balance. -/
theorem Balanced.finish {settings : Settings} (h : w.Balanced settings) (hjob : job ∈ w.executing)
    (ending : JobEnd) : (w.finish job ending).Balanced settings := by
  have hrunning := h.running_finish hjob ending
  refine ⟨h.limits, fun kind => (hrunning kind).2, fun kind => ?_, h.admitted, ?_, h.rejected⟩
  · exact Nat.le_trans (Nat.le.intro (hrunning kind).1) (h.bounded kind)
  · show w.started.Perm (w.executing.erase job ++ (w.ended ++ [(job, ending)]).map Prod.fst)
    rw [List.map_append]
    exact h.started.trans (perm_of_mem hjob _).symm

/-- **Whatever happens to a job, the balance is kept.** -/
theorem Step.balanced {settings : Settings} (hstep : Step w job w') (h : w.Balanced settings) :
    w'.Balanced settings := by
  cases hstep with
  | submit => exact h.submit job
  | start hjob => exact h.start hjob
  | finish ending hjob => exact h.finish hjob ending

theorem Reaches.balanced {settings : Settings} (hreaches : Reaches w w')
    (h : w.Balanced settings) : w'.Balanced settings := by
  induction hreaches with
  | refl => exact h
  | tail _ hstep ih =>
    obtain ⟨job, hstep⟩ := hstep
    exact hstep.balanced ih

/-- A job changes nothing for the other kind. -/
theorem Step.running_of_ne (hstep : Step w job w') (hkind : kind ≠ job.kind) :
    w'.running kind = w.running kind := by
  cases hstep with
  | submit =>
    rcases Nat.lt_or_ge (w.running job.kind) (w.limit job.kind) with hroom | hfull
    · rw [submit_of_room hroom]
      exact PerKind.get_modify_of_ne _ hkind _
    · rw [submit_of_full hfull]
      rfl
  | start => rfl
  | finish => exact PerKind.get_modify_of_ne _ hkind _

theorem Step.limits (hstep : Step w job w') : w'.manager.limits = w.manager.limits := by
  cases hstep with
  | submit =>
    rcases Nat.lt_or_ge (w.running job.kind) (w.limit job.kind) with hroom | hfull
    · rw [submit_of_room hroom]
    · rw [submit_of_full hfull]
  | start => rfl
  | finish => rfl

/-- What is left to do: each job that waits has to be started, and each that was started has to
end. -/
def pending (w : Workshop) : Nat :=
  2 * w.manager.waiting.length + w.executing.length

/-- **All jobs that were taken on can be executed to their end**, without anything else happening in
between. -/
theorem exists_drained (w : Workshop) : ∃ w', Reaches w w' ∧ w'.admitted = w.admitted ∧
    w'.rejected = w.rejected ∧ w'.manager.waiting = [] ∧ w'.executing = [] := by
  induction hpending : w.pending using Nat.strongRecOn generalizing w with
  | ind n ih =>
    subst hpending
    cases hwaiting : w.manager.waiting with
    | cons job jobs =>
      have hless : (w.start job).pending < w.pending := by
        simp [pending, start, JobManager.take, hwaiting]
        omega
      obtain ⟨w', hreaches, hdrained⟩ := ih _ hless _ rfl
      have hstep : Step w job (w.start job) := .start w job (hwaiting ▸ List.mem_cons_self)
      exact ⟨w', .head ⟨job, hstep⟩ hreaches, hdrained⟩
    | nil =>
      cases hexecuting : w.executing with
      | cons job jobs =>
        have hless : (w.finish job .crashed).pending < w.pending := by
          simp [pending, finish, JobManager.release, hwaiting, hexecuting]
        obtain ⟨w', hreaches, hdrained⟩ := ih _ hless _ rfl
        have hstep : Step w job (w.finish job .crashed) :=
          .finish w job .crashed (hexecuting ▸ List.mem_cons_self)
        exact ⟨w', .head ⟨job, hstep⟩ hreaches, hdrained⟩
      | nil => exact ⟨w, .refl, rfl, rfl, hwaiting, hexecuting⟩

end Workshop
end Rollover
