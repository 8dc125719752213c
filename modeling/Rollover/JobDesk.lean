import Rollover.JobManager

/-!
# Where jobs are handed over

A `JobDesk` is the receiving end of all jobs.  Behind it works one of three clerks: one that writes
the jobs down and turns away the kinds it was told to, one that takes every job and drops it, and a
`JobManager`.  The desk can be out of order, and then no job gets as far as the clerk.  It keeps a
record of what was handed over, and of what became of it.
-/

namespace Rollover

/-- What became of a job that was handed over. -/
inductive Verdict where
  /-- It was taken on. -/
  | admitted
  /-- It was turned away, because its kind was at its ceiling. -/
  | rejected
  /-- It could not be handed over. -/
  | failed
  deriving DecidableEq, Inhabited, Repr

/-- The verdict that the reply to a job amounts to. -/
def Verdict.ofReply : Except Error Unit → Verdict
  | .ok () => .admitted
  | .error (.concurrencyLimit _ _) => .rejected
  | .error _ => .failed

/-- Writes jobs down instead of running them. -/
structure JobRecorder where
  /-- The jobs that were taken on, oldest first. -/
  admitted : List Job := []
  /-- The kinds that are turned away. -/
  rejecting : List JobKind := []
  deriving DecidableEq, Inhabited, Repr

namespace JobRecorder

/-- Writes a job down, unless its kind is turned away. -/
def submit (recorder : JobRecorder) (job : Job) : JobRecorder × Except Error Unit :=
  if job.kind ∈ recorder.rejecting then (recorder, .error (.concurrencyLimit job.kind 0))
  else ({ recorder with admitted := recorder.admitted ++ [job] }, .ok ())

/-- Turns a kind away from now on. -/
def turnAway (recorder : JobRecorder) (kind : JobKind) : JobRecorder :=
  { recorder with rejecting := kind :: recorder.rejecting.filter (· != kind) }

/-- Takes a kind on again. -/
def takeOn (recorder : JobRecorder) (kind : JobKind) : JobRecorder :=
  { recorder with rejecting := recorder.rejecting.filter (· != kind) }

/-- Forgets all jobs. -/
def clear (recorder : JobRecorder) : JobRecorder :=
  { recorder with admitted := [] }

end JobRecorder

/-- Who works behind a desk. -/
inductive Clerk where
  /-- Jobs are written down. -/
  | recorder (recorder : JobRecorder)
  /-- Jobs are dropped. -/
  | dropper
  /-- Jobs are run, up to a ceiling. -/
  | manager (manager : JobManager)
  deriving Inhabited

namespace Clerk

/-- Hands a job to the clerk. -/
def submit (clerk : Clerk) (job : Job) : Clerk × Except Error Unit :=
  match clerk with
  | recorder r => let (r, reply) := r.submit job; (recorder r, reply)
  | dropper => (dropper, .ok ())
  | manager m => let (m, reply) := m.submit job; (manager m, reply)

/-- Changes a recorder; other clerks have nothing to change. -/
def mapRecorder (clerk : Clerk) (change : JobRecorder → JobRecorder) : Clerk :=
  match clerk with
  | recorder r => recorder (change r)
  | other => other

/-- The jobs that a recorder has written down. -/
def recorded : Clerk → List Job
  | recorder r => r.admitted
  | _ => []

end Clerk

/-- Where jobs are handed over. -/
structure JobDesk where
  /-- Who takes the jobs. -/
  clerk : Clerk := .recorder {}
  /-- Whether no job can be handed over. -/
  broken : Bool := false
  /-- Every job that was handed over, with its verdict, oldest first. -/
  record : Array (Job × Verdict) := #[]
  deriving Inhabited

namespace JobDesk

/-- Hands over a job. -/
def submit (desk : JobDesk) (job : Job) : JobDesk × Except Error Unit :=
  let (clerk, reply) :=
    if desk.broken then (desk.clerk, .error (.store "job queue offline"))
    else desk.clerk.submit job
  ({ desk with clerk := clerk, record := desk.record.push (job, Verdict.ofReply reply) }, reply)

end JobDesk
end Rollover
