import Rollover.Installation
import Rollover.Proofs.BestEffort

/-!
# Whether jobs are taken on makes no difference

Take the same operations twice, on the same engine with the same faults before it, and put another
clerk at the desk the second time.  Each clerk takes jobs on or turns them away as it likes, and may
look at everything that has happened so far; it does not touch the engine.  Then the callers learn
the same, the engine is called in the same way and is the same in the end, and the same jobs are
handed over (`Proceedings.performEach_agree`).  The activity logs may differ in notes that a rebuild
was not taken on.  There are exactly as many of these as rebuilds that were not taken on.

Two runs *agree* in this sense (`Proceedings.Agree`) at every point that both reach without a note
being due in between.  Since operations are best effort, it is enough that agreement is kept by each
single call, by each entry, and by handing over a job together with its note
(`Proceedings.handler_matches`).

The engine is an arbitrary state machine here, so what is said holds for an engine in memory behind
any faults; `Installation.run_performEach_agree` says it of whole installations.
-/

namespace Rollover

open Program

variable {α σ τ τ' : Type}

/-! ## Several operations -/

/-- Performs operations one after the other. -/
def performEach (maxSegments : UInt32) : List Operation → Program (List Finished)
  | [] => pure []
  | operation :: operations => do
    let result ← operation.program maxSegments
    let results ← performEach maxSegments operations
    return ⟨operation, result⟩ :: results

theorem bestEffort_performEach (maxSegments : UInt32) (operations : List Operation) :
    (performEach maxSegments operations).BestEffort (fun _ => True) fun _ => True := by
  induction operations with
  | nil => exact bestEffort_pure trivial
  | cons operation operations ih =>
    exact (operation.bestEffort_program maxSegments).bind fun _ _ =>
      ih.bind fun _ _ => bestEffort_pure trivial

/-! ## Proceedings -/

/-- An engine, a clerk, and all that has happened between them and the operations. -/
structure Proceedings (σ τ : Type) where
  /-- The engine, with whatever stands before it. -/
  engine : σ
  /-- Who takes jobs. -/
  clerk : τ
  /-- The calls to the engine and their replies, oldest first. -/
  calls : List (Σ request : EngineCall, request.Reply) := []
  /-- The jobs that were handed over, and what the clerk said, oldest first. -/
  offers : List (Job × Except Error Unit) := []
  /-- The activity log, oldest entry first. -/
  entries : List Activity := []

namespace Proceedings

/-- Plays effects on an engine, with a clerk that may look at everything. -/
def handler (respond : σ → (request : EngineCall) → σ × request.Reply)
    (submit : Proceedings σ τ → Job → τ × Except Error Unit) : Handler (Proceedings σ τ) where
  call p request :=
    let (engine, reply) := respond p.engine request
    ({ p with engine := engine, calls := p.calls ++ [⟨request, reply⟩] }, reply)
  submit p job :=
    let (clerk, reply) := submit p job
    ({ p with clerk := clerk, offers := p.offers ++ [(job, reply)] }, reply)
  record p entry := { p with entries := p.entries ++ [entry] }

/-- Two proceedings differ in the clerks alone, and in notes that rebuilds were not taken on. -/
structure Agree (p : Proceedings σ τ) (p' : Proceedings σ τ') : Prop where
  engine : p.engine = p'.engine
  calls : p.calls = p'.calls
  jobs : p.offers.map Prod.fst = p'.offers.map Prod.fst
  entries : p.entries.filter (· ≠ .rangesNotRebuilt) = p'.entries.filter (· ≠ .rangesNotRebuilt)

/-- There are as many notes as rebuilds that were not taken on. -/
def Noted (p : Proceedings σ τ) : Prop :=
  p.entries.count .rangesNotRebuilt =
    p.offers.countP fun (job, reply) => job.isRefusedRebuild reply

variable {respond : σ → (request : EngineCall) → σ × request.Reply}
  {submit : Proceedings σ τ → Job → τ × Except Error Unit}
  {submit' : Proceedings σ τ' → Job → τ' × Except Error Unit}
  {p : Proceedings σ τ} {p' : Proceedings σ τ'}

theorem offers_offer (job : Job) : ((handler respond submit).offer p job).offers =
    p.offers ++ [(job, (submit p job).2)] := by
  unfold Handler.offer handler
  dsimp only
  split <;> rfl

theorem entries_offer (job : Job) : ((handler respond submit).offer p job).entries =
    p.entries ++ if job.isRefusedRebuild (submit p job).2 then [.rangesNotRebuilt] else [] := by
  unfold Handler.offer handler
  dsimp only
  split
  · rfl
  · exact (List.append_nil _).symm

theorem Noted.offer (h : p.Noted) (job : Job) : ((handler respond submit).offer p job).Noted := by
  unfold Noted at h ⊢
  rw [offers_offer, entries_offer, List.count_append, List.countP_append, h]
  cases hrefused : job.isRefusedRebuild (submit p job).2 <;> simp [hrefused]

theorem Noted.record (h : p.Noted) {entry : Activity} (hentry : entry ≠ .rangesNotRebuilt) :
    ((handler respond submit).record p entry).Noted := by
  show (p.entries ++ [entry]).count _ = _
  rw [List.count_append, List.count_singleton, if_neg (by simpa using hentry)]
  exact h

/-- Handing over a job is the same to everybody but the clerks. -/
theorem Agree.offer (h : p.Agree p') (job : Job) :
    ((handler respond submit).offer p job).Agree ((handler respond submit').offer p' job) := by
  have hkept : ∀ {τ : Type} (submit : Proceedings σ τ → Job → τ × Except Error Unit)
      (p : Proceedings σ τ), ((handler respond submit).offer p job).engine = p.engine ∧
        ((handler respond submit).offer p job).calls = p.calls ∧
        ((handler respond submit).offer p job).entries.filter (· ≠ .rangesNotRebuilt) =
          p.entries.filter (· ≠ .rangesNotRebuilt) := by
    intro τ submit p
    rw [entries_offer, List.filter_append]
    unfold Handler.offer handler
    dsimp only
    split <;> exact ⟨rfl, rfl, by simp⟩
  obtain ⟨hengine, hcalls, hentries⟩ := hkept submit p
  obtain ⟨hengine', hcalls', hentries'⟩ := hkept submit' p'
  constructor
  · rw [hengine, hengine', h.engine]
  · rw [hcalls, hcalls', h.calls]
  · rw [offers_offer, offers_offer, List.map_append, List.map_append, h.jobs]
    rfl
  · rw [hentries, hentries', h.entries]

theorem Agree.record (h : p.Agree p') (entry : Activity) :
    ((handler respond submit).record p entry).Agree
      ((handler respond submit').record p' entry) := by
  refine ⟨h.engine, h.calls, h.jobs, ?_⟩
  show (p.entries ++ [entry]).filter _ = (p'.entries ++ [entry]).filter _
  rw [List.filter_append, List.filter_append, h.entries]

theorem Agree.call (h : p.Agree p') (request : EngineCall) :
    ((handler respond submit).call p request).2 = ((handler respond submit').call p' request).2 ∧
      ((handler respond submit).call p request).1.Agree
        ((handler respond submit').call p' request).1 := by
  have hcall : respond p.engine request = respond p'.engine request := by rw [h.engine]
  unfold handler
  dsimp only
  rw [hcall]
  refine ⟨rfl, rfl, ?_, h.jobs, h.entries⟩
  show p.calls ++ _ = p'.calls ++ _
  rw [h.calls]

/-- **To operations, one clerk is as good as another.** -/
theorem handler_matches : (handler respond submit).Matches (fun _ => True)
    (fun p p' => p.Agree p' ∧ p.Noted ∧ p'.Noted) (handler respond submit') where
  call request h _ := ⟨(h.1.call request).1, (h.1.call request).2, h.2⟩
  record entry h _ hentry :=
    ⟨h.1.record entry, h.2.1.record hentry, h.2.2.record hentry⟩
  offer job h _ := ⟨h.1.offer job, h.2.1.offer job, h.2.2.offer job⟩

/-- **Whether jobs are taken on makes no difference to operations**: with any two clerks they have
the same results, make the same calls, leave the same engine, hand over the same jobs and write the
same entries, apart from one note for each rebuild that is not taken on. -/
theorem performEach_agree (respond : σ → (request : EngineCall) → σ × request.Reply)
    (submit : Proceedings σ τ → Job → τ × Except Error Unit)
    (submit' : Proceedings σ τ' → Job → τ' × Except Error Unit)
    (engine : σ) (clerk : τ) (clerk' : τ') (maxSegments : UInt32) (operations : List Operation) :
    let (p, results) := (performEach maxSegments operations).run (handler respond submit)
      { engine := engine, clerk := clerk }
    let (p', results') := (performEach maxSegments operations).run (handler respond submit')
      { engine := engine, clerk := clerk' }
    results = results' ∧ p.Agree p' ∧ p.Noted ∧ p'.Noted :=
  (bestEffort_performEach maxSegments operations).run_match handler_matches
    ⟨⟨rfl, rfl, rfl, rfl⟩, rfl, rfl⟩

end Proceedings

/-! ## Installations -/

namespace Installation

/-- Two installations have the same engine behind the same faults, were handed over the same jobs,
and have the same activities, apart from notes that rebuilds were not taken on. -/
structure Agree (a b : Installation) : Prop where
  engine : a.engine = b.engine
  jobs : a.desk.record.toList.map Prod.fst = b.desk.record.toList.map Prod.fst
  activities : a.activities.toList.filter (· ≠ .rangesNotRebuilt) =
    b.activities.toList.filter (· ≠ .rangesNotRebuilt)

theorem handler_matches_of_desk :
    handler.Matches (fun _ => True) Agree handler where
  call {a b} request h _ := by
    have hcall : a.engine.perform request = b.engine.perform request := by rw [h.engine]
    unfold handler
    dsimp only
    rw [hcall]
    exact ⟨rfl, rfl, h.jobs, h.activities⟩
  record {a b} entry h _ _ := by
    refine ⟨h.engine, h.jobs, ?_⟩
    show (a.activities.push entry).toList.filter _ = (b.activities.push entry).toList.filter _
    rw [Array.toList_push, Array.toList_push, List.filter_append, List.filter_append, h.activities]
  offer {a b} job h _ := by
    have hkept : ∀ a : Installation, (handler.offer a job).engine = a.engine ∧
        (handler.offer a job).desk.record.toList.map Prod.fst =
          a.desk.record.toList.map Prod.fst ++ [job] ∧
        (handler.offer a job).activities.toList.filter (· ≠ .rangesNotRebuilt) =
          a.activities.toList.filter (· ≠ .rangesNotRebuilt) := by
      intro a
      have hrecord : (a.desk.submit job).1.record.toList.map Prod.fst =
          a.desk.record.toList.map Prod.fst ++ [job] := by
        simp [JobDesk.submit]
      unfold Handler.offer handler
      dsimp only
      split
      · exact ⟨rfl, hrecord, by simp⟩
      · exact ⟨rfl, hrecord, rfl⟩
    obtain ⟨hengine, hjobs, hactivities⟩ := hkept a
    obtain ⟨hengine', hjobs', hactivities'⟩ := hkept b
    refine ⟨?_, ?_, ?_⟩
    · rw [hengine, hengine', h.engine]
    · rw [hjobs, hjobs', h.jobs]
    · rw [hactivities, hactivities', h.activities]

/-- An installation does the same, whoever works at its desk and whether or not the desk is in
order. -/
theorem run_performEach_agree (installation : Installation) (clerk : Clerk) (broken : Bool)
    (maxSegments : UInt32) (operations : List Operation) :
    let other := { installation with
      desk := { installation.desk with clerk := clerk, broken := broken } }
    let (a, results) := installation.run (performEach maxSegments operations)
    let (b, results') := other.run (performEach maxSegments operations)
    results = results' ∧ a.Agree b :=
  (bestEffort_performEach maxSegments operations).run_match handler_matches_of_desk ⟨rfl, rfl, rfl⟩

end Installation
end Rollover
