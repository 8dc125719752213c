import Rollover.Installation
import Rollover.Proofs.Service

/-!
# Installations are services

An installation runs operations to their end, on an engine behind a list of faults.  Some faults
make calls fail, others answer "no" in the engine's place.  As long as "no" is said to creations
only, a fault does nothing that the disturbed environment does not do
(`FaultyEngine.disturbed_perform`).  So an operation that was run on an installation was performed
by a service (`Installation.TurnsDown.performs`), and everything that is proved about services holds
of installations.
-/

namespace Rollover

open Program Environment

namespace Fault

/-- The fault makes calls fail, or creations be refused. -/
def TurnsDown (fault : Fault) : Prop :=
  fault.reply = .no → fault.kind = .createIndex

variable {fault : Fault} {faults : List Fault} {call : EngineCall}

theorem TurnsDown.turnedDown (h : fault.TurnsDown) (hkind : fault.kind = call.kind) :
    call.TurnedDown (fault.reply.to call) := by
  cases hreply : fault.reply with
  | error cause => exact .failed call cause
  | no =>
    have hcreate : call.kind = .createIndex := hkind ▸ h hreply
    cases call with
    | createIndex name => exact .notCreated name
    | listIndices | aliasExists | aliasTarget | deleteIndex | flush | setReadOnly | optimize |
      moveAlias => cases hcreate

/-- Of faults that turn calls down such are left, and if one of them answers a call, it turns it
down. -/
theorem meet_turnsDown (call : EngineCall) (h : ∀ fault ∈ faults, fault.TurnsDown) :
    (∀ fault ∈ (meet call faults).1, fault.TurnsDown) ∧
      ∀ reply, (meet call faults).2 = some reply → call.TurnedDown reply := by
  induction faults with
  | nil => exact ⟨h, nofun⟩
  | cons fault faults ih =>
    obtain ⟨hfault, hfaults⟩ := List.forall_mem_cons.mp h
    by_cases hkind : fault.kind = call.kind
    · cases hafter : fault.after with
      | zero =>
        simp only [meet, hkind, if_true, hafter]
        refine ⟨hfaults, fun reply hreply => ?_⟩
        rw [← Option.some.inj hreply]
        exact hfault.turnedDown hkind
      | succ after =>
        simp only [meet, hkind, if_true, hafter]
        refine ⟨List.forall_mem_cons.mpr ⟨?_, hfaults⟩, nofun⟩
        exact fun hno => hkind ▸ hfault hno
    · simp only [meet, hkind, if_false]
      obtain ⟨hleft, hreply⟩ := ih hfaults
      exact ⟨List.forall_mem_cons.mpr ⟨hfault, hleft⟩, hreply⟩

end Fault

/-- A call that meets faults is disturbed. -/
theorem FaultyEngine.disturbed_perform {state : FaultyEngine}
    (h : ∀ fault ∈ state.faults, fault.TurnsDown) (call : EngineCall) :
    disturbed state.engine (.call call) (state.perform call).2 (state.perform call).1.engine ∧
      ∀ fault ∈ (state.perform call).1.faults, fault.TurnsDown := by
  obtain ⟨hleft, hreply⟩ := Fault.meet_turnsDown call h
  unfold FaultyEngine.perform
  cases hmeet : Fault.meet call state.faults with
  | mk faults answer =>
    rw [hmeet] at hleft hreply
    cases answer with
    | some reply => exact ⟨Or.inr ⟨hreply reply rfl, rfl⟩, hleft⟩
    | none => exact ⟨Or.inl rfl, hleft⟩

namespace Installation

variable {α : Type} {installation : Installation}

/-- A program that was run got to its end step by step, in any environment that has room for what
the installation does about effects. -/
theorem leads_run_of {env : Environment} {fit : Installation → Prop}
    (hhandle : ∀ (installation : Installation) (effect : Effect), fit installation →
      env installation.engine.engine effect (handler.handle installation effect).2
          (handler.handle installation effect).1.engine.engine ∧
        fit (handler.handle installation effect).1)
    (h : fit installation) (p : Program α) (past : List Moment) :
    ∃ past', Leads env (p, ⟨installation.engine.engine, past⟩)
      (.done (installation.run p).2, ⟨(installation.run p).1.engine.engine, past'⟩) := by
  unfold Installation.run
  induction p generalizing installation past with
  | done result => exact ⟨past, .refl⟩
  | perform effect next ih =>
    obtain ⟨henv, hnext⟩ := hhandle installation effect h
    obtain ⟨past', hleads⟩ := ih (handler.handle installation effect).2 hnext
      (⟨installation.engine.engine, effect, (handler.handle installation effect).2⟩ :: past)
    rw [run_perform]
    exact ⟨past', .head (.perform henv) hleads⟩

/-- The faults of the installation make calls fail, or creations be refused. -/
def TurnsDown (installation : Installation) : Prop :=
  ∀ fault ∈ installation.engine.faults, fault.TurnsDown

/-- What an installation does about an effect is a disturbance of its engine. -/
theorem TurnsDown.disturbed_handle (h : installation.TurnsDown) (effect : Effect) :
    disturbed installation.engine.engine effect (handler.handle installation effect).2
        (handler.handle installation effect).1.engine.engine ∧
      (handler.handle installation effect).1.TurnsDown := by
  cases effect with
  | call request => exact FaultyEngine.disturbed_perform h request
  | submit job => exact ⟨rfl, h⟩
  | record entry => exact ⟨rfl, h⟩

/-- A program that was run got to its end step by step. -/
theorem TurnsDown.leads_run (h : installation.TurnsDown) (p : Program α) (past : List Moment) :
    ∃ past', Leads disturbed (p, ⟨installation.engine.engine, past⟩)
      (.done (installation.run p).2, ⟨(installation.run p).1.engine.engine, past'⟩) :=
  leads_run_of (fun _ effect hfit => hfit.disturbed_handle effect) h p past

/-- **An operation that was run on an installation was performed by a service.** -/
theorem TurnsDown.performs (h : installation.TurnsDown) (operation : Operation)
    (maxSegments : UInt32) (past : List Moment) (finished : List Finished) :
    let after := installation.run (operation.program maxSegments)
    ∃ past', Service.Performs maxSegments ⟨⟨installation.engine.engine, past⟩, finished, none⟩
      operation after.2
      ⟨⟨after.1.engine.engine, past'⟩, finished ++ [⟨operation, after.2⟩], none⟩ := by
  obtain ⟨past', hleads⟩ := h.leads_run (operation.program maxSegments) past
  exact ⟨past', .of_leads hleads⟩

/-- So an operation leaves a sound engine sound. -/
theorem TurnsDown.sound_run (h : installation.TurnsDown) (hs : installation.engine.engine.Sound)
    (operation : Operation) (maxSegments : UInt32) :
    (installation.run (operation.program maxSegments)).1.engine.engine.Sound := by
  obtain ⟨past', hperforms⟩ := h.performs operation maxSegments [] []
  exact (hperforms.reaches.regular (Service.regular_idle hs)).sound

end Installation
end Rollover
