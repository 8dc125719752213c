import Rollover.Proofs.Conduct

/-!
# A service at work

A `Service` performs operations one after the other, on any groups and in any order.  Its state is a
scene, the results so far, and the operation under way if there is one.  It takes one `Service.Step`
at a time: it begins an operation, performs one effect of it under disturbance, or finishes it; and
between two operations somebody may switch the engine off or on.  So a state that a service
*reaches* need not be one between two operations.  It can be any state between two effects.

While an operation is under way, what is left of it upholds what was proved about the whole.  That
is the invariant, `Service.Regular`.  It turns everything that is known about single operations and
about warranted effects into statements about all runs: the scene evolves
(`Service.Reaches.evolves`), and from one operation to the next there is an induction over the ways
in which they end (`Service.Reaches.settled_induction`).
-/

namespace Rollover

open Program

/-- What a caller can ask a service for. -/
inductive Operation where
  /-- Setting up a group. -/
  | setUp (group : IndexGroup)
  /-- Rotating a group. -/
  | rotate (group : IndexGroup)
  /-- Removing the index of a group that a name stands for. -/
  | removeSegment (group : IndexGroup) (name : String)
  /-- Setting up several groups. -/
  | setUpEach (groups : List IndexGroup)
  deriving DecidableEq, Inhabited, Repr

namespace Operation

/-- What the caller learns. -/
abbrev Result : Operation → Type
  | setUp _ => Outcome SetUp
  | rotate _ => Outcome Rotation
  | removeSegment _ _ => Except Error Bool
  | setUpEach _ => List (IndexGroup × Outcome SetUp)

/-- What is done about it. -/
def program (maxSegments : UInt32) : (operation : Operation) → Program operation.Result
  | setUp group => group.setUp maxSegments
  | rotate group => group.rotate maxSegments
  | removeSegment group name => group.removeSegment name
  | setUpEach groups => Rollover.setUpEach maxSegments groups

/-- How it can end. -/
def Ends (s : Scene) : (operation : Operation) → operation.Result → Scene → Prop
  | setUp group, outcome, s' => SetUpEnd group s s' outcome
  | rotate group, outcome, s' => RotationEnd group s s' outcome
  | removeSegment _ _, _, s' => RemovalEnd s s'
  | setUpEach groups, outcomes, s' => SetUpsEnd s s' outcomes ∧ outcomes.map Prod.fst = groups

theorem upholds_program (operation : Operation) (maxSegments : UInt32) (s : Scene) :
    (operation.program maxSegments).Upholds Environment.disturbed s.Permits
      (fun result s' => operation.Ends s result s') s := by
  cases operation with
  | setUp group => exact upholds_group_setUp group maxSegments s
  | rotate group => exact upholds_group_rotate group maxSegments s
  | removeSegment group name => exact upholds_group_removeSegment group name s
  | setUpEach groups => exact upholds_setUpEach maxSegments groups s

end Operation

/-- An operation under way. -/
structure Task where
  /-- What was asked for. -/
  operation : Operation
  /-- The scene in which it began. -/
  start : Scene
  /-- What is left of it. -/
  rest : Program operation.Result

/-- An operation that has ended. -/
structure Finished where
  /-- What was asked for. -/
  operation : Operation
  /-- What the caller learnt. -/
  result : operation.Result

/-- A service that performs operations one after the other. -/
structure Service where
  /-- The engine, and everything that was done so far. -/
  scene : Scene
  /-- The operations that have ended, oldest first. -/
  finished : List Finished := []
  /-- The operation under way. -/
  task : Option Task := none

namespace Service

/-- A service that has yet to do something. -/
def idle (e : Engine) : Service :=
  { scene := { engine := e } }

/-- One step of a service. -/
inductive Step (maxSegments : UInt32) : Service → Service → Prop
  /-- An operation begins. -/
  | begin (scene : Scene) (finished : List Finished) (operation : Operation) :
    Step maxSegments ⟨scene, finished, none⟩
      ⟨scene, finished, some ⟨operation, scene, operation.program maxSegments⟩⟩
  /-- One effect of the operation under way takes place. -/
  | effect {scene scene' start : Scene} {finished : List Finished} {operation : Operation}
      {rest rest' : Program operation.Result}
      (h : Program.Step Environment.disturbed (rest, scene) (rest', scene')) :
    Step maxSegments ⟨scene, finished, some ⟨operation, start, rest⟩⟩
      ⟨scene', finished, some ⟨operation, start, rest'⟩⟩
  /-- The operation under way ends. -/
  | finish (scene start : Scene) (finished : List Finished) (operation : Operation)
      (result : operation.Result) :
    Step maxSegments ⟨scene, finished, some ⟨operation, start, .done result⟩⟩
      ⟨scene, finished ++ [⟨operation, result⟩], none⟩
  /-- The engine's switches are set between two operations. -/
  | switch (scene : Scene) (finished : List Finished) (unavailable refusesCreates : Bool) :
    Step maxSegments ⟨scene, finished, none⟩
      ⟨scene.switch unavailable refusesCreates, finished, none⟩

/-- A service gets from one state to another. -/
abbrev Reaches (maxSegments : UInt32) : Service → Service → Prop :=
  Relation.ReflTransGen (Step maxSegments)

/-- The engine is sound, and what is left of the operation under way upholds what the operation
upholds. -/
structure Regular (service : Service) : Prop where
  sound : service.scene.engine.Sound
  task : ∀ task, service.task = some task →
    task.start.engine.Sound ∧ task.start.Evolves service.scene ∧
      task.rest.Upholds Environment.disturbed task.start.Permits
        (fun result s' => task.operation.Ends task.start result s') service.scene

theorem regular_idle {e : Engine} (hs : e.Sound) : (idle e).Regular :=
  ⟨hs, fun _ h => nomatch h⟩

variable {maxSegments : UInt32} {S S' : Service}

/-- **A step keeps a service regular, and its scene evolves.** -/
theorem Step.regular (h : Step maxSegments S S') (hregular : S.Regular) :
    S'.Regular ∧ S.scene.Evolves S'.scene := by
  obtain ⟨hs, hstart⟩ := hregular
  cases h with
  | begin scene finished operation =>
    refine ⟨⟨hs, ?_⟩, .refl⟩
    rintro task ⟨⟩
    exact ⟨hs, .refl, operation.upholds_program maxSegments scene⟩
  | effect h =>
    obtain ⟨hstart, hevolves, hupholds⟩ := hstart _ rfl
    have hnext := hupholds.step h
    cases h with
    | perform happens =>
      have hchange := Scene.Change.effect (hupholds.1 hstart) happens
      refine ⟨⟨(hchange.develops hs).sound hs, ?_⟩, .single hchange⟩
      rintro task ⟨⟩
      exact ⟨hstart, hevolves.tail hchange, hnext⟩
  | finish scene start finished operation result =>
    exact ⟨⟨hs, fun _ h => nomatch h⟩, .refl⟩
  | switch scene finished unavailable refusesCreates =>
    have hchange := Scene.Change.switch scene unavailable refusesCreates
    exact ⟨⟨(hchange.develops hs).sound hs, fun _ h => nomatch h⟩,
      .single hchange⟩

/-- The scene between two operations: the present one, or the one in which the operation under way
began. -/
def settled (S : Service) : Scene :=
  match S.task with
  | none => S.scene
  | some task => task.start

theorem settled_of_idle (h : S.task = none) : S.settled = S.scene := by
  rw [settled, h]

theorem Regular.settled_evolves (h : S.Regular) : S.settled.Evolves S.scene := by
  cases htask : S.task with
  | none => exact (settled_of_idle htask).symm ▸ .refl
  | some task =>
    have hsettled : S.settled = task.start := by rw [settled, htask]
    rw [hsettled]
    exact (h.task task htask).2.1

/-- A service performs a whole operation. -/
inductive Performs (maxSegments : UInt32) :
    Service → (operation : Operation) → operation.Result → Service → Prop
  | of_leads {scene scene' : Scene} {finished : List Finished} {operation : Operation}
      {result : operation.Result} (leads : Leads Environment.disturbed
        (operation.program maxSegments, scene) (.done result, scene')) :
    Performs maxSegments ⟨scene, finished, none⟩ operation result
      ⟨scene', finished ++ [⟨operation, result⟩], none⟩

/-- The service after an operation that nothing came in the way of. -/
def after (maxSegments : UInt32) (desk : Scene → Job → Except Error Unit) (S : Service)
    (operation : Operation) : Service :=
  let (scene, result) := (operation.program maxSegments).run (Scene.handler desk) S.scene
  { scene := scene, finished := S.finished ++ [⟨operation, result⟩] }

/-- A service that has nothing else to do can perform any operation. -/
theorem performs_after (S : Service) (hidle : S.task = none)
    (desk : Scene → Job → Except Error Unit) (operation : Operation) :
    Performs maxSegments S operation
      ((operation.program maxSegments).run (Scene.handler desk) S.scene).2
      (S.after maxSegments desk operation) := by
  obtain ⟨scene, finished, task⟩ := S
  subst hidle
  exact .of_leads (leads_run_disturbed (operation.program maxSegments) scene desk)

namespace Performs

variable {operation : Operation} {result : operation.Result}

/-- How the operation has ended. -/
theorem ends (h : Performs maxSegments S operation result S') :
    operation.Ends S.scene result S'.scene := by
  cases h with
  | of_leads hleads => exact (operation.upholds_program maxSegments _).steps hleads

/-- It is done step by step. -/
theorem reaches (h : Performs maxSegments S operation result S') : Reaches maxSegments S S' := by
  have hsteps : ∀ {scene scene' start : Scene} {finished : List Finished}
      {rest rest' : Program operation.Result},
      Leads Environment.disturbed (rest, scene) (rest', scene') →
      Reaches maxSegments ⟨scene, finished, some ⟨operation, start, rest⟩⟩
        ⟨scene', finished, some ⟨operation, start, rest'⟩⟩ := by
    intro scene scene' start finished rest rest' hleads
    generalize hx : (rest', scene') = x at hleads
    induction hleads generalizing rest' scene' with
    | refl =>
      cases hx
      exact .refl
    | tail _ hstep ih =>
      subst hx
      exact .tail (ih rfl) (.effect hstep)
  cases h with
  | of_leads hleads => exact .head (.begin _ _ operation) ((hsteps hleads).tail (.finish _ _ _ _ _))

end Performs

namespace Reaches

theorem regular (h : Reaches maxSegments S S') (hregular : S.Regular) : S'.Regular := by
  induction h with
  | refl => exact hregular
  | tail _ hstep ih => exact (hstep.regular ih).1

/-- **The scene of a service evolves.** -/
theorem evolves (h : Reaches maxSegments S S') (hregular : S.Regular) :
    S.scene.Evolves S'.scene := by
  induction h with
  | refl => exact .refl
  | tail hreaches hstep ih => exact ih.trans (hstep.regular (regular hreaches hregular)).2

/-- **Induction over the operations of a run.**  What holds before the first operation, and is kept
by every way in which an operation can end and by setting the engine's switches, holds between any
two operations. -/
theorem settled_induction {P : Scene → List Finished → Prop} {e : Engine}
    (h : Reaches maxSegments (idle e) S) (hs : e.Sound) (hidle : P { engine := e } [])
    (hends : ∀ (s s' : Scene) (finished : List Finished) (operation : Operation)
      (result : operation.Result), s.engine.Sound → s.Evolves s' → operation.Ends s result s' →
        P s finished → P s' (finished ++ [⟨operation, result⟩]))
    (hswitch : ∀ (s : Scene) (finished : List Finished) (unavailable refusesCreates : Bool),
      P s finished → P (s.switch unavailable refusesCreates) finished) :
    P S.settled S.finished := by
  induction h with
  | refl => exact hidle
  | tail hreaches hstep ih =>
    have hregular := regular hreaches (regular_idle hs)
    cases hstep with
    | begin => exact ih
    | effect => exact ih
    | finish scene start finished operation result =>
      obtain ⟨hstart, hevolves, hupholds⟩ := hregular.task _ rfl
      exact hends _ _ _ _ _ hstart hevolves hupholds ih
    | switch => exact hswitch _ _ _ _ ih

end Reaches
end Service
end Rollover
