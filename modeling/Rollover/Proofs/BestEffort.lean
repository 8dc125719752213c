import Rollover.Proofs.Service
import Rollover.Proofs.Territory

/-!
# Best effort

A job that is handed over may be taken on or turned away, and no operation waits to see which.  That
is a property of the operation's program: from the point where a job is handed over it goes on in
one and the same way, whatever the reply is.  There is one exception.  A rebuild of ranges that
nobody takes on is noted in the activity log, and only after the note do the ways meet again.

`Program.BestEffort` says so of a program as a tree, and says besides that all its effects are
*permitted* and that its result meets a *goal*.  It respects sequencing (`BestEffort.bind`), so the
operations are walked through once, from the smallest to `Operation.bestEffort_program`.  On the way
it is read off what the effects of an operation can be at all: those of a rotation or of setting up
tend to the group's own indices and alias (`Effect.Tends`), apart from the listing at the beginning;
those of a removal delete indices of the group (`Effect.Prunes`).

Two handlers *match* if nothing but replies to jobs tells them apart (`Handler.Matches`).  A
program that is best effort comes to the same result with both (`BestEffort.run_match`).
-/

namespace Rollover

open Program

variable {α β ε σ τ : Type}

/-- Whether a rebuild of ranges was handed over and nobody took it on. -/
def Job.isRefusedRebuild (job : Job) (reply : Except Error Unit) : Bool :=
  match job, reply with
  | .rebuildRanges _, .error _ => true
  | _, _ => false

namespace Program

/-- A program after the note that a rebuild was not taken on, if the note is due. -/
def noting (due : Bool) (rest : Program α) : Program α :=
  if due then perform (.record .rangesNotRebuilt) fun _ => rest else rest

theorem noting_bind (due : Bool) (rest : Program α) (f : α → Program β) :
    noting due rest >>= f = noting due (rest >>= f) := by
  cases due <;> rfl

/-- Each effect is permitted, the result meets the goal, and replies to jobs make no difference
except for the note that a rebuild was not taken on. -/
inductive BestEffort (permitted : Effect → Prop) (goal : α → Prop) : Program α → Prop
  /-- The program has come to its end. -/
  | done {result : α} (h : goal result) : BestEffort permitted goal (.done result)
  /-- The engine is called, and any reply can make a difference. -/
  | call {request : EngineCall} {next : request.Reply → Program α}
      (h : permitted (.call request)) (hnext : ∀ reply, BestEffort permitted goal (next reply)) :
    BestEffort permitted goal (.perform (.call request) next)
  /-- Something is recorded, and it is not the note. -/
  | record {entry : Activity} {next : Unit → Program α} (h : permitted (.record entry))
      (hentry : entry ≠ .rangesNotRebuilt) (hnext : BestEffort permitted goal (next ())) :
    BestEffort permitted goal (.perform (.record entry) next)
  /-- A job is handed over, and the program goes on in one way, after the note if it is due. -/
  | submit {job : Job} {next : Except Error Unit → Program α} {rest : Program α}
      (h : permitted (.submit job)) (hrest : BestEffort permitted goal rest)
      (hnext : ∀ reply, next reply = noting (job.isRefusedRebuild reply) rest) :
    BestEffort permitted goal (.perform (.submit job) next)

variable {permitted permitted' : Effect → Prop} {goal goal' : α → Prop}

theorem bestEffort_pure {result : α} (h : goal result) :
    (pure result : Program α).BestEffort permitted goal := .done h

theorem bestEffort_ask {request : EngineCall} {f : request.Reply → Program α}
    (h : permitted (.call request)) (hf : ∀ reply, (f reply).BestEffort permitted goal) :
    (ask request >>= f).BestEffort permitted goal := .call h hf

theorem bestEffort_record {entry : Activity} {f : Unit → Program α} (h : permitted (.record entry))
    (hentry : entry ≠ .rangesNotRebuilt) (hf : (f ()).BestEffort permitted goal) :
    (Program.record entry >>= f).BestEffort permitted goal := .record h hentry hf

namespace BestEffort

/-- One program that is best effort after another. -/
theorem bind {goal : β → Prop} {p : Program α} {f : α → Program β}
    (h : p.BestEffort permitted goal') (hf : ∀ result, goal' result →
      (f result).BestEffort permitted goal) : (p >>= f).BestEffort permitted goal := by
  induction h with
  | done hgoal => exact hf _ hgoal
  | call hcall hnext ih => exact .call hcall ih
  | record hrecord hentry hnext ih => exact .record hrecord hentry ih
  | submit hsubmit hrest hnext ih =>
    refine .submit hsubmit ih fun reply => ?_
    rw [hnext reply]
    exact noting_bind _ _ f

/-- It may as well permit more and aim at less. -/
theorem imp {p : Program α} (h : p.BestEffort permitted goal)
    (hpermit : ∀ effect, permitted effect → permitted' effect)
    (hgoal : ∀ result, goal result → goal' result) : p.BestEffort permitted' goal' := by
  induction h with
  | done h => exact .done (hgoal _ h)
  | call h hnext ih => exact .call (hpermit _ h) ih
  | record h hentry hnext ih => exact .record (hpermit _ h) hentry ih
  | submit h hrest hnext ih => exact .submit (hpermit _ h) ih hnext

/-- In every environment the effects are permitted ones. -/
theorem upholds {p : Program α} (h : p.BestEffort permitted goal)
    (hnote : permitted (.record .rangesNotRebuilt)) (env : Environment) (s : Scene) :
    p.Upholds env (fun _ effect => permitted effect) (fun result _ => goal result) s := by
  induction h generalizing s with
  | done h => exact h
  | call h hnext ih => exact ⟨h, fun reply engine _ => ih reply _⟩
  | record h hentry hnext ih => exact ⟨h, fun _ engine _ => ih _⟩
  | @submit job next rest h hrest hnext ih =>
    refine ⟨h, fun reply engine _ => ?_⟩
    rw [hnext reply, noting]
    split
    · exact ⟨hnote, fun _ engine _ => ih _⟩
    · exact ih _

end BestEffort
end Program

/-! ## Handlers that match -/

/-- Hands over a job, and writes the note if it is due. -/
def Handler.offer (handler : Handler σ) (state : σ) (job : Job) : σ :=
  let (state, reply) := handler.submit state job
  if job.isRefusedRebuild reply then handler.record state .rangesNotRebuilt else state

/-- Running a program that has handed over a job, and may have a note to write first. -/
theorem Program.run_noting_submit (handler : Handler σ) (state : σ) (job : Job)
    (rest : Program α) :
    (noting (job.isRefusedRebuild (handler.submit state job).2) rest).run handler
      (handler.submit state job).1 = rest.run handler (handler.offer state job) := by
  unfold noting Handler.offer
  dsimp only
  split <;> rfl

/-- Two handlers in related states reply to permitted calls alike, and their states stay related
whatever becomes of jobs. -/
structure Handler.Matches (permitted : Effect → Prop) (R : σ → τ → Prop) (handler : Handler σ)
    (handler' : Handler τ) : Prop where
  call : ∀ {state : σ} {state' : τ} (request : EngineCall), R state state' →
    permitted (.call request) →
      (handler.call state request).2 = (handler'.call state' request).2 ∧
        R (handler.call state request).1 (handler'.call state' request).1
  record : ∀ {state : σ} {state' : τ} (entry : Activity), R state state' →
    permitted (.record entry) → entry ≠ .rangesNotRebuilt →
      R (handler.record state entry) (handler'.record state' entry)
  offer : ∀ {state : σ} {state' : τ} (job : Job), R state state' → permitted (.submit job) →
    R (handler.offer state job) (handler'.offer state' job)

/-- **With handlers that match, a program that is best effort comes to one result**, and leaves
states that are related. -/
theorem Program.BestEffort.run_match {permitted : Effect → Prop} {goal : α → Prop}
    {R : σ → τ → Prop} {handler : Handler σ} {handler' : Handler τ}
    (hmatch : handler.Matches permitted R handler') {p : Program α}
    (h : p.BestEffort permitted goal) {state : σ} {state' : τ} (hstate : R state state') :
    (p.run handler state).2 = (p.run handler' state').2 ∧
      R (p.run handler state).1 (p.run handler' state').1 := by
  induction h generalizing state state' with
  | done => exact ⟨rfl, hstate⟩
  | @call request next hcall hnext ih =>
    obtain ⟨hreply, hrelated⟩ := hmatch.call request hstate hcall
    have hreply' : (handler.handle state (.call request)).2 =
        (handler'.handle state' (.call request)).2 := hreply
    rw [run_perform, run_perform, hreply']
    exact ih _ hrelated
  | record hrecord hentry hnext ih =>
    rw [run_perform, run_perform]
    exact ih (hmatch.record _ hstate hrecord hentry)
  | submit hsubmit hrest hnext ih =>
    rw [run_perform, run_perform, hnext, hnext]
    exact (run_noting_submit handler state _ _).symm ▸
      (run_noting_submit handler' state' _ _).symm ▸ ih (hmatch.offer _ hstate hsubmit)

/-! ## What operations do -/

/-- The effects by which a rotation tends to a group: it asks about the group's alias, changes
indices of the group or the alias, and hands over jobs about the group. -/
inductive Effect.Tends (group : IndexGroup) : Effect → Prop
  | aliasExists : Tends group (.call (.aliasExists group.aliasName))
  | aliasTarget : Tends group (.call (.aliasTarget group.aliasName))
  | createIndex (n : UInt64) : Tends group (.call (.createIndex (group.nameOf n)))
  | flush (n : UInt64) : Tends group (.call (.flush (group.nameOf n)))
  | setReadOnly (n : UInt64) : Tends group (.call (.setReadOnly (group.nameOf n)))
  | moveAlias (n : UInt64) (old : Option String) :
    Tends group (.call (.moveAlias group.aliasName (group.nameOf n) old))
  | submit (job : Job) (h : job.isOf group = true) : Tends group (.submit job)
  | record (entry : Activity) : Tends group (.record entry)

/-- They stay in the group's territory. -/
theorem Effect.Tends.staysIn {group : IndexGroup} {effect : Effect} (h : effect.Tends group) :
    effect.StaysIn group := by
  cases h with
  | aliasExists => exact .ask _ rfl
  | aliasTarget => exact .ask _ rfl
  | createIndex n => exact .createIndex n
  | flush n => exact .flush n
  | setReadOnly n => exact .setReadOnly n
  | moveAlias n old => exact .moveAlias _ old
  | submit job h => exact .submit job h
  | record entry => exact .record entry

/-- The effects of a removal: it asks, deletes indices of the group, and hands over jobs. -/
inductive Effect.Prunes (group : IndexGroup) : Effect → Prop
  | ask (request : EngineCall) (h : request.isMutation = false) : Prunes group (.call request)
  | deleteIndex (n : UInt64) : Prunes group (.call (.deleteIndex (group.nameOf n)))
  | submit (job : Job) (h : job.isOf group = true) : Prunes group (.submit job)
  | record (entry : Activity) : Prunes group (.record entry)

/-- What is left of taking a view once the indices are listed, or the listing has failed. -/
def IndexGroup.complete (group : IndexGroup) :
    Except EngineError GroupView → Program (Except Error GroupView)
  | .error cause => return .error (.engineUnavailable cause)
  | .ok view => do
    if view.collision then return .ok view
    match ← ask (.aliasExists group.aliasName) with
    | .error cause => return .error (.engineUnavailable cause)
    | .ok false => return .ok view
    | .ok true =>
      match ← ask (.aliasTarget group.aliasName) with
      | .error cause => return .error (.engineUnavailable cause)
      | .ok target => return .ok { view with target := target.bind view.held? }

/-- A view is taken by a listing, of which it does not matter what it has besides what the group
sees, and what is left then. -/
theorem IndexGroup.view_eq (group : IndexGroup) :
    group.view = ask .listIndices >>= fun reply =>
      group.complete (reply.map (GroupView.ofListing group)) := by
  unfold IndexGroup.view
  refine bind_congr fun reply => ?_
  cases reply <;> rfl

variable {permitted : Effect → Prop} {group : IndexGroup} {view : GroupView}
  {maxSegments : UInt32}

/-- The view that a result comes with is one of the group. -/
abbrev KeepsGroup (group : IndexGroup) (result : GroupView × β) : Prop :=
  result.1.group = group

/-- If there is a view, it is one of the group. -/
abbrev ViewsGroup (group : IndexGroup) (result : Except ε GroupView) : Prop :=
  ∀ view, result = .ok view → view.group = group

theorem bestEffort_complete {reply : Except EngineError GroupView} (hreply : ViewsGroup group reply)
    (hexists : permitted (.call (.aliasExists group.aliasName)))
    (htarget : permitted (.call (.aliasTarget group.aliasName))) :
    (group.complete reply).BestEffort permitted (ViewsGroup group) := by
  unfold IndexGroup.complete
  cases reply with
  | error cause => exact bestEffort_pure nofun
  | ok view =>
    have hview : ∀ target, ViewsGroup group
        (.ok { view with target := target } : Except Error GroupView) := by
      rintro target _ ⟨⟩
      exact hreply view rfl
    dsimp only
    split
    · exact bestEffort_pure (hview view.target)
    refine bestEffort_ask hexists fun reply => ?_
    rcases reply with cause | ⟨_ | _⟩
    · exact bestEffort_pure nofun
    · exact bestEffort_pure (hview view.target)
    refine bestEffort_ask htarget fun reply => ?_
    cases reply with
    | error cause => exact bestEffort_pure nofun
    | ok target => exact bestEffort_pure (hview _)

/-- Of what is listed a view of the group is made. -/
theorem viewsGroup_map (group : IndexGroup) (reply : Except EngineError Listing) :
    ViewsGroup group (reply.map (GroupView.ofListing group)) := by
  intro view hview
  cases reply with
  | error cause => cases hview
  | ok listing => exact Except.ok.inj hview ▸ rfl

theorem bestEffort_view (hlist : permitted (.call .listIndices))
    (hexists : permitted (.call (.aliasExists group.aliasName)))
    (htarget : permitted (.call (.aliasTarget group.aliasName))) :
    group.view.BestEffort permitted (ViewsGroup group) := by
  rw [IndexGroup.view_eq]
  exact bestEffort_ask hlist fun reply =>
    bestEffort_complete (viewsGroup_map group reply) hexists htarget

theorem bestEffort_offerRebuild (h : permitted (.submit (.rebuildRanges view.group))) :
    view.offerRebuild.BestEffort permitted fun _ => True := by
  have hrest : (Program.done ()).BestEffort permitted fun _ => True := .done trivial
  refine .submit h hrest fun reply => ?_
  cases reply <;> rfl

theorem bestEffort_create (n : UInt64) :
    (view.create (view.segment n)).BestEffort (Effect.Tends view.group)
      (KeepsGroup view.group) := by
  unfold GroupView.create
  simp only [GroupView.requireMember_eq_ok_iff.mpr rfl]
  refine bestEffort_ask (.createIndex n) fun reply => ?_
  rcases reply with cause | ⟨_ | _⟩ <;> exact bestEffort_pure rfl

theorem bestEffort_pointTo (n : UInt64) (old : Option String) :
    (view.pointTo n old).BestEffort (Effect.Tends view.group) (KeepsGroup view.group) := by
  refine bestEffort_ask (.moveAlias n old) fun reply => ?_
  split <;> exact bestEffort_pure rfl

theorem bestEffort_sealIndex (group : IndexGroup) (maxSegments : UInt32) (n : UInt64) :
    (GroupView.sealIndex maxSegments (group.nameOf n)).BestEffort (Effect.Tends group)
      fun _ => True := by
  refine bestEffort_ask (.flush n) fun reply => ?_
  rcases reply with cause | ⟨_ | _⟩
  · exact bestEffort_pure trivial
  · refine bestEffort_ask (.setReadOnly n) fun reply => ?_
    cases reply with
    | error cause => exact bestEffort_pure trivial
    | ok =>
      have hjob : (Job.optimize (group.nameOf n) maxSegments).isOf group = true := by simp
      exact .submit (.submit _ hjob) (bestEffort_pure trivial) fun _ => rfl
  · exact bestEffort_pure trivial

theorem bestEffort_retire (previous : Option UInt64) (next : UInt64) :
    (view.retire maxSegments previous next).BestEffort (Effect.Tends view.group)
      fun _ => True := by
  unfold GroupView.retire
  cases previous with
  | none => exact bestEffort_record (.record _) nofun (bestEffort_pure trivial)
  | some number =>
    refine (bestEffort_sealIndex view.group maxSegments number).bind fun outcome _ => ?_
    cases outcome with
    | error halt => exact bestEffort_pure trivial
    | ok frozen => exact bestEffort_record (.record _) nofun (bestEffort_pure trivial)

theorem bestEffort_rotate (view : GroupView) (maxSegments : UInt32) :
    (view.rotate maxSegments).BestEffort (Effect.Tends view.group) fun _ => True := by
  unfold GroupView.rotate
  split
  · exact bestEffort_pure trivial
  split
  · exact bestEffort_pure trivial
  next next _ =>
  refine bestEffort_ask .aliasTarget fun reply => ?_
  cases reply with
  | error cause => exact bestEffort_pure trivial
  | ok bound =>
    refine (bestEffort_create next).bind fun result hgrown => ?_
    rcases result with ⟨grown, cause | ⟨_ | _⟩⟩
    · exact bestEffort_pure trivial
    · exact bestEffort_pure trivial
    · have hgrown' : grown.group = view.group := hgrown
      rw [← hgrown']
      have hjob := Job.isOf_rebuildRanges grown.group
      refine (bestEffort_offerRebuild (.submit _ hjob)).bind fun _ _ => ?_
      refine (bestEffort_pointTo next bound).bind fun result hmoved => ?_
      rcases result with ⟨moved, cause | ⟨⟩⟩
      · exact bestEffort_pure trivial
      · have hmoved' : moved.group = grown.group := hmoved
        rw [← hmoved']
        exact (bestEffort_retire _ next).bind fun _ _ => bestEffort_pure trivial

theorem bestEffort_setUp (view : GroupView) (maxSegments : UInt32) :
    (view.setUp maxSegments).BestEffort (Effect.Tends view.group) fun _ => True := by
  unfold GroupView.setUp
  split
  · exact bestEffort_pure trivial
  split
  · exact bestEffort_pure trivial
  split
  · exact bestEffort_record (.record _) nofun
      ((bestEffort_rotate view maxSegments).bind fun _ _ => bestEffort_pure trivial)
  next latest _ =>
  refine bestEffort_ask .aliasTarget fun reply => ?_
  cases reply with
  | error cause => exact bestEffort_pure trivial
  | ok stale =>
    refine (bestEffort_pointTo latest stale).bind fun result _ => ?_
    rcases result with ⟨moved, cause | ⟨⟩⟩ <;> exact bestEffort_pure trivial

theorem bestEffort_removeSegment (view : GroupView) (segment : Segment) :
    (view.removeSegment segment).BestEffort (Effect.Prunes view.group) fun _ => True := by
  unfold GroupView.removeSegment
  refine bestEffort_ask (.ask _ rfl) fun reply => ?_
  cases reply with
  | error cause => exact bestEffort_pure trivial
  | ok target =>
    dsimp only
    split
    · exact bestEffort_pure trivial
    have hdelete : (view.delete segment).BestEffort (Effect.Prunes view.group)
        (KeepsGroup view.group) := by
      unfold GroupView.delete
      cases hmember : view.requireMember segment with
      | error cause => exact bestEffort_pure rfl
      | ok n =>
        obtain rfl := GroupView.requireMember_eq_ok_iff.mp hmember
        refine bestEffort_ask (.deleteIndex n) fun reply => ?_
        rcases reply with cause | ⟨_ | _⟩ <;> exact bestEffort_pure rfl
    refine hdelete.bind fun result hshrunk => ?_
    rcases result with ⟨shrunk, cause | ⟨_ | _⟩⟩
    · exact bestEffort_pure trivial
    · exact bestEffort_pure trivial
    · have hshrunk' : shrunk.group = view.group := hshrunk
      rw [← hshrunk']
      have hjob := Job.isOf_rebuildRanges shrunk.group
      exact (bestEffort_offerRebuild (.submit _ hjob)).bind fun _ _ => bestEffort_pure trivial

/-! ## Operations on a group -/

/-- The program lists the indices, makes use of what the group sees of them alone, and then tends to
the group. -/
def Program.TendsTo (group : IndexGroup) (p : Program α) : Prop :=
  ∃ next : Except EngineError GroupView → Program α,
    p = (ask .listIndices >>= fun reply => next (reply.map (GroupView.ofListing group))) ∧
    ∀ reply : Except EngineError Listing, (next (reply.map (GroupView.ofListing group))).BestEffort
      (Effect.Tends group) fun _ => True

/-- What comes after a view that was taken. -/
theorem tendsTo_view_bind {f : Except Error GroupView → Program α}
    (hf : ∀ result, ViewsGroup group result →
      (f result).BestEffort (Effect.Tends group) fun _ => True) :
    (group.view >>= f).TendsTo group := by
  refine ⟨fun reply => group.complete reply >>= f, ?_, fun reply => ?_⟩
  · rw [IndexGroup.view_eq, bind_assoc]
  · exact (bestEffort_complete (viewsGroup_map group reply) .aliasExists .aliasTarget).bind hf

theorem tendsTo_withView {operation : GroupView → Program (GroupView × Outcome α)}
    (h : ∀ view, (operation view).BestEffort (Effect.Tends view.group) fun _ => True) :
    (group.withView operation).TendsTo group := by
  refine tendsTo_view_bind fun result hgroup => ?_
  cases result with
  | error cause => exact bestEffort_pure trivial
  | ok view =>
    rw [← hgroup view rfl]
    exact (h view).bind fun _ _ => bestEffort_pure trivial

/-- Setting up a group tends to it. -/
theorem tendsTo_setUp (group : IndexGroup) (maxSegments : UInt32) :
    (group.setUp maxSegments).TendsTo group :=
  tendsTo_withView fun view => bestEffort_setUp view maxSegments

/-- Rotating a group tends to it. -/
theorem tendsTo_rotate (group : IndexGroup) (maxSegments : UInt32) :
    (group.rotate maxSegments).TendsTo group :=
  tendsTo_withView fun view => bestEffort_rotate view maxSegments

/-- What tends to a group stays in its territory. -/
theorem Program.TendsTo.bestEffort {p : Program α} (h : p.TendsTo group) :
    p.BestEffort (Effect.StaysIn group) fun _ => True := by
  obtain ⟨next, rfl, hnext⟩ := h
  exact bestEffort_ask (.ask _ rfl) fun reply =>
    (hnext reply).imp (fun _ htends => htends.staysIn) fun _ _ => trivial

/-- Removing an index of a group prunes the group. -/
theorem bestEffort_group_removeSegment (group : IndexGroup) (name : String) :
    (group.removeSegment name).BestEffort (Effect.Prunes group) fun _ => True := by
  unfold IndexGroup.removeSegment
  cases group.parse name with
  | error cause => exact bestEffort_pure trivial
  | ok segment =>
    refine (bestEffort_view (.ask _ rfl) (.ask _ rfl) (.ask _ rfl)).bind fun result hgroup => ?_
    cases result with
    | error cause => exact bestEffort_pure trivial
    | ok view =>
      rw [← hgroup view rfl]
      exact (bestEffort_removeSegment view segment).bind fun _ _ => bestEffort_pure trivial

/-- Setting up several groups stays in their territories. -/
theorem bestEffort_setUpEach (maxSegments : UInt32) (groups : List IndexGroup) :
    (setUpEach maxSegments groups).BestEffort
      (fun effect => ∃ group ∈ groups, effect.StaysIn group) fun _ => True := by
  induction groups with
  | nil => exact bestEffort_pure trivial
  | cons group groups ih =>
    refine ((tendsTo_setUp group maxSegments).bestEffort.imp
      (fun effect h => ⟨group, List.mem_cons_self, h⟩) fun _ _ => trivial).bind fun _ _ => ?_
    refine (ih.imp (fun effect h => ?_) fun _ h => h).bind fun _ _ => bestEffort_pure trivial
    obtain ⟨other, hother, h⟩ := h
    exact ⟨other, List.mem_cons_of_mem group hother, h⟩

/-- **Every operation is best effort.** -/
theorem Operation.bestEffort_program (operation : Operation) (maxSegments : UInt32) :
    (operation.program maxSegments).BestEffort (fun _ => True) fun _ => True := by
  cases operation with
  | setUp group =>
    exact (tendsTo_setUp group maxSegments).bestEffort.imp (fun _ _ => trivial) fun _ h => h
  | rotate group =>
    exact (tendsTo_rotate group maxSegments).bestEffort.imp (fun _ _ => trivial) fun _ h => h
  | removeSegment group name =>
    exact (bestEffort_group_removeSegment group name).imp (fun _ _ => trivial) fun _ h => h
  | setUpEach groups =>
    exact (bestEffort_setUpEach maxSegments groups).imp (fun _ _ => trivial) fun _ h => h

end Rollover
