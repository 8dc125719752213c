import Rollover.Proofs.BestEffort
import Rollover.Proofs.Reading

/-!
# Views of an engine that lists in any order

Nothing says in which order an engine lists its indices, and a call to it may be lost.  This file
takes views under both conditions: `Scene.handlerIn` plays effects on an engine whose listings come
in an order of their own, and to which some calls do not get through.

A view is taken by one to three questions, `Engine.questions`: the alias is asked about only if its
name is free, and for its target only if it has one.  If one of them fails, the first failure is the
result; otherwise the result is the view that the engine's contents make, whatever the order
(`upholds_view_in`).  What it shows is said by `GroupView.Depicts`, in terms of the names
that the engine holds and of how the group reads them.
-/

namespace Rollover

open Program

/-! ## Listings in another order -/

/-- Other orders of the same listing show the same. -/
theorem GroupView.ofListing_perm {listing listing' : Listing} (h : listing.Perm listing')
    (group : IndexGroup) :
    GroupView.ofListing group listing = GroupView.ofListing group listing' := by
  have hnumbers := h.filterMap fun entry => group.numberOf? entry.1
  ext1
  · rfl
  · refine Std.ExtTreeSet.ext_mem fun n => ?_
    simp only [ofListing, Std.ExtTreeSet.mem_ofList, List.contains_iff_mem, hnumbers.mem_iff]
  · rfl
  · exact h.any_eq

/-- A reply to a call, with the listing in another order if it is one. -/
def EngineCall.reorder (order : Listing → Listing) :
    (request : EngineCall) → request.Reply → request.Reply
  | .listIndices, reply => reply.map order
  | .aliasExists _, reply | .aliasTarget _, reply => reply
  | .createIndex _, reply | .deleteIndex _, reply => reply
  | .flush _, reply | .setReadOnly _, reply => reply
  | .optimize _ _, reply | .moveAlias _ _ _, reply => reply

namespace Engine

variable {e e' : Engine} {group : IndexGroup} {request : EngineCall}

/-- The reply to a call, from an engine that lists in an order of its own.  Lost calls fail. -/
def answer (e : Engine) (order : Listing → Listing) (lost : EngineCall → Option EngineError)
    (request : EngineCall) : request.Reply :=
  match lost request with
  | some cause => .error cause
  | none => request.reorder order (e.perform request).2

/-- Why a call fails, if it does: it is lost, or the engine does not do what it asks for. -/
def failure? (e : Engine) (lost : EngineCall → Option EngineError) (request : EngineCall) :
    Option EngineError :=
  match lost request, (e.perform request).2 with
  | some cause, _ | none, .error cause => some cause
  | none, .ok _ => none

/-- The questions by which a view of a group is taken, in order. -/
def questions (e : Engine) (group : IndexGroup) : List EngineCall :=
  .listIndices ::
    if e.hasIndex group.aliasName then []
    else .aliasExists group.aliasName ::
      if (e.targetsOf group.aliasName).isEmpty then [] else [.aliasTarget group.aliasName]

/-- A question is answered by what the engine holds, as far as it does not fail. -/
theorem answer_read (hread : request.isMutation = false) (e : Engine) (order : Listing → Listing)
    (lost : EngineCall → Option EngineError) :
    e.answer order lost request =
      match e.failure? lost request with
      | some cause => .error cause
      | none => request.reorder order (e.respond request).2 := by
  unfold answer failure?
  cases lost request with
  | some cause => rfl
  | none =>
    cases request with
    | listIndices | aliasExists | aliasTarget =>
      cases havailable : e.unavailable with
      | true => rw [perform_of_unavailable havailable]; rfl
      | false => rw [perform_of_available havailable]; rfl
    | createIndex | deleteIndex | flush | setReadOnly | optimize | moveAlias => cases hread

/-- Engines that hold the same answer questions alike, if both or neither is available. -/
theorem Same.perform_read (h : e.Same e') (hswitch : e'.unavailable = e.unavailable)
    (hread : request.isMutation = false) : (e'.perform request).2 = (e.perform request).2 := by
  cases havailable : e.unavailable with
  | true =>
    rw [perform_of_unavailable havailable, perform_of_unavailable (hswitch.trans havailable)]
  | false =>
    rw [perform_of_available havailable, perform_of_available (hswitch.trans havailable)]
    cases request with
    | listIndices => exact congrArg Except.ok h.listing
    | aliasExists name =>
      exact congrArg (fun targets => Except.ok !targets.isEmpty) (h.targetsOf name)
    | aliasTarget name => exact congrArg (fun targets => Except.ok targets.min?) (h.targetsOf name)
    | createIndex | deleteIndex | flush | setReadOnly | optimize | moveAlias => cases hread

theorem Same.answer_read (h : e.Same e') (hswitch : e'.unavailable = e.unavailable)
    (hread : request.isMutation = false) (order : Listing → Listing)
    (lost : EngineCall → Option EngineError) :
    e'.answer order lost request = e.answer order lost request := by
  rw [answer, h.perform_read hswitch hread, answer]

end Engine

namespace Scene

/-- Nothing happens from one scene to another, except that the engine is asked, and it is as
available as before. -/
structure Asked (s s' : Scene) : Prop where
  quiet : s.Quiet s'
  unavailable : s'.engine.unavailable = s.engine.unavailable

namespace Asked

variable {s s' s'' : Scene} {order : Listing → Listing} {lost : EngineCall → Option EngineError}

protected theorem refl (s : Scene) : s.Asked s := ⟨.refl s, rfl⟩

protected theorem trans (h : s.Asked s') (h' : s'.Asked s'') : s.Asked s'' :=
  ⟨h.quiet.trans h'.quiet, h'.unavailable.trans h.unavailable⟩

theorem answer {request : EngineCall} (h : s.Asked s') (hread : request.isMutation = false) :
    s'.engine.answer order lost request = s.engine.answer order lost request :=
  h.quiet.same.answer_read h.unavailable hread order lost

end Asked

/-- Plays effects on an engine that lists its indices in an order of its own.  Lost calls fail, and
the engine does not hear of them. -/
def handlerIn (order : Listing → Listing) (lost : EngineCall → Option EngineError)
    (desk : Scene → Job → Except Error Unit) : Handler Scene where
  call s request :=
    let reply := s.engine.answer order lost request
    let engine := if (lost request).isSome then s.engine else (s.engine.perform request).1
    (s.next (.call request) reply engine, reply)
  submit s job := (s.next (.submit job) (desk s job) s.engine, desk s job)
  record s entry := s.next (.record entry) () s.engine

end Scene

/-- Calls are answered by an engine that lists in an order of its own, unless they are lost. -/
def Environment.enquired (order : Listing → Listing) (lost : EngineCall → Option EngineError) :
    Environment
  | e, .call request, reply, e' => reply = e.answer order lost request ∧
      e' = if (lost request).isSome then e else (e.perform request).1
  | e, .submit _, _, e' => e' = e
  | e, .record _, _, e' => e' = e

section

variable {α : Type} {order : Listing → Listing} {lost : EngineCall → Option EngineError}

/-- What is upheld where calls may be lost, and listings come in any order, holds of every run. -/
theorem Program.Upholds.run_in {guard : Scene → Effect → Prop} {goal : α → Scene → Prop}
    {p : Program α} {s : Scene} (h : p.Upholds (Environment.enquired order lost) guard goal s)
    (desk : Scene → Job → Except Error Unit) :
    goal (p.run (Scene.handlerIn order lost desk) s).2
      (p.run (Scene.handlerIn order lost desk) s).1 := by
  refine h.steps (leads_run_of (P := fun _ => True) (fun s effect _ => ?_) p trivial)
  cases effect with
  | call request => exact ⟨_, _, ⟨⟨rfl, rfl⟩, trivial⟩, rfl⟩
  | submit job => exact ⟨desk s job, s.engine, ⟨rfl, trivial⟩, rfl⟩
  | record entry => exact ⟨(), s.engine, ⟨rfl, trivial⟩, rfl⟩

/-- A question changes nothing. -/
theorem Environment.asked_of_enquired {s : Scene} {request : EngineCall} {reply : request.Reply}
    {e' : Engine} (hread : request.isMutation = false)
    (h : enquired order lost s.engine (.call request) reply e') :
    s.Asked (s.next (.call request) reply e') := by
  obtain ⟨-, rfl⟩ := h
  split
  · exact ⟨.next hread (.refl _), rfl⟩
  · exact ⟨.next hread (disturbed_read hread (Or.inl rfl)).1,
      (s.engine.perform_switches request).1⟩

end

/-! ## Taking a view -/

section

variable {order : Listing → Listing} {lost : EngineCall → Option EngineError}
  {group : IndexGroup} {s s' : Scene}

/-- The alias is asked about unless an index has its name, and for its target only if it has one. -/
theorem upholds_complete {view : GroupView} (htarget : view.target = none)
    (hcollision : view.collision = s.engine.hasIndex group.aliasName) (hs : s.Asked s') :
    (group.complete (.ok view)).Upholds (Environment.enquired order lost)
      (fun _ effect => effect.isRead = true) (fun result s'' => s.Asked s'' ∧ result =
        match (s.engine.questions group).tail.findSome? (s.engine.failure? lost) with
        | some cause => .error (.engineUnavailable cause)
        | none => .ok (if view.collision then view
            else { view with target := (s.engine.targetsOf group.aliasName).min?.bind view.held? }))
      s' := by
  unfold IndexGroup.complete Engine.questions
  rw [List.tail_cons, ← hcollision]
  dsimp only
  cases hcollides : view.collision with
  | true => exact ⟨hs, rfl⟩
  | false =>
    simp only [Bool.false_eq_true, if_false, List.findSome?_cons]
    refine upholds_ask.mpr ⟨rfl, fun reply e₁ h₁ => ?_⟩
    have hs₁ := hs.trans (Environment.asked_of_enquired rfl h₁)
    have hreply := h₁.1.trans ((hs.answer rfl).trans (s.engine.answer_read rfl order lost))
    cases hfail : s.engine.failure? lost (.aliasExists group.aliasName) with
    | some cause =>
      rw [hfail] at hreply
      subst hreply
      exact ⟨hs₁, rfl⟩
    | none =>
      simp only [hfail, EngineCall.reorder, Engine.respond] at hreply
      cases hempty : (s.engine.targetsOf group.aliasName).isEmpty with
      | true =>
        rw [hempty] at hreply
        subst hreply
        rw [Std.ExtTreeSet.isEmpty_iff.mp hempty, Std.ExtTreeSet.min?_empty]
        exact ⟨hs₁, congrArg Except.ok (GroupView.ext rfl rfl htarget hcollides)⟩
      | false =>
        rw [hempty] at hreply
        subst hreply
        refine upholds_ask.mpr ⟨rfl, fun reply e₂ h₂ => ?_⟩
        have hs₂ := hs₁.trans (Environment.asked_of_enquired rfl h₂)
        have hreply := h₂.1.trans ((hs₁.answer rfl).trans (s.engine.answer_read rfl order lost))
        simp only [Bool.false_eq_true, if_false, List.findSome?_cons, List.findSome?_nil]
        cases hfail' : s.engine.failure? lost (.aliasTarget group.aliasName) with
        | some cause | none =>
          rw [hfail'] at hreply
          subst hreply
          exact ⟨hs₂, rfl⟩

theorem Engine.collision_ofListing (e : Engine) (group : IndexGroup) :
    (GroupView.ofListing group e.listing).collision = e.hasIndex group.aliasName := by
  rw [← viewOf_collision, viewOf]
  split <;> rfl

/-- **What taking a view comes to.**  The first question that fails decides; if none does, the view
shows what the engine holds, in whatever order that was listed. -/
theorem upholds_view_in (lost : EngineCall → Option EngineError)
    (horder : ∀ listing, (order listing).Perm listing) (group : IndexGroup) (s : Scene) :
    group.view.Upholds (Environment.enquired order lost) (fun _ effect => effect.isRead = true)
      (fun result s' => s.Asked s' ∧ result =
        match (s.engine.questions group).findSome? (s.engine.failure? lost) with
        | some cause => .error (.engineUnavailable cause)
        | none => .ok (s.engine.viewOf group)) s := by
  rw [IndexGroup.view_eq]
  refine upholds_ask.mpr ⟨rfl, fun reply e₁ h₁ => ?_⟩
  have hs₁ := Environment.asked_of_enquired rfl h₁
  have hreply := h₁.1.trans (s.engine.answer_read rfl order lost)
  have hcons : s.engine.questions group = .listIndices :: (s.engine.questions group).tail := rfl
  rw [hcons, List.findSome?_cons]
  cases hfail : s.engine.failure? lost .listIndices with
  | some cause =>
    rw [hfail] at hreply
    subst hreply
    exact ⟨hs₁, rfl⟩
  | none =>
    have hlisting : reply.map (GroupView.ofListing group) =
        .ok (GroupView.ofListing group s.engine.listing) := by
      rw [hreply, hfail]
      exact congrArg Except.ok (GroupView.ofListing_perm (horder _) group)
    rw [hlisting]
    exact upholds_complete rfl (s.engine.collision_ofListing group) hs₁

end

/-! ## What the view shows -/

/-- An index of a group is what the group reads as one. -/
theorem IndexGroup.numberOf?_eq_some_iff_parse {group : IndexGroup} {name : String} {n : UInt64} :
    group.numberOf? name = some n ↔ group.parse name = .ok (.ordinary group.fullName n) := by
  constructor
  · exact parse_of_numberOf?
  · intro h
    rw [numberOf?, h]
    rfl

theorem GroupView.pairwise_toList (view : GroupView) : view.toList.Pairwise (· < ·) := by
  refine (Std.ExtTreeSet.ordered_toList (t := view.numbers)).imp fun {m n} hlt => ?_
  exact compareOfLessAndEq_eq_lt.mp hlt

theorem GroupView.mem_toList {view : GroupView} {n : UInt64} :
    n ∈ view.toList ↔ n ∈ view.numbers :=
  Std.ExtTreeSet.mem_toList

/-- The view shows what an engine holds of a group. -/
structure GroupView.Depicts (view : GroupView) (e : Engine) (group : IndexGroup) : Prop where
  mem_toList_iff : ∀ n, n ∈ view.toList ↔
    ∃ name, e.hasIndex name = true ∧ group.parse name = .ok (.ordinary group.fullName n)
  ascending : view.toList.Pairwise (· < ·)
  /-- The indices are held as segments of the group. -/
  segments_eq : view.segments = view.toList.map (.ordinary group.fullName)
  collision_iff : view.collision = true ↔ e.hasIndex group.aliasName = true
  /-- The alias is bound to the index that the engine gives as its target, if the view holds it. -/
  target_iff : ∀ n, view.target = some n ↔ e.hasIndex group.aliasName = false ∧
    ∃ name, (e.respond (.aliasTarget group.aliasName)).2 = .ok (some name) ∧
      group.parse name = .ok (.ordinary group.fullName n) ∧ n ∈ view.toList
  latest_eq_ok_iff : ∀ n, view.latest = .ok (.ordinary group.fullName n) ↔
    n ∈ view.toList ∧ ∀ m ∈ view.toList, m ≤ n
  latest_eq_error_iff : view.latest = .error (.noTarget group.fullName) ↔ view.toList = []

theorem Engine.viewOf_depicts (e : Engine) (group : IndexGroup) :
    (e.viewOf group).Depicts e group := by
  have hmem : ∀ n, n ∈ (e.viewOf group).toList ↔ e.HasNumber group n := fun n =>
    GroupView.mem_toList.trans mem_viewOf_numbers
  refine ⟨fun n => ?_, GroupView.pairwise_toList _, ?_, ?_, fun n => ?_, fun n => ?_, ?_⟩
  · simp only [hmem, HasNumber, IndexGroup.numberOf?_eq_some_iff_parse]
  · rw [GroupView.segments]
    exact List.map_congr_left fun n _ => by rw [GroupView.segment, viewOf_group]
  · rw [viewOf_collision]
  · simp only [viewOf_target_eq_some_iff, hmem, IndexGroup.numberOf?_eq_some_iff_parse, respond,
      Except.ok.injEq]
  · simp only [GroupView.mem_toList, ← GroupView.latest?_eq_some_iff, GroupView.latest]
    cases (e.viewOf group).latest? with
    | none => simp
    | some m => simp [GroupView.segment]
  · simp only [List.eq_nil_iff_forall_not_mem, GroupView.mem_toList,
      ← GroupView.latest?_eq_none_iff, GroupView.latest]
    cases (e.viewOf group).latest? with
    | none => simp
    | some m => simp

/-- **A view is a function of what the engine holds.**  Whatever the order in which an engine lists
its indices, and whichever calls are lost: if no question fails, the view is taken, and it is the
one that shows what the engine holds.  If one fails there is no view, and the first failure is
reported.  Nothing else is asked of the engine, and it holds afterwards what it held before. -/
theorem view_in_any_order (order : Listing → Listing)
    (horder : ∀ listing, (order listing).Perm listing) (lost : EngineCall → Option EngineError)
    (desk : Scene → Job → Except Error Unit) (group : IndexGroup) (s : Scene) :
    s.Quiet (group.view.run (Scene.handlerIn order lost desk) s).1 ∧
    (s.engine.viewOf group).Depicts s.engine group ∧
    ((∀ request ∈ s.engine.questions group, s.engine.failure? lost request = none) →
      (group.view.run (Scene.handlerIn order lost desk) s).2 = .ok (s.engine.viewOf group)) ∧
    ((∃ request ∈ s.engine.questions group, s.engine.failure? lost request ≠ none) →
      ∃ cause, (s.engine.questions group).findSome? (s.engine.failure? lost) = some cause ∧
        (group.view.run (Scene.handlerIn order lost desk) s).2 =
          .error (.engineUnavailable cause)) := by
  obtain ⟨hasked, hresult⟩ := (upholds_view_in lost horder group s).run_in desk
  refine ⟨hasked.quiet, s.engine.viewOf_depicts group, fun hclear => ?_, fun hfails => ?_⟩
  · rw [hresult, List.findSome?_eq_none_iff.mpr hclear]
  · obtain ⟨request, hmem, hfail⟩ := hfails
    cases hfirst : (s.engine.questions group).findSome? (s.engine.failure? lost) with
    | none => exact absurd (List.findSome?_eq_none_iff.mp hfirst request hmem) hfail
    | some cause => exact ⟨cause, rfl, by rw [hresult, hfirst]⟩

/-- An engine lists its indices in descending order.  Two of their names stand for one number, one
belongs to another group, and one has no number.  If the last question is lost there is no view. -/
theorem view_in_any_order_of_descending :
    let group : IndexGroup := ⟨"graylog", "internal"⟩
    let e := Engine.ofIndices ["graylog_internal_10", "graylog_internal_7", "graylog_internal_07",
      "graylog_internal_audit_1", "graylog_internal_x"]
    let s : Scene := { engine := e.bindAlias group.aliasName "graylog_internal_10" }
    let lost : EngineCall → Option EngineError := fun request =>
      if request = .aliasTarget group.aliasName then some (.unreachable "timeout") else none
    ∃ view : GroupView, view.toList = [7, 10] ∧ view.target = some 10 ∧
      (group.view.run (Scene.handlerIn List.reverse (fun _ => none) fun _ _ => .ok ()) s).2 =
        .ok view ∧
      (group.view.run (Scene.handlerIn List.reverse lost fun _ _ => .ok ()) s).2 =
        .error (.engineUnavailable (.unreachable "timeout")) := by
  intro group e s lost
  obtain ⟨-, hdepicts, hview, -⟩ :=
    view_in_any_order List.reverse List.reverse_perm (fun _ => none) (fun _ _ => .ok ()) group s
  obtain ⟨-, -, -, hlost⟩ :=
    view_in_any_order List.reverse List.reverse_perm lost (fun _ _ => .ok ()) group s
  have hfirst : (s.engine.targetsOf group.aliasName).min? = some "graylog_internal_10" :=
    (min?_eq_some_iff (by decide +kernel)).mpr (by decide +kernel)
  have htarget := (hdepicts.target_iff 10).mpr ⟨by decide +kernel, "graylog_internal_10",
    congrArg Except.ok hfirst, IndexGroup.parse_of_numberOf? (by decide +kernel),
    by decide +kernel⟩
  refine ⟨_, by decide +kernel, htarget, hview (by decide +kernel), ?_⟩
  obtain ⟨cause, hfirst, hresult⟩ :=
    hlost ⟨.aliasTarget group.aliasName, by decide +kernel, by decide +kernel⟩
  have hcause : (s.engine.questions group).findSome? (s.engine.failure? lost) =
      some (.unreachable "timeout") := by decide +kernel
  rw [hresult, Option.some.inj (hfirst.symm.trans hcause)]

end Rollover
