import Rollover.IndexRange
import Rollover.Proofs.Deeds

/-!
# Jobs in the background

Jobs that were taken on are done while operations go on, on the same engine.  A rebuild of ranges
lists the indices, and a merge changes what the engine knows of an index: how many internal segments
it was merged down to.  No operation ever learns of that.

`Engine.unmerged` is an engine with its log and all merges forgotten.  Forgetting them changes no
reply (`Engine.perform_unmerged`), and a job leaves an engine that is the same up to them, at
whatever point it is (`RangeTable.unmerged_execute`).  So jobs may come in at any time.  In the
environment `Environment.busy` they do: the engine that an effect meets is the one that the effect
before has left only up to what jobs do to it.  What holds of a program without them holds with them
(`Program.Upholds.busy`), as far as it does not speak of merges.
-/

namespace Rollover

open Program Environment

/-! ## Forgetting merges -/

/-- The index without what it was merged down to. -/
def IndexState.unmerged (state : IndexState) : IndexState :=
  { state with optimizedTo := none }

namespace Engine

variable {e e' : Engine}

/-- The engine without its log, and without what its indices were merged down to. -/
def unmerged (e : Engine) : Engine :=
  { e with indices := e.indices.map fun _ state => state.unmerged, log := #[] }

theorem getElem?_unmerged (e : Engine) (name : String) :
    e.unmerged.indices[name]? = e.indices[name]?.map IndexState.unmerged :=
  Std.ExtTreeMap.getElem?_map

@[simp] theorem hasIndex_unmerged (e : Engine) (name : String) :
    e.unmerged.hasIndex name = e.hasIndex name := by
  rw [hasIndex, Std.ExtTreeMap.contains_eq_isSome_getElem?, getElem?_unmerged, Option.isSome_map,
    ← Std.ExtTreeMap.contains_eq_isSome_getElem?, hasIndex]

@[simp] theorem listing_unmerged (e : Engine) : e.unmerged.listing = e.listing := by
  rw [listing, unmerged, Std.ExtTreeMap.toList_map, List.map_map]
  rfl

@[simp] theorem unmerged_unmerged (e : Engine) : e.unmerged.unmerged = e.unmerged := by
  have hindices : (e.unmerged.indices.map fun _ state => state.unmerged) = e.unmerged.indices := by
    refine Std.ExtTreeMap.ext_getElem? fun name => ?_
    rw [Std.ExtTreeMap.getElem?_map, getElem?_unmerged, Option.map_map]
    rfl
  rw [unmerged, hindices]
  rfl

theorem unmerged_insert (e : Engine) (name : String) (state : IndexState) :
    unmerged { e with indices := e.indices.insert name state } =
      { e.unmerged with indices := e.unmerged.indices.insert name state.unmerged } := by
  have hindices : (e.indices.insert name state).map (fun _ state => state.unmerged) =
      (e.indices.map fun _ state => state.unmerged).insert name state.unmerged := by
    refine Std.ExtTreeMap.ext_getElem? fun other => ?_
    rw [Std.ExtTreeMap.getElem?_map, Std.ExtTreeMap.getElem?_insert,
      Std.ExtTreeMap.getElem?_insert, Std.ExtTreeMap.getElem?_map]
    split <;> rfl
  rw [unmerged, hindices, unmerged]

/-- Indices that are put in are the same up to merges if they were so before. -/
theorem unmerged_insert_congr {name : String} {state state' : IndexState}
    (h : state'.unmerged = state.unmerged) :
    unmerged { e.unmerged with indices := e.unmerged.indices.insert name state' } =
      unmerged { e with indices := e.indices.insert name state } := by
  rw [unmerged_insert, unmerged_insert, unmerged_unmerged, h]

theorem unmerged_erase (e : Engine) (name : String) (aliases : Std.ExtTreeMap String AliasState) :
    unmerged { e with indices := e.indices.erase name, aliases := aliases } =
      { e.unmerged with indices := e.unmerged.indices.erase name, aliases := aliases } := by
  have hindices : (e.indices.erase name).map (fun _ state => state.unmerged) =
      (e.indices.map fun _ state => state.unmerged).erase name := by
    refine Std.ExtTreeMap.ext_getElem? fun other => ?_
    rw [Std.ExtTreeMap.getElem?_map, Std.ExtTreeMap.getElem?_erase,
      Std.ExtTreeMap.getElem?_erase, Std.ExtTreeMap.getElem?_map]
    split <;> rfl
  rw [unmerged, hindices, unmerged]

theorem unmerged_aliases (e : Engine) (aliases : Std.ExtTreeMap String AliasState) :
    unmerged { e with aliases := aliases } = { e.unmerged with aliases := aliases } := rfl

/-- An available engine responds the same, whatever its indices were merged down to. -/
theorem respond_unmerged (e : Engine) (request : EngineCall) :
    (e.unmerged.respond request).2 = (e.respond request).2 ∧
      (e.unmerged.respond request).1.unmerged = (e.respond request).1.unmerged := by
  have hsame : e.unmerged.unmerged = e.unmerged := e.unmerged_unmerged
  cases request with
  | listIndices => exact ⟨congrArg Except.ok e.listing_unmerged, hsame⟩
  | aliasExists | aliasTarget => exact ⟨rfl, hsame⟩
  | createIndex name =>
    have hrefused : (e.unmerged.refusesCreates || e.unmerged.hasIndex name ||
        e.unmerged.aliases.contains name) =
          (e.refusesCreates || e.hasIndex name || e.aliases.contains name) := by
      rw [hasIndex_unmerged]
      rfl
    simp only [respond, hrefused]
    split
    · exact ⟨rfl, hsame⟩
    · exact ⟨rfl, unmerged_insert_congr rfl⟩
  | deleteIndex name =>
    simp only [respond, hasIndex_unmerged]
    split
    · exact ⟨rfl, by rw [unmerged_erase, unmerged_erase, hsame]; rfl⟩
    · exact ⟨rfl, hsame⟩
  | flush name =>
    simp only [respond, getElem?_unmerged]
    cases hstate : e.indices[name]? with
    | none => exact ⟨rfl, hsame⟩
    | some state =>
      by_cases hroom : state.flushes.toNat + 1 < UInt32.size
      · have hroom' : state.unmerged.flushes.toNat + 1 < UInt32.size := hroom
        simp only [Option.map_some, hroom, hroom', if_true]
        exact ⟨trivial, unmerged_insert_congr rfl⟩
      · have hroom' : ¬ state.unmerged.flushes.toNat + 1 < UInt32.size := hroom
        simp only [Option.map_some, hroom, hroom', if_false]
        exact ⟨trivial, hsame⟩
  | setReadOnly name =>
    simp only [respond, updateIndex, getElem?_unmerged]
    cases hstate : e.indices[name]? with
    | none => exact ⟨rfl, hsame⟩
    | some state => exact ⟨rfl, unmerged_insert_congr rfl⟩
  | optimize name maxSegments =>
    simp only [respond, updateIndex, getElem?_unmerged]
    cases hstate : e.indices[name]? with
    | none => exact ⟨rfl, hsame⟩
    | some state => exact ⟨rfl, unmerged_insert_congr rfl⟩
  | moveAlias aliasName add remove =>
    simp only [respond, hasIndex_unmerged]
    split
    · exact ⟨rfl, hsame⟩
    · split
      · exact ⟨rfl, hsame⟩
      · exact ⟨rfl, by rw [unmerged_aliases, unmerged_aliases, hsame]; rfl⟩

theorem unmerged_logged (e : Engine) (request : EngineCall) :
    (e.logged request).unmerged = e.unmerged := rfl

/-- **No reply depends on what indices were merged down to.** -/
theorem perform_unmerged (e : Engine) (request : EngineCall) :
    (e.unmerged.perform request).2 = (e.perform request).2 ∧
      (e.unmerged.perform request).1.unmerged = (e.perform request).1.unmerged := by
  have hrespond := (e.logged request).respond_unmerged request
  have hrespond' := (e.unmerged.logged request).respond_unmerged request
  rw [unmerged_logged] at hrespond hrespond'
  rw [unmerged_unmerged] at hrespond'
  cases havailable : e.unavailable with
  | true =>
    rw [perform_of_unavailable havailable, perform_of_unavailable (e := e.unmerged) havailable]
    exact ⟨rfl, e.unmerged_unmerged⟩
  | false =>
    rw [perform_of_available havailable, perform_of_available (e := e.unmerged) havailable]
    exact ⟨hrespond'.1.symm.trans hrespond.1, hrespond'.2.symm.trans hrespond.2⟩

end Engine

/-! ## What jobs do -/

/-- The calls that jobs make. -/
def EngineCall.isOfJobs : EngineCall → Bool
  | .listIndices | .optimize _ _ => true
  | _ => false

/-- A call that a job makes changes nothing but what indices were merged down to. -/
theorem Engine.unmerged_perform_of_isOfJobs {e : Engine} {request : EngineCall}
    (h : request.isOfJobs = true) : (e.perform request).1.unmerged = e.unmerged := by
  cases havailable : e.unavailable with
  | true => rw [perform_of_unavailable havailable, unmerged_logged]
  | false =>
    rw [perform_of_available havailable, ← e.unmerged_logged request]
    cases request with
    | listIndices => rfl
    | optimize name maxSegments =>
      simp only [respond, updateIndex]
      cases hstate : (e.logged (.optimize name maxSegments)).indices[name]? with
      | none => rfl
      | some state =>
        -- the state that is put in is the one that was there, up to the merge
        have hkept : (e.logged (.optimize name maxSegments)).unmerged.indices.insert name
            state.unmerged = (e.logged (.optimize name maxSegments)).unmerged.indices := by
          refine Std.ExtTreeMap.ext_getElem? fun other => ?_
          rw [Std.ExtTreeMap.getElem?_insert]
          split
          · next heq =>
            rw [← Std.LawfulEqOrd.compare_eq_iff_eq.mp heq, getElem?_unmerged, hstate,
              Option.map_some]
          · rfl
        exact (unmerged_insert _ _ _).trans (congrArg (fun indices =>
          { (e.logged (.optimize name maxSegments)).unmerged with indices := indices }) hkept)
    | aliasExists | aliasTarget | createIndex | deleteIndex | flush | setReadOnly | moveAlias =>
      cases h

/-- A job makes no other calls. -/
theorem RangeTable.upholds_execute (table : RangeTable) (job : Job) (env : Environment)
    (s : Scene) : (table.execute job).Upholds env
      (fun _ effect => ∃ request : EngineCall, effect = .call request ∧ request.isOfJobs = true)
      (fun _ _ => True) s := by
  cases job with
  | rebuildRanges group =>
    unfold execute rebuild IndexGroup.memberStats
    refine upholds_bind.mpr (upholds_bind.mpr ?_)
    refine upholds_ask.mpr ⟨⟨_, rfl, rfl⟩, fun reply engine _ => ?_⟩
    cases reply with
    | error | ok => trivial
  | optimize index maxSegments =>
    refine upholds_ask.mpr ⟨⟨_, rfl, rfl⟩, fun reply engine _ => ?_⟩
    cases reply with
    | error | ok => trivial

/-- **A job changes nothing but what indices were merged down to**, at whatever point it is. -/
theorem RangeTable.unmerged_execute {table : RangeTable} {job : Job}
    {q : Program (RangeTable × Except Error Unit)} {s s' : Scene}
    (hleads : Leads disturbed (table.execute job, s) (q, s')) :
    s'.engine.unmerged = s.engine.unmerged := by
  refine (table.upholds_execute job disturbed s).preserves
    (P := fun e => e.unmerged = s.engine.unmerged) hleads ?_ rfl
  rintro s₁ effect reply engine ⟨request, rfl, hjobs⟩ happens hunmerged
  rw [← hunmerged]
  rcases happens with hcalm | ⟨-, rfl⟩
  · exact (congrArg (fun after => after.1.unmerged) hcalm).trans
      (Engine.unmerged_perform_of_isOfJobs hjobs)
  · rfl

/-! ## Going on meanwhile -/

/-- Every call reaches the engine, which is available and creates indices; but before it does, jobs
may have made theirs. -/
def Environment.busy : Environment :=
  fun e effect reply e' => ∃ met : Engine, met.unmerged = e.unmerged ∧ faultless met effect reply e'

/-- There may also be no jobs. -/
theorem Environment.busy_of_faultless {e e' : Engine} {effect : Effect} {reply : effect.Reply}
    (h : faultless e effect reply e') : busy e effect reply e' :=
  ⟨e, rfl, h⟩

/-- Without the jobs the reply is the same. -/
theorem Environment.faultless_of_unmerged {e met e' : Engine} {effect : Effect}
    {reply : effect.Reply} (hmet : met.unmerged = e.unmerged)
    (h : faultless met effect reply e') :
    ∃ e₁ : Engine, faultless e effect reply e₁ ∧ e'.unmerged = e₁.unmerged := by
  obtain ⟨hcalm, havailable, hcreates⟩ := h
  have hswitches : e.unavailable = false ∧ e.refusesCreates = false :=
    ⟨(congrArg Engine.unavailable hmet).symm.trans havailable,
      (congrArg Engine.refusesCreates hmet).symm.trans hcreates⟩
  cases effect with
  | call request =>
    obtain ⟨hreply, hengine⟩ := e.perform_unmerged request
    obtain ⟨hreply', hengine'⟩ := met.perform_unmerged request
    obtain ⟨rfl, rfl⟩ := Prod.mk.inj hcalm
    rw [hmet] at hreply' hengine'
    exact ⟨(e.perform request).1, ⟨Prod.ext rfl (hreply'.symm.trans hreply), hswitches⟩,
      hengine'.symm.trans hengine⟩
  | submit job => exact ⟨e, ⟨rfl, hswitches⟩, (congrArg Engine.unmerged hcalm).trans hmet⟩
  | record entry => exact ⟨e, ⟨rfl, hswitches⟩, (congrArg Engine.unmerged hcalm).trans hmet⟩

/-- The same was done in both scenes, and their engines are the same up to what jobs do. -/
structure Scene.UpToJobs (s t : Scene) : Prop where
  engine : t.engine.unmerged = s.engine.unmerged
  past : t.past.map Moment.effect = s.past.map Moment.effect

theorem Scene.UpToJobs.deeds {s t : Scene} (h : s.UpToJobs t) : t.deeds = s.deeds := by
  rw [Scene.deeds, List.map_reverse, h.past, ← List.map_reverse, Scene.deeds]

/-- **What a program upholds by itself, it upholds while jobs are done**, up to what these do. -/
theorem Program.Upholds.busy {α : Type} {p : Program α} {guard : Scene → Effect → Prop}
    {goal : α → Scene → Prop} {s t : Scene} (h : p.Upholds faultless guard goal s)
    (hst : s.UpToJobs t) :
    p.Upholds busy (fun _ _ => True)
      (fun result t' => ∃ s', s'.UpToJobs t' ∧ goal result s') t := by
  induction p generalizing s t with
  | done result => exact ⟨s, hst, h⟩
  | perform effect next ih =>
    refine ⟨trivial, fun reply engine happens => ?_⟩
    obtain ⟨met, hmet, hfaultless⟩ := happens
    obtain ⟨e₁, hfaultless₁, hengine⟩ :=
      faultless_of_unmerged (hmet.trans hst.engine) hfaultless
    refine ih reply (h.2 reply e₁ hfaultless₁) ⟨hengine, ?_⟩
    rw [Scene.past_next, Scene.past_next, List.map_cons, List.map_cons, hst.past]

end Rollover
