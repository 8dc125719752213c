import Rollover.Proofs.Neighbours

/-!
# Setting up groups together, and each of them alone

What is done to a group depends on what the group sees and on nothing else.  On engines that are
alike for a group the same calls get the same replies, and leave engines that are alike
(`Engine.Alike.perform`).  The one call by which an operation looks beyond its group is the listing
at the beginning, and of that it uses what is the group's.  So the whole operation has the same
result on both engines (`Installation.Alike.run`).

Since other groups do not disturb a group, the engine is still alike for it when its turn comes, and
remains so afterwards.  So setting up several groups comes to the same as setting up each of them
alone on the engine as it was at the beginning (`Installation.run_setUpEach`).
-/

namespace Rollover

open Program Environment

variable {α : Type} {group other : IndexGroup} {e e' : Engine}

/-! ## Locality -/

namespace Engine.Alike

theorem insertIndex (h : e.Alike group e') (name : String) (state : IndexState) :
    Engine.Alike { e with indices := e.indices.insert name state } group
      { e' with indices := e'.indices.insert name state } := by
  refine ⟨fun own hown => ?_, h.aliases, h.unavailable, h.refusesCreates⟩
  rw [Std.ExtTreeMap.getElem?_insert, Std.ExtTreeMap.getElem?_insert, h.indices own hown]

theorem insertAlias (h : e.Alike group e') (aliasName : String) (state : AliasState) :
    Engine.Alike { e with aliases := e.aliases.insert aliasName state } group
      { e' with aliases := e'.aliases.insert aliasName state } := by
  refine ⟨h.indices, fun own hown => ?_, h.unavailable, h.refusesCreates⟩
  rw [Std.ExtTreeMap.getElem?_insert, Std.ExtTreeMap.getElem?_insert, h.aliases own hown]

/-- Of two listings a group sees the same. -/
theorem ofListing (h : e.Alike group e') :
    GroupView.ofListing group e'.listing = GroupView.ofListing group e.listing := by
  have hview : ∀ e : Engine, GroupView.ofListing group e.listing =
      { e.viewOf group with target := none } := by
    intro e
    unfold Engine.viewOf
    dsimp only
    split <;> rfl
  rw [hview, hview, h.viewOf]

/-- Available engines that are alike for a group respond alike to calls that tend to it, and are
alike afterwards. -/
theorem respond (h : e.Alike group e') {request : EngineCall}
    (htends : Effect.Tends group (.call request)) :
    (e'.respond request).2 = (e.respond request).2 ∧
      (e.respond request).1.Alike group (e'.respond request).1 := by
  cases htends with
  | aliasExists => exact ⟨by simp only [Engine.respond, h.targetsOf], h⟩
  | aliasTarget => exact ⟨by simp only [Engine.respond, h.targetsOf], h⟩
  | createIndex n =>
    have hrefused : (e'.refusesCreates || e'.hasIndex (group.nameOf n) ||
          e'.aliases.contains (group.nameOf n)) =
        (e.refusesCreates || e.hasIndex (group.nameOf n) ||
          e.aliases.contains (group.nameOf n)) := by
      rw [h.refusesCreates, h.hasIndex (group.owns_nameOf n),
        Std.ExtTreeMap.contains_eq_isSome_getElem?, h.aliases _ (group.owns_nameOf n),
        Std.ExtTreeMap.contains_eq_isSome_getElem?]
    simp only [Engine.respond, hrefused]
    split
    · exact ⟨rfl, h⟩
    · exact ⟨rfl, h.insertIndex _ _⟩
  | flush n =>
    simp only [Engine.respond, h.indices _ (group.owns_nameOf n)]
    split
    · exact ⟨rfl, h⟩
    · split
      · exact ⟨rfl, h.insertIndex _ _⟩
      · exact ⟨rfl, h⟩
  | setReadOnly n =>
    simp only [Engine.respond, Engine.updateIndex, h.indices _ (group.owns_nameOf n)]
    split
    · exact ⟨rfl, h⟩
    · exact ⟨rfl, h.insertIndex _ _⟩
  | moveAlias n old =>
    have hmoved : e'.movedTargets group.aliasName (group.nameOf n) old =
        e.movedTargets group.aliasName (group.nameOf n) old := by
      cases old with
      | none | some => simp only [Engine.movedTargets, h.targetsOf]
    simp only [Engine.respond, h.hasIndex group.owns_aliasName, h.hasIndex (group.owns_nameOf n),
      h.aliasState, hmoved]
    split
    · exact ⟨rfl, h⟩
    · split
      · exact ⟨rfl, h⟩
      · exact ⟨rfl, h.insertAlias _ _⟩

/-- Engines that are alike for a group are alike after each has logged a call. -/
theorem logged (h : e.Alike group e') (request : EngineCall) :
    (e.logged request).Alike group (e'.logged request) :=
  ⟨h.indices, h.aliases, h.unavailable, h.refusesCreates⟩

/-- Engines that are alike for a group reply alike to calls that tend to it, and are alike
afterwards. -/
theorem perform (h : e.Alike group e') {request : EngineCall}
    (htends : Effect.Tends group (.call request)) :
    (e'.perform request).2 = (e.perform request).2 ∧
      (e.perform request).1.Alike group (e'.perform request).1 := by
  have hlogged := h.logged request
  cases havailable : e.unavailable with
  | true =>
    rw [perform_of_unavailable havailable, perform_of_unavailable (h.unavailable.trans havailable)]
    exact ⟨rfl, hlogged⟩
  | false =>
    rw [perform_of_available havailable, perform_of_available (h.unavailable.trans havailable)]
    exact hlogged.respond htends

end Engine.Alike

/-- Engines that are alike for a group list the same for it, and are alike afterwards. -/
theorem Engine.Alike.list (h : e.Alike group e') :
    (e'.perform .listIndices).2.map (GroupView.ofListing group) =
        (e.perform .listIndices).2.map (GroupView.ofListing group) ∧
      (e.perform .listIndices).1.Alike group (e'.perform .listIndices).1 := by
  have hlogged := h.logged .listIndices
  cases havailable : e.unavailable with
  | true =>
    rw [perform_of_unavailable havailable, perform_of_unavailable (h.unavailable.trans havailable)]
    exact ⟨rfl, hlogged⟩
  | false =>
    rw [perform_of_available havailable, perform_of_available (h.unavailable.trans havailable)]
    exact ⟨congrArg Except.ok hlogged.ofListing, hlogged⟩

/-! ## One group after the other -/

/-- The first group is set up first, and then the others. -/
theorem run_setUpEach_cons {σ : Type} (handler : Handler σ) (maxSegments : UInt32)
    (group : IndexGroup) (groups : List IndexGroup) (state : σ) :
    (setUpEach maxSegments (group :: groups)).run handler state =
      (((setUpEach maxSegments groups).run handler
          ((group.setUp maxSegments).run handler state).1).1,
        (group, ((group.setUp maxSegments).run handler state).2) ::
          ((setUpEach maxSegments groups).run handler
            ((group.setUp maxSegments).run handler state).1).2) := by
  show (group.setUp maxSegments >>= fun outcome => setUpEach maxSegments groups >>= fun outcomes =>
    pure ((group, outcome) :: outcomes)).run handler state = _
  rw [run_bind, run_bind]
  rfl

/-- Every group has its turn, once and in order, whatever comes of it. -/
theorem map_fst_run_setUpEach {σ : Type} (handler : Handler σ) (maxSegments : UInt32)
    (groups : List IndexGroup) (state : σ) :
    ((setUpEach maxSegments groups).run handler state).2.map Prod.fst = groups := by
  induction groups generalizing state with
  | nil => rfl
  | cons group groups ih =>
    rw [run_setUpEach_cons, List.map_cons, ih]

namespace Installation

/-- Two installations without faults, whose engines are alike for a group. -/
structure Alike (a : Installation) (group : IndexGroup) (b : Installation) : Prop where
  faults : a.engine.faults = []
  faults' : b.engine.faults = []
  engine : a.engine.engine.Alike group b.engine.engine

variable {a b : Installation}

/-- Without faults, calls reach the engine. -/
theorem call_of_no_faults (h : a.engine.faults = []) (request : EngineCall) :
    handler.call a request =
      ({ a with engine := { engine := (a.engine.engine.perform request).1 } },
        (a.engine.engine.perform request).2) := by
  obtain ⟨settings, ⟨engine, faults⟩, registry, store, desk, ranges, activities⟩ := a
  obtain rfl : faults = [] := h
  rfl

theorem engine_offer (a : Installation) (job : Job) : (handler.offer a job).engine = a.engine := by
  unfold Handler.offer handler
  dsimp only
  split <;> rfl

/-- To a program that tends to a group, installations whose engines are alike for it are alike. -/
theorem handler_matches_of_alike :
    handler.Matches (Effect.Tends group) (fun a b => Alike a group b) handler where
  call request h htends := by
    obtain ⟨hreply, halike⟩ := h.engine.perform htends
    rw [call_of_no_faults h.faults, call_of_no_faults h.faults']
    exact ⟨hreply.symm, rfl, rfl, halike⟩
  record _ h _ _ := ⟨h.faults, h.faults', h.engine⟩
  offer job h _ := by
    constructor
    · rw [engine_offer, h.faults]
    · rw [engine_offer, h.faults']
    · rw [engine_offer, engine_offer]
      exact h.engine

/-- **What is done to a group depends on what the group sees, and on nothing else.** -/
theorem Alike.run (h : a.Alike group b) {p : Program α} (htends : p.TendsTo group) :
    (a.run p).2 = (b.run p).2 ∧ (a.run p).1.Alike group (b.run p).1 := by
  obtain ⟨next, rfl, hnext⟩ := htends
  obtain ⟨hlisting, halike⟩ := h.engine.list
  have hrun : ∀ {a : Installation}, a.engine.faults = [] →
      a.run (ask .listIndices >>= fun reply => next (reply.map (GroupView.ofListing group))) =
        Installation.run { a with engine := { engine := (a.engine.engine.perform .listIndices).1 } }
          (next ((a.engine.engine.perform .listIndices).2.map (GroupView.ofListing group))) := by
    intro a hfaults
    show (next ((handler.call a .listIndices).2.map _)).run handler
      (handler.call a .listIndices).1 = _
    rw [call_of_no_faults hfaults]
    rfl
  have hlisted : Installation.Alike
      { a with engine := { engine := (a.engine.engine.perform .listIndices).1 } } group
      { b with engine := { engine := (b.engine.engine.perform .listIndices).1 } } :=
    ⟨rfl, rfl, halike⟩
  rw [hrun h.faults, hrun h.faults', hlisting]
  exact (hnext (a.engine.engine.perform .listIndices).2).run_match handler_matches_of_alike hlisted

/-- A program that leaves a group alone does so on every installation. -/
theorem alike_run {goal : α → Prop} {p : Program α}
    (h : p.BestEffort (Effect.LeavesAlone other) goal) (installation : Installation) :
    installation.engine.engine.Alike other (installation.run p).1.engine.engine := by
  obtain ⟨past', hleads⟩ := installation.leads_run p []
  exact h.alike hleads

/-- **Groups that are set up one after the other come out as if each had been set up alone.** -/
theorem run_setUpEach {initial installation : Installation} (maxSegments : UInt32)
    {groups : List IndexGroup} (hdistinct : groups.Pairwise fun a b => a.fullName ≠ b.fullName)
    (halike : ∀ group ∈ groups, initial.Alike group installation) :
    (installation.run (setUpEach maxSegments groups)).2 =
        groups.map (fun group => (group, (initial.run (group.setUp maxSegments)).2)) ∧
      ∀ group ∈ groups, (initial.run (group.setUp maxSegments)).1.engine.engine.Alike group
        (installation.run (setUpEach maxSegments groups)).1.engine.engine := by
  induction groups generalizing installation with
  | nil => exact ⟨rfl, nofun⟩
  | cons group groups ih =>
    obtain ⟨hne, hdistinct⟩ := List.pairwise_cons.mp hdistinct
    obtain ⟨hgroup, hgroups⟩ := List.forall_mem_cons.mp halike
    have htends := tendsTo_setUp group maxSegments
    obtain ⟨houtcome, hafter⟩ := hgroup.run htends
    -- the others still find their own as it was when the first has had its turn
    have hothers : ∀ other ∈ groups,
        initial.Alike other (installation.run (group.setUp maxSegments)).1 := by
      intro other hother
      have hleft := alike_run (htends.leavesAlone (hne other hother)) installation
      have hown := hgroups other hother
      exact ⟨hown.faults, hafter.faults', hown.engine.trans hleft⟩
    obtain ⟨houtcomes, hafters⟩ := ih hdistinct hothers
    have hrun : installation.run (setUpEach maxSegments (group :: groups)) =
        (((installation.run (group.setUp maxSegments)).1.run (setUpEach maxSegments groups)).1,
          (group, (installation.run (group.setUp maxSegments)).2) ::
            ((installation.run (group.setUp maxSegments)).1.run
              (setUpEach maxSegments groups)).2) :=
      run_setUpEach_cons handler maxSegments group groups installation
    rw [hrun]
    refine ⟨?_, List.forall_mem_cons.mpr ⟨?_, hafters⟩⟩
    · rw [houtcomes, ← houtcome, List.map_cons]
    · -- and the first keeps what it has got while the others have theirs
      have hforeign : ∀ other ∈ groups, other.fullName ≠ group.fullName := fun other hother =>
        (hne other hother).symm
      exact hafter.engine.trans (alike_run (setUpEach_leavesAlone hforeign) _)

/-- **Setting up all groups is setting up each of them alone**, if no two have one full name. -/
theorem setUpAll_alone {installation : Installation} (hfaults : installation.engine.faults = [])
    (hdistinct : ∀ group ∈ installation.registry.groups, ∀ other ∈ installation.registry.groups,
      group.fullName = other.fullName → group = other) :
    installation.setUpAll.2 = installation.registry.groups.toList.map
        (fun group => (group, (installation.setUp group).2)) ∧
      ∀ group ∈ installation.registry.groups.toList,
        (installation.setUp group).1.engine.engine.Alike group
          installation.setUpAll.1.engine.engine := by
  have hnames : installation.registry.groups.toList.Pairwise fun a b =>
      a.fullName ≠ b.fullName := by
    refine Std.ExtTreeSet.ordered_toList.imp_of_mem fun {a b} ha hb hlt heq => ?_
    have hab : a = b :=
      hdistinct a (Std.ExtTreeSet.mem_toList.mp ha) b (Std.ExtTreeSet.mem_toList.mp hb) heq
    rw [Std.LawfulEqOrd.compare_eq_iff_eq.mpr hab] at hlt
    cases hlt
  have hself : ∀ group ∈ installation.registry.groups.toList,
      installation.Alike group installation := fun group _ => ⟨hfaults, hfaults, .refl _ group⟩
  exact run_setUpEach installation.settings.maxSegments hnames hself

end Installation

/-- Groups are ordered by prefix, then by index name. -/
theorem IndexGroup.compare_eq_lt_iff {a b : IndexGroup} : compare a b = .lt ↔
    a.globalPrefix < b.globalPrefix ∨
      (a.globalPrefix = b.globalPrefix ∧ a.indexName < b.indexName) := by
  have htext : ∀ s t : String, compare s t = .lt ↔ s < t := fun _ _ => compareOfLessAndEq_eq_lt
  rw [compare_def, Ordering.then_eq_lt, htext, htext, Std.LawfulEqOrd.compare_eq_iff_eq]

/-- **Groups do not disturb each other.**  Whatever goes wrong, and at any point, setting up and
rotating a group leave what any other group sees, and so does removing an index that the other's
alias is not on.  So setting up all groups gives each of them, in order, what setting it up alone
would have given it. -/
theorem neighbours_undisturbed :
    (∀ (maxSegments : UInt32) (group other : IndexGroup) (s : Scene),
      group.fullName ≠ other.fullName →
        (∀ rest s', Leads erratic (group.setUp maxSegments, s) (rest, s') →
          s.engine.SameTo other s'.engine) ∧
        (∀ rest s', Leads erratic (group.rotate maxSegments, s) (rest, s') →
          s.engine.SameTo other s'.engine) ∧
        ∀ name rest s', Leads erratic (group.removeSegment name, s) (rest, s') →
          (∀ index, s.engine.hasIndex index = true → s'.engine.hasIndex index = false →
            index ∉ s.engine.targetsOf other.aliasName) →
          s.engine.SameTo other s'.engine) ∧
    ∀ installation : Installation, installation.engine.faults = [] →
      (∀ group ∈ installation.registry.groups, ∀ other ∈ installation.registry.groups,
        group.fullName = other.fullName → group = other) →
      (installation.setUpAll.2.map Prod.fst).Pairwise (fun a b =>
        a.globalPrefix < b.globalPrefix ∨
          (a.globalPrefix = b.globalPrefix ∧ a.indexName < b.indexName)) ∧
      (∀ group, group ∈ installation.setUpAll.2.map Prod.fst ↔
        group ∈ installation.registry.groups) ∧
      ∀ group outcome, (group, outcome) ∈ installation.setUpAll.2 →
        outcome = (installation.setUp group).2 ∧
          (installation.setUp group).1.engine.engine.SameTo group
            installation.setUpAll.1.engine.engine := by
  refine ⟨fun maxSegments group other s hne => ⟨?_, ?_, ?_⟩, ?_⟩
  · intro rest s' hleads
    exact (((tendsTo_setUp group maxSegments).leavesAlone hne).alike hleads).sameTo
  · intro rest s' hleads
    exact (((tendsTo_rotate group maxSegments).leavesAlone hne).alike hleads).sameTo
  · intro name rest s' hleads hbound
    exact ((bestEffort_group_removeSegment group name).thinned hne hleads).sameTo hbound
  · intro installation hfaults hdistinct
    obtain ⟨houtcomes, hafter⟩ := installation.setUpAll_alone hfaults hdistinct
    have hgroups : installation.setUpAll.2.map Prod.fst = installation.registry.groups.toList :=
      map_fst_run_setUpEach _ _ _ _
    refine ⟨?_, fun group => ?_, fun group outcome hmem => ?_⟩
    · rw [hgroups]
      exact Std.ExtTreeSet.ordered_toList.imp IndexGroup.compare_eq_lt_iff.mp
    · rw [hgroups]
      exact Std.ExtTreeSet.mem_toList
    · rw [houtcomes] at hmem
      obtain ⟨group, hgroup, heq⟩ := List.mem_map.mp hmem
      obtain ⟨rfl, rfl⟩ := Prod.mk.inj heq
      exact ⟨rfl, (hafter group hgroup).sameTo⟩

/-- An index of one group has the full name of the other.  The other group sees nothing of what is
done to the first, also when that index is removed; and when both are set up, each is as if
alone. -/
theorem neighbours_undisturbed_of_lookalikes :
    let group : IndexGroup := ⟨"graylog", "internal"⟩
    let other : IndexGroup := ⟨"graylog", "internal_2"⟩
    let installation : Installation := {
      engine := { engine := (Engine.serving other 0).insertIndex other.fullName {} }
      registry := {
        fallback := group
        table := Std.ExtTreeMap.ofList [(other.indexName, other), (group.indexName, group)] } }
    let engine := installation.engine.engine
    group.nameOf 2 = other.fullName ∧
      engine.SameTo other (installation.run (group.setUp 1)).1.engine.engine ∧
      engine.SameTo other (installation.run (group.rotate 1)).1.engine.engine ∧
      engine.SameTo other
        (installation.run (group.removeSegment other.fullName)).1.engine.engine ∧
      installation.setUpAll.2.map Prod.fst = [group, other] ∧
      ∀ owner outcome, (owner, outcome) ∈ installation.setUpAll.2 →
        outcome = (installation.setUp owner).2 := by
  intro group other installation engine
  have hne : group.fullName ≠ other.fullName := by decide
  have htargets : (engine.targetsOf other.aliasName).toList = [other.nameOf 0] := by
    decide +kernel
  have hgroups : installation.registry.groups.toList = [group, other] := by decide +kernel
  have hdistinct : ∀ a ∈ installation.registry.groups, ∀ b ∈ installation.registry.groups,
      a.fullName = b.fullName → a = b := by
    simp only [← Std.ExtTreeSet.mem_toList, hgroups]
    decide
  have hfaults : installation.engine.faults = [] := rfl
  have hturns : installation.setUpAll.2.map Prod.fst = installation.registry.groups.toList :=
    map_fst_run_setUpEach _ _ _ _
  obtain ⟨-, -, halone⟩ := neighbours_undisturbed.2 installation hfaults hdistinct
  -- what follows is not about this installation, so nothing needs to be computed
  clear_value installation
  obtain ⟨_, hset⟩ := installation.leads_run (group.setUp 1) []
  obtain ⟨_, hrotated⟩ := installation.leads_run (group.rotate 1) []
  obtain ⟨_, hremoved⟩ := installation.leads_run (group.removeSegment other.fullName) []
  obtain ⟨hsetUp, hrotate, hremove⟩ := neighbours_undisturbed.1 1 group other ⟨engine, []⟩ hne
  refine ⟨by decide, hsetUp _ _ hset, hrotate _ _ hrotated, hremove _ _ _ hremoved ?_,
    hturns.trans hgroups, fun owner outcome hmem => (halone owner outcome hmem).1⟩
  -- the other group's alias is on an index of its own, and that is still there
  intro index hindex hgone htarget
  rw [← Std.ExtTreeSet.mem_toList, htargets, List.mem_singleton] at htarget
  have hthinned := (bestEffort_group_removeSegment group other.fullName).thinned hne hremoved
  rw [htarget] at hindex hgone
  rw [hthinned.hasIndex (other.owns_nameOf 0), hindex] at hgone
  cases hgone

end Rollover
