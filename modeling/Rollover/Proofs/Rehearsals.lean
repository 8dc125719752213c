import Rollover.Proofs.Background
import Rollover.Proofs.Reconciliation
import Rollover.Proofs.Succession
import Rollover.Simulation

/-!
# Rehearsing groups one after the other

A simulation sets up all groups of an installation and then rotates them, one group after the other,
on one engine that was empty before.  Nothing comes in its way.  Setting up gives each group its
first index, every rotation takes a group one index on, and what is done for one group is nothing to
the others, provided that no two of them have one full name.  So the reports and the messages of the
activity log can be said in closed form (`SimulationReport.ofGroups`).  In the proofs the log is a
list of entries (`Activity.ofRotations`), which is put in words at the end.

`faultless_program` says so of the program of a simulation.  The lemmas before it follow the loops:
over the rotations of a group, over the groups that are set up, and over the groups that are
rotated.  Jobs that are done meanwhile make no difference (`busy_program`), so leaving them out of
account, as a rehearsal does, is no restriction.  What is left is to say which groups there are, and
that is known from reconciliation (`simulate_eq_ofGroups`).
-/

namespace Rollover

open Program Environment

/-! ## What comes out -/

/-- The report on a group that was set up and then rotated a number of times. -/
def GroupReport.afterRotations (cycles : Nat) (group : IndexGroup) : GroupReport where
  name := group.fullName
  aliasName := group.aliasName
  target := some (group.nameOf (UInt64.ofNat cycles))
  indices := (List.range (cycles + 1)).map fun number => group.nameOf (UInt64.ofNat number)
  rotations := cycles
  failures := []

/-- The activity log of groups that were all set up, and then rotated a number of times, one after
the other. -/
def Activity.ofRotations (cycles : Nat) (groups : List IndexGroup) : List Activity :=
  (groups.flatMap fun group => [.creatingFirstIndex, .rotated none (group.nameOf 0)]) ++
  groups.flatMap fun group => (List.range cycles).map fun number =>
    .rotated (some (group.nameOf (UInt64.ofNat number))) (group.nameOf (UInt64.ofNat (number + 1)))

/-- The report on groups that were all set up, and then rotated a number of times, one after the
other. -/
def SimulationReport.ofGroups (cycles : Nat) (groups : List IndexGroup) : SimulationReport where
  groups := groups.map (.afterRotations cycles)
  messages :=
    (groups.flatMap fun group => [
      "There is no index target to point to. Creating one now.",
      "Cycled deflector from <none> to <" ++ group.nameOf 0 ++ ">"]) ++
    groups.flatMap fun group => (List.range cycles).map fun number =>
      "Cycled deflector from <" ++ group.nameOf (UInt64.ofNat number) ++ "> to <" ++
        group.nameOf (UInt64.ofNat (number + 1)) ++ ">"

/-- Whether a message is the note that a rebuild was not taken on. -/
def SimulationReport.isNote (message : String) : Bool :=
  "Could not re-calculate index ranges".toList.isPrefixOf message.toList

/-- The report without the notes that a rebuild was not taken on. -/
def SimulationReport.withoutNotes (report : SimulationReport) : SimulationReport :=
  { report with messages := report.messages.filter fun message => !isNote message }

namespace Activity

/-- The messages of a log are those of a report. -/
theorem map_message_ofRotations (cycles : Nat) (groups : List IndexGroup) :
    (ofRotations cycles groups).map message =
      (SimulationReport.ofGroups cycles groups).messages := by
  simp only [ofRotations, SimulationReport.ofGroups, List.map_append, List.map_flatMap,
    List.map_map]
  rfl

/-- What a rotation is told by is not such a note. -/
theorem isNote_message_rotated (previous : Option String) (next : String) :
    SimulationReport.isNote (rotated previous next).message = false := by
  have htext : (rotated previous next).message =
      "Cycled deflector from <" ++ (previous.getD "none" ++ ("> to <" ++ (next ++ ">"))) := by
    rw [← String.append_assoc, ← String.append_assoc, ← String.append_assoc]
    rfl
  have hbegin : "Cycled deflector from <".toList <+: (rotated previous next).message.toList := by
    rw [htext, String.toList_append]
    exact List.prefix_append _ _
  rw [SimulationReport.isNote, Bool.eq_false_iff]
  intro hnote
  -- one of two beginnings of a text is the beginning of the other
  exact absurd (List.prefix_of_prefix_length_le hbegin (List.isPrefixOf_iff_prefix.mp hnote)
    (by decide +kernel)) (by decide +kernel)

/-- The notes can be told from other messages by how they begin. -/
theorem isNote_message (entry : Activity) :
    SimulationReport.isNote entry.message = (entry == .rangesNotRebuilt) := by
  cases entry with
  | creatingFirstIndex | rangesNotRebuilt => decide +kernel
  | rotated previous next => exact isNote_message_rotated previous next

/-- It makes no difference whether the notes are left out before a log is put in words or after. -/
theorem filter_map_message (entries : List Activity) :
    (entries.map message).filter (fun text => !SimulationReport.isNote text) =
      (entries.filter (· != .rangesNotRebuilt)).map message := by
  rw [List.filter_map]
  refine congrArg (List.map message) (List.filter_congr fun entry _ => ?_)
  rw [Function.comp_apply, isNote_message]
  rfl

end Activity

/-! ## One group -/

variable {group : IndexGroup} {groups : List IndexGroup} {s : Scene} {maxSegments : UInt32}
  {cycles count : Nat}

/-- What only asks stays in every territory. -/
theorem Effect.StaysIn.of_isRead {effect : Effect} (h : effect.isRead = true) :
    effect.StaysIn group := by
  cases effect with
  | call request => exact .ask request (by simpa [isRead] using h)
  | submit | record => cases h

/-- Rotating a group a number of times. -/
theorem faultless_rotateTimes {times : Nat} (hroom : count + times ≤ UInt64.size)
    (rotations : Nat) (failures : List String)
    (h : s.engine.Shows group (.after group count)) :
    (Simulation.rotateTimes group maxSegments times rotations failures).Upholds faultless
      (fun _ effect => effect.StaysIn group) (fun outcome s' =>
        outcome = .ok (rotations + times, failures) ∧
          s'.engine.Shows group (.after group (count + times)) ∧
          s'.entries = s.entries ++ (List.range' count times).map (rotationEntry group)) s := by
  induction times generalizing s count rotations with
  | zero => exact ⟨rfl, h, (List.append_nil _).symm⟩
  | succ times ih =>
    refine upholds_bind.mpr ((faultless_rotate_next maxSegments (by omega) h).imp
      fun outcome s₁ h₁ => ?_)
    obtain ⟨⟨rotation, rfl⟩, hshows₁, hentries₁⟩ := h₁
    refine (ih (by omega) (rotations + 1) hshows₁).imp fun outcome s₂ h₂ => ?_
    obtain ⟨rfl, hshows₂, hentries₂⟩ := h₂
    refine ⟨?_, ?_, ?_⟩
    · rw [Nat.add_assoc, Nat.add_comm 1]
    · rwa [Nat.add_assoc, Nat.add_comm 1] at hshows₂
    · rw [hentries₂, hentries₁, List.append_assoc]
      rfl

/-- Asking for the target of a group's alias. -/
theorem faultless_currentTarget (group : IndexGroup) (s : Scene) :
    group.currentTarget.Upholds faultless (fun _ effect => effect.StaysIn group) (fun result s' =>
      result = .ok (s.engine.targetsOf group.aliasName).min? ∧ s.Quiet s') s := by
  unfold IndexGroup.currentTarget
  refine upholds_ask.mpr ⟨.ask _ rfl, fun reply e₁ h₁ => ?_⟩
  obtain ⟨hsame, rfl⟩ := answered_read rfl (answered_of_faultless h₁)
  exact ⟨rfl, .next rfl hsame⟩

/-- Asking for the names of a group's indices. -/
theorem faultless_segmentNames (group : IndexGroup) (s : Scene) :
    group.segmentNames.Upholds faultless (fun _ effect => effect.StaysIn group) (fun result s' =>
      result = .ok (s.engine.viewOf group).names ∧ s.Quiet s') s := by
  unfold IndexGroup.segmentNames
  refine upholds_bind.mpr (((answered_view_of (fun _ _ => .of_isRead) group s).restrict
    fun _ _ _ _ => answered_of_faultless).imp fun result s' h => ?_)
  obtain ⟨hquiet, rfl⟩ := h
  exact ⟨rfl, hquiet⟩

/-- Rotating a group that was set up, and reporting on it. -/
theorem faultless_reportOn (found : SetUp) (hroom : cycles < UInt64.size)
    (h : s.engine.Shows group (.after group 1)) :
    (Simulation.reportOn group maxSegments cycles (.ok found)).Upholds faultless
      (fun _ effect => effect.StaysIn group) (fun outcome s' =>
        outcome = .ok (.afterRotations cycles group) ∧
          s'.entries = s.entries ++ (List.range' 1 cycles).map (rotationEntry group)) s := by
  unfold Simulation.reportOn Simulation.rehearse
  refine upholds_bind.mpr ((faultless_rotateTimes (by omega) 0 [] h).imp fun outcome s₁ h₁ => ?_)
  obtain ⟨rfl, hshows₁, hentries₁⟩ := h₁
  rw [Nat.add_comm 1] at hshows₁
  refine upholds_bind.mpr ((faultless_currentTarget group s₁).imp fun result s₂ h₂ => ?_)
  obtain ⟨rfl, hquiet₂⟩ := h₂
  refine upholds_bind.mpr ((faultless_segmentNames group s₂).imp fun result s₃ h₃ => ?_)
  obtain ⟨rfl, hquiet₃⟩ := h₃
  have hshows₂ := hshows₁.of_same hquiet₂.same
  refine ⟨?_, by rw [hquiet₃.entries, hquiet₂.entries, hentries₁]⟩
  rw [hshows₁.targetsOf, Holding.min?_targets_after, hshows₂.names_viewOf hroom, Nat.zero_add]
  rfl

/-! ## All groups -/

/-- Setting up groups that are untouched. -/
theorem faultless_setUpEach (maxSegments : UInt32)
    (hapart : groups.Pairwise fun a b => a.fullName ≠ b.fullName)
    (h : ∀ group ∈ groups, s.engine.Shows group (.after group 0)) :
    (setUpEach maxSegments groups).Upholds faultless
      (fun _ effect => ∃ group ∈ groups, effect.StaysIn group) (fun outcomes s' =>
        outcomes = groups.map (fun group =>
            (group, .ok (.bootstrapped (.complete group none GroupView.firstNumber)))) ∧
          (∀ group ∈ groups, s'.engine.Shows group (.after group 1)) ∧
          s'.entries = s.entries ++
            groups.flatMap fun group => [.creatingFirstIndex, rotationEntry group 0]) s := by
  induction groups generalizing s with
  | nil => exact ⟨rfl, fun _ hmem => absurd hmem List.not_mem_nil, (List.append_nil _).symm⟩
  | cons group groups ih =>
    obtain ⟨hne, hapart⟩ := List.pairwise_cons.mp hapart
    obtain ⟨hfirst, hrest⟩ := List.forall_mem_cons.mp h
    -- the first group is set up, and the others are still untouched
    refine upholds_bind.mpr ((((faultless_setUp_first maxSegments hfirst).keeps_shows
      (fun _ effect hstays other hother => ⟨group, hstays, hne other hother⟩) hrest).permit
        fun _ _ hstays => ⟨group, List.mem_cons_self, hstays⟩).imp fun outcome s₁ h₁ => ?_)
    obtain ⟨⟨rfl, hfirst₁, hentries₁⟩, hrest₁⟩ := h₁
    -- the others are set up, and the first stays as it is
    have hheld : ∀ other ∈ [group], s₁.engine.Shows other (.after other 1) :=
      List.forall_mem_singleton.mpr hfirst₁
    refine upholds_bind.mpr ((((ih hapart hrest₁).keeps_shows ?_ hheld).permit ?_).imp
      fun outcomes s₂ h₂ => ?_)
    · rintro _ effect ⟨other, hother, hstays⟩ kept hkept
      rw [List.mem_singleton.mp hkept]
      exact ⟨other, hstays, (hne other hother).symm⟩
    · rintro _ effect ⟨other, hother, hstays⟩
      exact ⟨other, List.mem_cons_of_mem group hother, hstays⟩
    obtain ⟨⟨rfl, hrest₂, hentries₂⟩, hfirst₂⟩ := h₂
    refine ⟨rfl, List.forall_mem_cons.mpr ⟨hfirst₂ group List.mem_cons_self, hrest₂⟩, ?_⟩
    rw [hentries₂, hentries₁, List.append_assoc]
    rfl

/-- Rotating groups that were set up, and reporting on them. -/
theorem faultless_reportOnEach (maxSegments : UInt32) (found : IndexGroup → SetUp)
    (hroom : cycles < UInt64.size) (hapart : groups.Pairwise fun a b => a.fullName ≠ b.fullName)
    (h : ∀ group ∈ groups, s.engine.Shows group (.after group 1)) :
    (Simulation.reportOnEach maxSegments cycles
      (groups.map fun group => (group, .ok (found group)))).Upholds faultless
      (fun _ _ => True) (fun outcome s' =>
        outcome = .ok (groups.map (.afterRotations cycles)) ∧
          s'.entries = s.entries ++
            groups.flatMap fun group => (List.range' 1 cycles).map (rotationEntry group)) s := by
  induction groups generalizing s with
  | nil => exact ⟨rfl, (List.append_nil _).symm⟩
  | cons group groups ih =>
    obtain ⟨hne, hapart⟩ := List.pairwise_cons.mp hapart
    obtain ⟨hfirst, hrest⟩ := List.forall_mem_cons.mp h
    refine upholds_bind.mpr ((((faultless_reportOn (found group) hroom hfirst).keeps_shows
      (fun _ effect hstays other hother => ⟨group, hstays, hne other hother⟩) hrest).permit
        fun _ _ _ => trivial).imp fun outcome s₁ h₁ => ?_)
    obtain ⟨⟨rfl, hentries₁⟩, hrest₁⟩ := h₁
    refine upholds_bind.mpr ((ih hapart hrest₁).imp fun outcome s₂ h₂ => ?_)
    obtain ⟨rfl, hentries₂⟩ := h₂
    refine ⟨rfl, ?_⟩
    rw [hentries₂, hentries₁, List.append_assoc]
    rfl

/-- **What a simulation comes to on an engine that has nothing of the groups.** -/
theorem faultless_program (maxSegments : UInt32) (hroom : cycles < UInt64.size)
    (hdistinct : (groups.map IndexGroup.fullName).Nodup)
    (h : ∀ group ∈ groups, s.engine.Shows group (.after group 0)) :
    (Simulation.program groups maxSegments cycles).Upholds faultless (fun _ _ => True)
      (fun outcome s' => outcome = .ok (SimulationReport.ofGroups cycles groups).groups ∧
        s'.entries = s.entries ++ Activity.ofRotations cycles groups) s := by
  have hapart : groups.Pairwise fun a b => a.fullName ≠ b.fullName := List.pairwise_map.mp hdistinct
  unfold Simulation.program
  refine upholds_bind.mpr (((faultless_setUpEach maxSegments hapart h).permit
    fun _ _ _ => trivial).imp fun outcomes s₁ h₁ => ?_)
  obtain ⟨rfl, hshows₁, hentries₁⟩ := h₁
  refine (faultless_reportOnEach maxSegments _ hroom hapart hshows₁).imp
    fun outcome s₂ h₂ => ?_
  obtain ⟨rfl, hentries₂⟩ := h₂
  have hrounds : ∀ group, (List.range' 1 cycles).map (rotationEntry group) =
      (List.range cycles).map fun number => .rotated (some (group.nameOf (UInt64.ofNat number)))
        (group.nameOf (UInt64.ofNat (number + 1))) := by
    intro group
    rw [List.range'_eq_map_range, List.map_map]
    refine List.map_congr_left fun number _ => ?_
    rw [Function.comp_apply, Nat.add_comm, rotationEntry]
  refine ⟨rfl, ?_⟩
  rw [hentries₂, hentries₁, List.append_assoc]
  simp only [hrounds]
  rfl

/-- A simulation that begins on an empty engine comes to that, whatever jobs do on the way. -/
theorem busy_program (hroom : cycles < UInt64.size)
    (hdistinct : (groups.map IndexGroup.fullName).Nodup)
    {outcome : Outcome (List GroupReport)} {s' : Scene}
    (hleads : Leads busy (Simulation.program groups maxSegments cycles, { engine := {} })
      (.done outcome, s')) :
    outcome = .ok (SimulationReport.ofGroups cycles groups).groups ∧
      s'.entries = Activity.ofRotations cycles groups := by
  let s : Scene := { engine := {} }
  have hempty : ∀ group ∈ groups, s.engine.Shows group (.after group 0) :=
    fun group _ => Engine.shows_empty group
  have hupholds := (faultless_program maxSegments hroom hdistinct hempty).busy (t := s) ⟨rfl, rfl⟩
  obtain ⟨s₁, hsame, hresult, hentries⟩ := hupholds.steps hleads
  refine ⟨hresult, ?_⟩
  rw [Scene.entries, hsame.deeds, ← Scene.entries, hentries]
  exact List.nil_append _

/-! ## The rehearsal -/

namespace Rehearsal

/-- The activity log, oldest entry first, without the notes that a rebuild was not taken on. -/
def entries (rehearsal : Rehearsal) : List Activity :=
  rehearsal.activities.toList.filter (· != .rangesNotRebuilt)

/-- What a rehearsal does about an effect has nothing in its way. -/
theorem faultless_handle {rehearsal : Rehearsal} (havailable : rehearsal.engine.unavailable = false)
    (hcreates : rehearsal.engine.refusesCreates = false) (effect : Effect) :
    faultless rehearsal.engine effect (handler.handle rehearsal effect).2
      (handler.handle rehearsal effect).1.engine := by
  refine ⟨?_, havailable, hcreates⟩
  cases effect with
  | call request => exact Prod.ext rfl rfl
  | submit | record => rfl

theorem entries_handle (rehearsal : Rehearsal) (effect : Effect) :
    (handler.handle rehearsal effect).1.entries =
      rehearsal.entries ++ ([effect].filter Effect.isDeed).filterMap Effect.entry? := by
  cases effect with
  | call request =>
    cases request <;> exact (List.append_nil _).symm
  | submit job => exact (List.append_nil _).symm
  | record entry =>
    show (rehearsal.activities.push entry).toList.filter _ = _
    rw [Array.toList_push, List.filter_append, entries]
    cases entry <;> rfl

/-- A program that was rehearsed got to its end step by step. -/
theorem leads_run {α : Type} (rehearsal : Rehearsal)
    (havailable : rehearsal.engine.unavailable = false)
    (hcreates : rehearsal.engine.refusesCreates = false) (p : Program α) (past : List Moment)
    (hentries : Scene.entries ⟨rehearsal.engine, past⟩ = rehearsal.entries) :
    ∃ past', Leads faultless (p, ⟨rehearsal.engine, past⟩)
        (.done (p.run handler rehearsal).2, ⟨(p.run handler rehearsal).1.engine, past'⟩) ∧
      Scene.entries ⟨(p.run handler rehearsal).1.engine, past'⟩ =
        (p.run handler rehearsal).1.entries := by
  induction p generalizing rehearsal past with
  | done result => exact ⟨past, .refl, hentries⟩
  | perform effect next ih =>
    have happens := faultless_handle havailable hcreates effect
    obtain ⟨hswitch, hswitch'⟩ := calm_switches happens.1
    have hnext : Scene.entries ⟨(handler.handle rehearsal effect).1.engine,
        ⟨rehearsal.engine, effect, (handler.handle rehearsal effect).2⟩ :: past⟩ =
          (handler.handle rehearsal effect).1.entries := by
      rw [entries_handle, ← hentries]
      exact Scene.entries_next ⟨rehearsal.engine, past⟩ effect _ _
    obtain ⟨past', hleads, hentries'⟩ := ih (handler.handle rehearsal effect).2 _
      (hswitch.trans havailable) (hswitch'.trans hcreates) _ hnext
    exact ⟨past', .head (.perform happens) hleads, hentries'⟩

end Rehearsal

/-! ## The simulation -/

/-- What is rehearsed with groups that are known. -/
theorem Rehearsal.run_program (settings : Settings) (hroom : cycles < UInt64.size)
    (hdistinct : (groups.map IndexGroup.fullName).Nodup) :
    let after := (Simulation.program groups settings.maxSegments cycles).run handler
      (ofSettings settings)
    after.2 = .ok (SimulationReport.ofGroups cycles groups).groups ∧
      after.1.entries = Activity.ofRotations cycles groups := by
  intro after
  -- a rehearsal is a run in which no job has come to be done
  obtain ⟨past, hleads, hentries⟩ := (ofSettings settings).leads_run rfl rfl
    (Simulation.program groups settings.maxSegments cycles) [] rfl
  obtain ⟨hresult, hend⟩ := busy_program hroom hdistinct (hleads.mono busy_of_faultless)
  exact ⟨hresult, hentries.symm.trans hend⟩

/-- A file that does not load has no simulation. -/
theorem simulate_of_not_loaded (settings : Settings) {file : Option FileContent} {cause : Error}
    (hloaded : (file.map GroupFile.load).getD (.ok ∅) = .error cause) :
    simulate settings file cycles = .error .unreadableGroups := by
  unfold simulate
  simp only [hloaded]
  rfl

/-- What a simulation comes to when the groups are known. -/
theorem simulate_of_groups {settings : Settings} {file : Option FileContent} {stored : GroupSet}
    (hroom : cycles < UInt64.size)
    (hloaded : (file.map GroupFile.load).getD (.ok ∅) = .ok stored)
    (hdistinct : (((Registry.ofSettings settings).reconcile (.ok stored)).1.groups.toList.map
      IndexGroup.fullName).Nodup) :
    (simulate settings file cycles).map SimulationReport.withoutNotes = .ok (.ofGroups cycles
      ((Registry.ofSettings settings).reconcile (.ok stored)).1.groups.toList) := by
  have houtcome : ((Registry.ofSettings settings).reconcile (.ok stored)).2 ≠ .storeFailed := by
    rcases (Registry.ofSettings settings).reconcile_ok stored with ⟨-, h⟩ | ⟨-, h⟩
    · rw [h]
      exact nofun
    · rw [h]
      exact nofun
  obtain ⟨hresult, hentries⟩ := Rehearsal.run_program settings hroom hdistinct
  unfold simulate
  simp only [hloaded]
  generalize (Registry.ofSettings settings).reconcile (.ok stored) = reconciled at *
  obtain ⟨registry, outcome⟩ := reconciled
  generalize (Simulation.program registry.groups.toList settings.maxSegments cycles).run
    Rehearsal.handler (.ofSettings settings) = rehearsed at *
  obtain ⟨rehearsal, result⟩ := rehearsed
  subst hresult
  have hmessages : (rehearsal.activities.toList.map Activity.message).filter
      (fun text => !SimulationReport.isNote text) =
        (SimulationReport.ofGroups cycles registry.groups.toList).messages := by
    rw [Activity.filter_map_message, ← Activity.map_message_ofRotations]
    exact congrArg (List.map Activity.message) hentries
  have hreport : SimulationReport.withoutNotes {
      groups := (SimulationReport.ofGroups cycles registry.groups.toList).groups
      messages := rehearsal.activities.toList.map Activity.message } =
        .ofGroups cycles registry.groups.toList :=
    congrArg (SimulationReport.mk _) hmessages
  cases outcome with
  | storeFailed => exact absurd rfl houtcome
  | unchanged | updated => exact congrArg Except.ok hreport

/-- **A simulation fails no group and comes out in closed form.**  A file that does not load has no
simulation.  Otherwise the registered groups are the first ones for each index name, of those in the
file and the default group of the settings, in ascending order.  If no two of them have one full
name, all of them are set up, and then each is rotated `cycles` times and has the indices `0`, ...,
`cycles`; and apart from the notes that a rebuild was not taken on, that is what the activity log
says, word for word.  None of it depends on when jobs are done, or which of them are taken on.

The number of cycles is one of 64 bits, and so there is a number for every index. -/
theorem simulate_eq_ofGroups (settings : Settings) (file : Option FileContent) (cycles : Nat)
    (hroom : cycles < UInt64.size) :
    (∀ cause, (file.map GroupFile.load).getD (.ok ∅) = .error cause →
        simulate settings file cycles = .error .unreadableGroups) ∧
      ∀ stored, (file.map GroupFile.load).getD (.ok ∅) = .ok stored →
        let groups := ((Registry.ofSettings settings).reconcile (.ok stored)).1.groups.toList
        groups.Pairwise (fun a b => a.globalPrefix < b.globalPrefix ∨
            (a.globalPrefix = b.globalPrefix ∧ a.indexName < b.indexName)) ∧
          (∀ group, group ∈ groups ↔
            GroupTable.IsFirst (stored.insert settings.defaultGroup) group) ∧
          ((groups.map IndexGroup.fullName).Nodup →
            (simulate settings file cycles).map SimulationReport.withoutNotes =
              .ok (.ofGroups cycles groups) ∧
            ∀ outcome s', Leads busy
                (Simulation.program groups settings.maxSegments cycles, { engine := {} })
                (.done outcome, s') →
              outcome = .ok (SimulationReport.ofGroups cycles groups).groups ∧
                s'.entries = Activity.ofRotations cycles groups ∧
                s'.entries.map Activity.message =
                  (SimulationReport.ofGroups cycles groups).messages) := by
  refine ⟨fun cause => simulate_of_not_loaded settings, fun stored hloaded => ?_⟩
  intro groups
  refine ⟨?_, fun group => ?_, fun hdistinct => ⟨?_, fun outcome s' hleads => ?_⟩⟩
  · refine Std.ExtTreeSet.ordered_toList.imp fun {a b} hlt => ?_
    exact GroupTable.compare_eq_lt_iff.mp hlt
  · rw [Std.ExtTreeSet.mem_toList]
    exact Registry.Reaches.start.mem_groups_reconcile
  · exact simulate_of_groups hroom hloaded hdistinct
  · obtain ⟨hresult, hentries⟩ := busy_program hroom hdistinct hleads
    exact ⟨hresult, hentries, hentries ▸ Activity.map_message_ofRotations cycles groups⟩

/-- A file with one group besides the default group, and one rotation of each; and a file that
cannot be read. -/
theorem simulate_eq_ofGroups_audit :
    let file : FileContent := .bytes "[[\"graylog\", \"audit\"]]".toUTF8
    let groups : List IndexGroup := [⟨"graylog", "audit"⟩, ⟨"graylog", "internal"⟩]
    1 < UInt64.size ∧ simulate {} (some .unreadable) 1 = .error .unreadableGroups ∧
      (groups.map IndexGroup.fullName).Nodup ∧
      (simulate {} (some file) 1).map SimulationReport.withoutNotes = .ok (.ofGroups 1 groups) ∧
      (SimulationReport.ofGroups 1 groups).messages = [
        "There is no index target to point to. Creating one now.",
        "Cycled deflector from <none> to <graylog_audit_0>",
        "There is no index target to point to. Creating one now.",
        "Cycled deflector from <none> to <graylog_internal_0>",
        "Cycled deflector from <graylog_audit_0> to <graylog_audit_1>",
        "Cycled deflector from <graylog_internal_0> to <graylog_internal_1>"] ∧
      ∃ s', Leads busy (Simulation.program groups 1 1, { engine := {} })
          (.done (.ok (SimulationReport.ofGroups 1 groups).groups), s') ∧
        s'.entries.map Activity.message = (SimulationReport.ofGroups 1 groups).messages := by
  intro file groups
  let audit : IndexGroup := ⟨"graylog", "audit"⟩
  let stored : GroupSet := Std.ExtTreeSet.ofList [audit]
  have hroom : 1 < UInt64.size := by decide
  have hdistinct : (groups.map IndexGroup.fullName).Nodup := by decide +kernel
  have hloaded : ((some file).map GroupFile.load).getD (.ok ∅) = .ok stored := by
    rw [Option.map_some, Option.getD_some]
    exact eq_ok_of_toOption (by decide +kernel)
  have hwanted : ∀ group, group ∈ stored.insert (Settings.defaultGroup {}) ↔ group ∈ groups := by
    intro group
    rw [Std.ExtTreeSet.mem_insert, Std.LawfulEqOrd.compare_eq_iff_eq, Std.ExtTreeSet.mem_ofList,
      List.contains_iff_mem, List.mem_singleton, List.mem_cons, List.mem_singleton]
    exact or_comm.trans (or_congr Iff.rfl eq_comm)
  have hfirst : ∀ group ∈ groups, ∀ other ∈ groups, other.indexName = group.indexName →
      GroupTable.inOrder group other = true := by decide +kernel
  obtain ⟨hfails, -⟩ := simulate_eq_ofGroups {} (some .unreadable) 1 hroom
  obtain ⟨-, hsucceeds⟩ := simulate_eq_ofGroups {} (some file) 1 hroom
  obtain ⟨hsorted, hmem, hreport⟩ := hsucceeds stored hloaded
  have hgroups : ((Registry.ofSettings {}).reconcile (.ok stored)).1.groups.toList = groups := by
    refine eq_of_ascending (fun a b => Std.OrientedCmp.not_lt_of_lt)
      (hsorted.imp GroupTable.compare_eq_lt_iff.mpr) (by decide +kernel) fun group => ?_
    rw [hmem]
    constructor
    · exact fun h => (hwanted group).mp h.mem
    · exact fun h => ⟨(hwanted group).mpr h, fun other hother =>
        hfirst group h other ((hwanted other).mp hother)⟩
  rw [hgroups] at hreport
  obtain ⟨hsimulated, hbusy⟩ := hreport hdistinct
  refine ⟨hroom, hfails _ rfl, hdistinct, hsimulated, by decide +kernel, ?_⟩
  obtain ⟨past, hleads, -⟩ := (Rehearsal.ofSettings {}).leads_run rfl rfl
    (Simulation.program groups 1 1) [] rfl
  have hleads' : Leads busy _ _ := hleads.mono busy_of_faultless
  obtain ⟨hresult, -, hmessages⟩ := hbusy _ _ hleads'
  rw [hresult] at hleads'
  exact ⟨_, hleads', hmessages⟩

end Rollover
