import Mathlib.Data.List.Perm.Basic
import Rollover.Exercise
import Rollover.Proofs.Progress

/-!
# A drill ends the same way in whatever order

In a drill a number of workers rotate the same groups in turn, a number of times each, on a fresh
installation.  Which of them is first at a group, and what happens in between, is a matter of the
schedule; what comes of it is not.

Every schedule can be gone on with to the end.  No rotation ever fails, and when everybody is done,
each group was rotated once by every worker in every cycle: it has as many indices, its alias has
been on each of them in turn, all of them are sealed but the last, and each rotation has handed over
its jobs (`Crew.Drilled`).
-/

namespace Rollover

/-! ## What a group looks like in the end -/

/-- A group has gone through `count` indices, one after the other. -/
structure Engine.RotatedThrough (e : Engine) (group : IndexGroup) (count : Nat) : Prop where
  /-- The group has the indices with the numbers below `count`, and no others. -/
  hasIndex_iff : ∀ name number, group.numberOf? name = some number →
    (e.hasIndex name = true ↔ name = group.nameOf number ∧ number.toNat < count)
  /-- Its alias is on the last of them. -/
  targets : (e.targetsOf group.aliasName).toList =
    if count = 0 then [] else [group.nameOf (UInt64.ofNat (count - 1))]
  /-- Its alias has been on each of them in turn, and on nothing else. -/
  history : e.historyOf group.aliasName =
    (List.range count).map fun number => [group.nameOf (UInt64.ofNat number)]
  /-- All but the last were flushed once and set read-only. -/
  sealed : ∀ number : UInt64, number.toNat + 1 < count →
    e.indices[group.nameOf number]? = some { stats := { readOnly := true }, flushes := 1 }
  /-- Nothing has happened to the last. -/
  last : ∀ number : UInt64, number.toNat + 1 = count → e.indices[group.nameOf number]? = some {}

theorem Engine.Shows.rotatedThrough {e : Engine} {group : IndexGroup} {count : Nat}
    (h : e.Shows group (.after group count)) : e.RotatedThrough group count where
  hasIndex_iff name number hnumber := by
    rw [Engine.hasIndex_iff, h.index name number hnumber]
    by_cases hname : name = group.nameOf number
    · rw [if_pos hname, ← Option.isSome_iff_exists, Holding.isSome_index_after]
      exact (and_iff_right hname).symm
    · simp [hname]
  targets := by
    rw [h.targetsOf]
    cases count with
    | zero => rfl
    | succ last => exact toList_ofList_singleton _
  history := by
    rw [Engine.historyOf, h.binding]
    rfl
  sealed number hnumber := by
    rw [h.getElem?]
    exact if_pos hnumber
  last number hnumber := by
    rw [h.getElem?]
    show (if number.toNat + 1 < count then some IndexState.retired else _) = _
    rw [if_neg (by omega), if_pos (by omega)]

/-! ## The jobs of all groups -/

/-- Jobs that are about some of the groups can be sorted by groups. -/
theorem perm_flatMap_filter_isOf {groups : List IndexGroup} {jobs : List Job}
    (hdistinct : (groups.map IndexGroup.fullName).Nodup)
    (habout : ∀ job ∈ jobs, ∃ group ∈ groups, job.isOf group = true) :
    jobs.Perm (groups.flatMap fun group => jobs.filter (Job.isOf group)) := by
  induction groups generalizing jobs with
  | nil =>
    obtain rfl : jobs = [] := List.eq_nil_iff_forall_not_mem.mpr fun job hjob => by
      obtain ⟨group, hgroup, -⟩ := habout job hjob
      cases hgroup
    rfl
  | cons group groups ih =>
    obtain ⟨hgroup, hdistinct⟩ := List.nodup_cons.mp hdistinct
    have hforeign : ∀ other ∈ groups, ∀ job : Job,
        job.isOf other = true → job.isOf group = false := by
      intro other hother job hjob
      refine Bool.eq_false_iff.mpr fun hjob' => hgroup ?_
      rw [Job.fullName_eq hjob' hjob]
      exact List.mem_map_of_mem hother
    have hothers : ∀ other ∈ groups,
        (jobs.filter fun job => !job.isOf group).filter (Job.isOf other) =
          jobs.filter (Job.isOf other) := by
      intro other hother
      rw [List.filter_filter]
      refine List.filter_congr fun job _ => ?_
      cases hjob : job.isOf other with
      | false => rfl
      | true => rw [hforeign other hother job hjob]; rfl
    have hrest : (jobs.filter fun job => !job.isOf group).Perm
        (groups.flatMap fun other => jobs.filter (Job.isOf other)) := by
      rw [← List.flatMap_congr hothers]
      refine ih hdistinct fun job hjob => ?_
      obtain ⟨hmem, hnot⟩ := List.mem_filter.mp hjob
      obtain ⟨other, hother, hisOf⟩ := habout job hmem
      rcases List.mem_cons.mp hother with rfl | hother
      · rw [hisOf] at hnot
        cases hnot
      · exact ⟨other, hother, hisOf⟩
    exact (List.filter_append_perm (Job.isOf group) jobs).symm.trans (hrest.append_left _)

/-- The jobs of a number of rotations are one rebuild for each of them, and one merge for each index
but the last. -/
theorem jobsThrough_perm (maxSegments : UInt32) (group : IndexGroup) (count : Nat) :
    (jobsThrough maxSegments group count).Perm
      (List.replicate count (.rebuildRanges group) ++
        (List.range (count - 1)).map fun number =>
          .optimize (group.nameOf (UInt64.ofNat number)) maxSegments) := by
  induction count with
  | zero => rfl
  | succ count ih =>
    rw [jobsThrough_succ]
    refine (ih.append_right _).trans ?_
    cases count with
    | zero => rfl
    | succ last =>
      have hjobs : rotationJobs maxSegments group (last + 1) =
          [.rebuildRanges group] ++ [.optimize (group.nameOf (UInt64.ofNat last)) maxSegments] :=
        rfl
      rw [hjobs, Nat.add_sub_cancel, Nat.add_sub_cancel, List.range_succ (n := last),
        List.map_append, List.map_singleton, List.replicate_succ' (n := last + 1),
        List.append_assoc, List.append_assoc]
      exact (List.perm_append_comm_assoc _ _ _).append_left _

namespace Crew

/-! ## Hiring a crew -/

theorem count_flatten_replicate (n : Nat) (groups : List IndexGroup) (group : IndexGroup) :
    (List.replicate n groups).flatten.count group = n * groups.count group := by
  rw [List.count_flatten, List.map_replicate, List.sum_replicate_nat]

theorem length_flatten_replicate (n : Nat) (groups : List IndexGroup) :
    (List.replicate n groups).flatten.length = n * groups.length := by
  rw [List.length_flatten, List.map_replicate, List.sum_replicate_nat]

theorem mem_of_mem_flatten_replicate {n : Nat} {groups : List IndexGroup} {group : IndexGroup}
    (h : group ∈ (List.replicate n groups).flatten) : group ∈ groups := by
  obtain ⟨round, hround, hgroup⟩ := List.mem_flatten.mp h
  rwa [List.eq_of_mem_replicate hround] at hgroup

/-- The post of a worker who has just been hired. -/
def newPost (cycles : Nat) (groups : List IndexGroup) : Post where
  todo := (List.replicate cycles groups).flatten

theorem budget_newPosts (count cycles : Nat) (groups : List IndexGroup) :
    budget (List.replicate count (newPost cycles groups)) =
      stepsPerRotation * (count * cycles * groups.length) := by
  have hpost : (newPost cycles groups).budget = stepsPerRotation * (cycles * groups.length) := by
    rw [Post.budget, newPost, length_flatten_replicate]
    rfl
  induction count with
  | zero => rw [Nat.zero_mul, Nat.zero_mul]; rfl
  | succ count ih =>
    rw [List.replicate_succ, budget, ih, hpost, ← Nat.mul_add, Nat.succ_mul, Nat.add_mul,
      Nat.add_comm]

/-- A crew that was hired to rotate fresh groups is on its course. -/
theorem staffed_hire {installation : Installation} {load : Workload} (count cycles : Nat)
    (groups : List IndexGroup) (hundisturbed : installation.Undisturbed)
    (hmaxSegments : installation.settings.maxSegments = load.maxSegments)
    (hfresh : ∀ group ∈ load.groups, installation.TurnedOver group 0)
    (hrecorded : installation.recorded = [])
    (hrotations : load.rotations =
      (List.replicate count (List.replicate cycles groups).flatten).flatten) :
    (hire installation count cycles groups).Staffed load
      (List.replicate count (newPost cycles groups)) [] := by
  have hidle : ∀ post ∈ List.replicate count (newPost cycles groups), post.duty = .idle :=
    fun post hpost => by rw [List.eq_of_mem_replicate hpost, newPost]
  refine ⟨⟨.of_idle hidle, hundisturbed, hmaxSegments, fun group hgroup _ => hfresh group hgroup,
    ?_, ?_, rfl, rfl, ?_⟩, ?_⟩
  · rw [ongoings_of_idle hidle]
    exact nofun
  · intro job hjob
    have hjob' : job ∈ installation.recorded := hjob
    rw [hrecorded] at hjob'
    cases hjob'
  · rw [hrotations, List.nil_append, List.flatMap_def, List.map_replicate]
    rfl
  · rw [List.map_replicate]
    rfl

/-! ## The drill -/

/-- The groups of a drill. -/
def drillGroups (groups : Nat) : List IndexGroup :=
  (List.range groups).map fun number => Settings.group {} (drillName number)

/-- The crew of a drill, before anybody has done anything. -/
def atDrill (workers cycles groups : Nat) : Crew :=
  let names := (List.range groups).map drillName
  let installation := Installation.register {} names
  hire installation workers cycles (names.map installation.settings.group)

theorem drill_eq_work (workers cycles groups : Nat) :
    drill workers cycles groups = (atDrill workers cycles groups).work := rfl

theorem fullName_drillGroup_injective :
    Function.Injective fun number => (Settings.group {} (drillName number)).fullName := by
  intro m n h
  have hlists := congrArg String.toList h
  simp only [IndexGroup.fullName, Settings.group, drillName, String.toList_append,
    List.append_cancel_left_eq] at hlists
  exact Decimal.text_injective (String.toList_inj.mp hlists)

theorem nodup_fullName_drillGroups (groups : Nat) :
    ((drillGroups groups).map IndexGroup.fullName).Nodup := by
  rw [drillGroups, List.map_map]
  exact List.nodup_range.map fullName_drillGroup_injective

theorem count_drillGroups_le (groups : Nat) (group : IndexGroup) :
    (drillGroups groups).count group ≤ 1 :=
  List.nodup_iff_count_le_one.mp (nodup_fullName_drillGroups groups).of_map group

/-- What there is to do in a drill. -/
def drillLoad (workers cycles groups : Nat) (hroom : workers * cycles ≤ UInt64.size) :
    Workload where
  groups := drillGroups groups
  rotations := (List.replicate workers (List.replicate cycles (drillGroups groups)).flatten).flatten
  maxSegments := 1
  distinct := nodup_fullName_drillGroups groups
  mem_groups group hgroup :=
    mem_of_mem_flatten_replicate (mem_of_mem_flatten_replicate hgroup)
  room group := by
    rw [count_flatten_replicate, count_flatten_replicate, ← Nat.mul_assoc]
    have hcount := Nat.mul_le_mul_left (workers * cycles) (count_drillGroups_le groups group)
    rw [Nat.mul_one] at hcount
    exact Nat.le_trans hcount hroom

theorem staffed_atDrill {workers cycles groups : Nat} (hroom : workers * cycles ≤ UInt64.size) :
    (atDrill workers cycles groups).Staffed (drillLoad workers cycles groups hroom)
      (List.replicate workers (newPost cycles (drillGroups groups))) [] := by
  have hgroups : ((List.range groups).map drillName).map (Settings.group {}) =
      drillGroups groups := by
    rw [List.map_map]
    rfl
  have hstaffed : (hire (Installation.register {} ((List.range groups).map drillName)) workers
      cycles (drillGroups groups)).Staffed (drillLoad workers cycles groups hroom)
      (List.replicate workers (newPost cycles (drillGroups groups))) [] :=
    staffed_hire workers cycles _ ⟨rfl, rfl, rfl, rfl, rfl⟩ rfl
      (fun group _ => ⟨Engine.shows_empty group, rfl⟩) rfl rfl
  rw [← hgroups] at hstaffed ⊢
  exact hstaffed

/-- What has come of a drill in which each of a number of groups was rotated `count` times. -/
structure Drilled (crew : Crew) (count groups : Nat) : Prop where
  /-- All rotations have taken place. -/
  succeeded : crew.succeeded = count * groups
  failed : crew.failed = 0
  rotated : ∀ group ∈ drillGroups groups,
    crew.installation.engine.engine.RotatedThrough group count
  /-- The jobs are one rebuild for every rotation, and one merge for every index that was left. -/
  recorded : crew.installation.recorded.Perm
    ((drillGroups groups).flatMap fun group => List.replicate count (.rebuildRanges group) ++
      (List.range (count - 1)).map fun number => .optimize (group.nameOf (UInt64.ofNat number)) 1)
  rebuilds : crew.installation.recorded.countP (fun job => job.kind = .rebuildRanges) =
    count * groups
  merges : crew.installation.recorded.countP (fun job => job.kind = .optimize) =
    (count - 1) * groups

theorem length_drillGroups (groups : Nat) : (drillGroups groups).length = groups := by
  rw [drillGroups, List.length_map, List.length_range]

theorem count_rotations_drillLoad {workers cycles groups : Nat}
    (hroom : workers * cycles ≤ UInt64.size) {group : IndexGroup}
    (hgroup : group ∈ drillGroups groups) :
    (drillLoad workers cycles groups hroom).rotations.count group = workers * cycles := by
  have hcount : (drillGroups groups).count group = 1 :=
    Nat.le_antisymm (count_drillGroups_le groups group) (List.count_pos_iff.mpr hgroup)
  rw [drillLoad, count_flatten_replicate, count_flatten_replicate, hcount, Nat.mul_one]

theorem countP_flatMap_of_forall {groups : List IndexGroup} {jobs : IndexGroup → List Job}
    {p : Job → Bool} {n : Nat} (h : ∀ group ∈ groups, (jobs group).countP p = n) :
    (groups.flatMap jobs).countP p = n * groups.length := by
  have hcounts : groups.map (List.countP p ∘ jobs) = List.replicate groups.length n := by
    rw [← List.map_const']
    exact List.map_congr_left h
  rw [List.countP_flatMap, hcounts, List.sum_replicate_nat, Nat.mul_comm]

/-- The jobs of a drill that is done. -/
theorem Staffed.recorded_perm {crew : Crew} {load : Workload} {posts : List Post}
    {finished : List IndexGroup} (h : crew.Staffed load posts finished)
    (hdone : crew.isDone = true) : crew.installation.recorded.Perm
      (load.groups.flatMap fun group =>
        jobsThrough load.maxSegments group (load.rotations.count group)) := by
  have hjobs : ∀ group ∈ load.groups,
      crew.installation.recorded.filter (Job.isOf group) =
        jobsThrough load.maxSegments group (load.rotations.count group) := by
    intro group hgroup
    rw [← h.course.maxSegments, ← ((h.finished_of_isDone hdone).2 group hgroup).jobs]
    rfl
  rw [← List.flatMap_congr hjobs]
  exact perm_flatMap_filter_isOf load.distinct h.course.about

theorem Staffed.drilled {crew : Crew} {workers cycles groups : Nat}
    {hroom : workers * cycles ≤ UInt64.size} {posts : List Post} {finished : List IndexGroup}
    (h : crew.Staffed (drillLoad workers cycles groups hroom) posts finished)
    (hdone : crew.isDone = true) : crew.Drilled (workers * cycles) groups := by
  obtain ⟨hsucceeded, hover⟩ := h.finished_of_isDone hdone
  have hrecorded : crew.installation.recorded.Perm
      ((drillGroups groups).flatMap fun group =>
        List.replicate (workers * cycles) (.rebuildRanges group) ++
          (List.range (workers * cycles - 1)).map fun number =>
            .optimize (group.nameOf (UInt64.ofNat number)) 1) := by
    refine (h.recorded_perm hdone).trans (List.Perm.flatMap_left _ fun group hgroup => ?_)
    rw [count_rotations_drillLoad hroom hgroup]
    exact jobsThrough_perm 1 group _
  refine ⟨?_, h.course.failed, fun group hgroup => ?_, hrecorded, ?_, ?_⟩
  · rw [hsucceeded, drillLoad, length_flatten_replicate, length_flatten_replicate,
      length_drillGroups, Nat.mul_assoc]
  · have hgroupOver := hover group hgroup
    rw [count_rotations_drillLoad hroom hgroup] at hgroupOver
    exact hgroupOver.shows.rotatedThrough
  · rw [hrecorded.countP_eq, countP_flatMap_of_forall fun group _ => ?_, length_drillGroups]
    simp [List.countP_append, List.countP_replicate, List.countP_map, Job.kind, Function.comp_def]
  · rw [hrecorded.countP_eq, countP_flatMap_of_forall fun group _ => ?_, length_drillGroups]
    simp [List.countP_append, List.countP_replicate, List.countP_map, Job.kind, Function.comp_def]

/-- **A drill ends the same way in whatever order the workers take their turns.**  No rotation
fails on the way; when everybody is done, the groups, the aliases and the jobs are as `Drilled`
says; and everybody gets done, if only everybody has a turn often enough. -/
theorem follow_atDrill (workers cycles groups : Nat) (hroom : workers * cycles ≤ UInt64.size)
    (schedule : List Nat) :
    let crew := (atDrill workers cycles groups).follow schedule
    crew.failed = 0 ∧
      (crew.isDone = true → crew.Drilled (workers * cycles) groups) ∧
      ∀ rounds : List (List Nat), (∀ round ∈ rounds, ∀ turn < workers, turn ∈ round) →
        stepsPerRotation * (workers * cycles * groups) ≤ rounds.length →
          (crew.follow rounds.flatten).isDone = true := by
  intro crew
  obtain ⟨posts, finished, h, hlength, hbudget⟩ := (staffed_atDrill hroom).exists_follow schedule
  rw [List.length_replicate] at hlength
  rw [budget_newPosts, length_drillGroups] at hbudget
  refine ⟨h.course.failed, h.drilled, fun rounds hrounds hmany => ?_⟩
  rw [← hlength] at hrounds
  exact h.isDone_rounds hrounds (Nat.le_trans hbudget hmany)

/-- Three workers with thirty rotations of two groups each, who take their turns one after the
other. -/
theorem follow_atDrill_of_three : 3 * 10 ≤ UInt64.size ∧
    Drilled ((atDrill 3 10 2).follow (List.replicate 960 [0, 1, 2]).flatten) 30 2 := by
  have hroom : 3 * 10 ≤ UInt64.size := by decide
  have hrounds : ∀ round ∈ List.replicate 960 [0, 1, 2], ∀ turn < 3, turn ∈ round := by
    intro round hround turn hturn
    rw [List.eq_of_mem_replicate hround]
    simp only [List.mem_cons, List.not_mem_nil, or_false]
    omega
  have hmany : stepsPerRotation * (3 * 10 * 2) ≤ (List.replicate 960 [0, 1, 2]).length := by
    rw [List.length_replicate]
    decide
  obtain ⟨-, -, hlive⟩ := follow_atDrill 3 10 2 hroom []
  obtain ⟨-, hdrilled, -⟩ :=
    follow_atDrill 3 10 2 hroom (List.replicate 960 [0, 1, 2]).flatten
  exact ⟨hroom, hdrilled (hlive _ hrounds hmany)⟩

/-- A drill in which everybody takes turns is carried through to the end. -/
theorem drilled_drill (workers cycles groups : Nat) (hroom : workers * cycles ≤ UInt64.size) :
    (drill workers cycles groups).Drilled (workers * cycles) groups := by
  have h : (atDrill workers cycles groups).Staffed _ _ _ := staffed_atDrill hroom
  have htodo : ((atDrill workers cycles groups).workers.flatMap Worker.todo).length =
      workers * cycles * groups := by
    rw [h.workers, List.map_replicate, List.flatMap_def, List.map_replicate]
    show (List.replicate workers
      (List.replicate cycles (drillGroups groups)).flatten).flatten.length = _
    rw [length_flatten_replicate, length_flatten_replicate, length_drillGroups, Nat.mul_assoc]
  rw [drill_eq_work, work, h.takeTurns_eq_follow, htodo]
  obtain ⟨posts, finished, h', -⟩ := h.exists_follow
    (List.replicate (stepsPerRotation * (workers * cycles * groups))
      (List.range (List.replicate workers (newPost cycles (drillGroups groups))).length)).flatten
  refine h'.drilled (h.isDone_rounds (fun round hround turn hturn => ?_) ?_)
  · rw [List.eq_of_mem_replicate hround]
    exact List.mem_range.mpr hturn
  · refine Nat.le_of_eq ?_
    rw [budget_newPosts, length_drillGroups, List.length_replicate]

end Crew
end Rollover
