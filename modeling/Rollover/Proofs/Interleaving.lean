import Mathlib.Data.List.Nodup
import Rollover.Proofs.Roster
import Rollover.Proofs.Turnover

/-!
# Rotations in any order

A crew takes one step at a time, each by any of its workers, and between two effects of one rotation
there can be any number of effects of others.  Still every rotation goes as if it were alone.  Two
things see to that.  Rotations of groups of one full name exclude each other, because they need the
same lock.  And rotations of groups of different full names do not meet, because each of them stays
in its own group's territory.

So at any moment it is known for each group what there is of it.  If nobody is at it, it is as the
rotations that have taken place have left it (`Installation.TurnedOver`).  If a rotation of it is
under way, then for the group the engine is as that rotation has left it, and what is left of the
rotation will end well (`Ongoing.At`).  That is the invariant of a crew, `Crew.OnCourse`; there is
one lemma for each way in which a worker can get on.
-/

namespace Rollover

open Program Environment

/-! ## Installations that write everything down -/

namespace Installation

variable {installation : Installation} {effect : Effect} {group other : IndexGroup}

/-- The jobs that were written down. -/
def recorded (installation : Installation) : List Job :=
  installation.desk.clerk.recorded

/-- Nothing comes in the way of an operation, and every job is written down. -/
structure Undisturbed (installation : Installation) : Prop where
  faults : installation.engine.faults = []
  available : installation.engine.engine.unavailable = false
  creates : installation.engine.engine.refusesCreates = false
  clerk : installation.desk.clerk = .recorder { admitted := installation.recorded }
  desk : installation.desk.broken = false

/-- The installation answers an effect as an engine without faults does, and writes down the job
that is handed over, if there is one. -/
theorem Undisturbed.handle (h : installation.Undisturbed) (effect : Effect) :
    faultless installation.engine.engine effect (handler.handle installation effect).2
        (handler.handle installation effect).1.engine.engine ∧
      (handler.handle installation effect).1.Undisturbed ∧
      (handler.handle installation effect).1.recorded =
        installation.recorded ++ effect.job?.toList ∧
      (handler.handle installation effect).1.settings = installation.settings := by
  cases effect with
  | call request =>
    have hengine : installation.engine = { engine := installation.engine.engine } := by
      rw [← h.faults]
    have hperform : installation.engine.perform request =
        ({ engine := (installation.engine.engine.perform request).1 },
          (installation.engine.engine.perform request).2) := by
      rw [hengine, FaultyEngine.perform_of_no_faults]
    have hcalm : calm installation.engine.engine (.call request)
        (installation.engine.engine.perform request).2
        (installation.engine.engine.perform request).1 := rfl
    obtain ⟨havailable, hcreates⟩ := calm_switches hcalm
    simp only [Handler.handle, handler, hperform]
    refine ⟨⟨hcalm, h.available, h.creates⟩, ?_, (List.append_nil _).symm, trivial⟩
    exact ⟨rfl, havailable.trans h.available, hcreates.trans h.creates, h.clerk, h.desk⟩
  | submit job =>
    have hsubmit : installation.desk.submit job =
        ({ installation.desk with
            clerk := .recorder { admitted := installation.recorded ++ [job] }
            record := installation.desk.record.push (job, .admitted) }, .ok ()) := by
      simp [JobDesk.submit, h.desk, h.clerk, Clerk.submit, JobRecorder.submit, Verdict.ofReply]
    simp only [Handler.handle, handler, hsubmit]
    exact ⟨⟨rfl, h.available, h.creates⟩, ⟨h.faults, h.available, h.creates, rfl, h.desk⟩, rfl,
      trivial⟩
  | record entry =>
    refine ⟨⟨rfl, h.available, h.creates⟩, ?_, (List.append_nil _).symm, rfl⟩
    exact ⟨h.faults, h.available, h.creates, h.clerk, h.desk⟩

/-- The jobs about a group that were written down. -/
def jobsOf (installation : Installation) (group : IndexGroup) : List Job :=
  installation.recorded.filter (Job.isOf group)

/-- Everything about a group is as it was. -/
structure Spares (installation : Installation) (group : IndexGroup)
    (installation' : Installation) : Prop where
  alike : installation.engine.engine.Alike group installation'.engine.engine
  jobs : installation'.jobsOf group = installation.jobsOf group
  settings : installation'.settings = installation.settings

/-- An effect that stays in one group's territory spares the others. -/
theorem Undisturbed.spares (h : installation.Undisturbed) (hstays : effect.StaysIn group)
    (hne : group.fullName ≠ other.fullName) :
    installation.Spares other (handler.handle installation effect).1 := by
  obtain ⟨hfaultless, -, hrecorded, hsettings⟩ := h.handle effect
  have hforeign : effect.job?.toList.filter (Job.isOf other) = [] :=
    List.filter_eq_nil_iff.mpr fun job hjob hother =>
      hne (Job.fullName_eq (hstays.isOf hjob) hother)
  refine ⟨hstays.alike hne (disturbed_of_faultless hfaultless), ?_, hsettings⟩
  rw [jobsOf, hrecorded, List.filter_append, hforeign, List.append_nil, jobsOf]

/-- An effect that stays in a group's territory is about the group. -/
theorem Undisturbed.jobsOf_handle (h : installation.Undisturbed) (hstays : effect.StaysIn group) :
    (handler.handle installation effect).1.jobsOf group =
      installation.jobsOf group ++ effect.job?.toList := by
  have hown : effect.job?.toList.filter (Job.isOf group) = effect.job?.toList :=
    List.filter_eq_self.mpr fun job hjob => hstays.isOf hjob
  rw [jobsOf, (h.handle effect).2.2.1, List.filter_append, hown, jobsOf]

/-- A group was rotated `count` times, and nobody is at it. -/
structure TurnedOver (installation : Installation) (group : IndexGroup) (count : Nat) : Prop where
  shows : installation.engine.engine.Shows group (.after group count)
  jobs : installation.jobsOf group = jobsThrough installation.settings.maxSegments group count

theorem TurnedOver.of_spares {count : Nat} {installation' : Installation}
    (h : installation.TurnedOver group count) (hspares : installation.Spares group installation') :
    installation'.TurnedOver group count where
  shows := h.shows.of_alike hspares.alike
  jobs := by rw [hspares.jobs, hspares.settings, h.jobs]

end Installation

/-! ## A rotation under way -/

/-- A rotation is under way on a group that was rotated `count` times before. -/
structure Ongoing.At (ongoing : Ongoing) (installation : Installation) (count : Nat) : Prop where
  /-- For the group the engine is as the rotation has left it. -/
  alike : ongoing.scene.engine.Alike ongoing.group installation.engine.engine
  /-- Of the jobs about the group, the last ones are those of the rotation. -/
  jobs : installation.jobsOf ongoing.group =
    jobsThrough installation.settings.maxSegments ongoing.group count ++ ongoing.scene.handed
  within : ongoing.rest.Within ongoing.left
  /-- The rotation will end well, and touch nothing that is not the group's. -/
  upholds : ongoing.rest.Upholds (amid ongoing.group)
    (fun _ effect => effect.StaysIn ongoing.group) (fun outcome s' =>
      (∃ rotation, outcome = .ok rotation) ∧
        s'.engine.Shows ongoing.group (.after ongoing.group (count + 1)) ∧
        s'.handed = rotationJobs installation.settings.maxSegments ongoing.group count)
    ongoing.scene

namespace Ongoing

variable {ongoing : Ongoing} {installation installation' : Installation} {count : Nat}

/-- A rotation that is about to begin. -/
def start (lock : LockId) (group : IndexGroup) (installation : Installation) : Ongoing where
  lock := lock
  group := group
  scene := { engine := installation.engine.engine }
  rest := group.rotate installation.settings.maxSegments
  left := 12

theorem at_start {group : IndexGroup} (lock : LockId) (h : installation.TurnedOver group count)
    (hroom : count < UInt64.size) : (start lock group installation).At installation count where
  alike := .refl _ _
  jobs := h.jobs.trans (List.append_nil _).symm
  within := within_rotate group _
  upholds := amid_rotate hroom h.shows

namespace At

theorem of_spares (h : ongoing.At installation count)
    (hspares : installation.Spares ongoing.group installation') :
    ongoing.At installation' count where
  alike := h.alike.trans hspares.alike
  jobs := by rw [hspares.jobs, hspares.settings, h.jobs]
  within := h.within
  upholds := by
    rw [hspares.settings]
    exact h.upholds

variable {effect : Effect} {next : effect.Reply → Program (Outcome Rotation)}

/-- What the rotation does next is about its group. -/
theorem staysIn (h : ongoing.At installation count) (hrest : ongoing.rest = .perform effect next) :
    effect.StaysIn ongoing.group := by
  have hupholds := h.upholds
  rw [hrest] at hupholds
  exact hupholds.1

/-- One effect of the rotation. -/
theorem goOn (h : ongoing.At installation count) (hundisturbed : installation.Undisturbed)
    (hrest : ongoing.rest = .perform effect next) :
    ∃ scene left, left < ongoing.left ∧
      { ongoing with
        scene := scene
        rest := next (Installation.handler.handle installation effect).2
        left := left : Ongoing }.At (Installation.handler.handle installation effect).1 count := by
  obtain ⟨hfaultless, -, -, hsettings⟩ := hundisturbed.handle effect
  have hstays := h.staysIn hrest
  have hwithin := h.within
  have hupholds := h.upholds
  rw [hrest] at hwithin hupholds
  obtain ⟨left, hleft, hwithin'⟩ := hwithin.perform
  refine ⟨ongoing.scene.next effect (Installation.handler.handle installation effect).2
    (Installation.handler.handle installation effect).1.engine.engine, left, by omega,
    .refl _ _, ?_, hwithin' _, ?_⟩
  · dsimp only
    rw [hundisturbed.jobsOf_handle hstays, hsettings, h.jobs, Scene.handed_next, List.append_assoc]
  · rw [hsettings]
    exact hupholds.2 _ _ ⟨_, h.alike, hfaultless⟩

/-- The end of the rotation. -/
theorem finish {outcome : Outcome Rotation} (h : ongoing.At installation count)
    (hrest : ongoing.rest = .done outcome) : (∃ rotation, outcome = .ok rotation) ∧
      installation.TurnedOver ongoing.group (count + 1) := by
  have hupholds := h.upholds
  rw [hrest] at hupholds
  obtain ⟨hok, hshows, hhanded⟩ := hupholds
  refine ⟨hok, hshows.of_alike h.alike, ?_⟩
  rw [h.jobs, hhanded, jobsThrough_succ]

end At
end Ongoing

/-! ## A crew at work -/

/-- Groups with different full names, and a number of rotations of them. -/
structure Workload where
  /-- The groups. -/
  groups : List IndexGroup
  /-- The groups to rotate, once for every rotation. -/
  rotations : List IndexGroup
  /-- What sealed indices are merged down to. -/
  maxSegments : UInt32
  distinct : (groups.map IndexGroup.fullName).Nodup
  mem_groups : ∀ group ∈ rotations, group ∈ groups
  /-- There are numbers enough. -/
  room : ∀ group, rotations.count group ≤ UInt64.size

theorem Workload.eq_of_fullName_eq (load : Workload) {group other : IndexGroup}
    (h : group ∈ load.groups) (h' : other ∈ load.groups)
    (hname : group.fullName = other.fullName) : group = other :=
  List.inj_on_of_nodup_map load.distinct h h' hname

/-- A worker cannot get on: there is nothing left to do, or somebody else has the lock. -/
inductive Post.Blocked (taken : List LockId) : Post → Prop
  | nothingToDo : Blocked taken { todo := [] }
  | waiting {todo : List IndexGroup} {lock : LockId} {group : IndexGroup} (h : lock ∈ taken) :
    Blocked taken { todo := todo, duty := .waiting lock group }

/-- An upper bound on the steps that a worker can take. -/
def Post.budget (post : Post) : Nat :=
  Crew.stepsPerRotation * post.todo.length +
    match post.duty with
    | .idle => 0
    | .waiting _ _ => 14
    | .rotating ongoing => ongoing.left + 1

namespace Crew

/-- A crew that deals with a workload is where it should be.  `finished` are the rotations that have
taken place. -/
structure OnCourse (crew : Crew) (load : Workload) (posts : List Post)
    (finished : List IndexGroup) : Prop where
  held : crew.locks.Held crew.taken posts
  undisturbed : crew.installation.Undisturbed
  maxSegments : crew.installation.settings.maxSegments = load.maxSegments
  /-- The groups that nobody is at. -/
  resting : ∀ group ∈ load.groups, (∀ ongoing ∈ ongoings posts, ongoing.group ≠ group) →
    crew.installation.TurnedOver group (finished.count group)
  /-- The groups that somebody is at. -/
  rotating : ∀ ongoing ∈ ongoings posts,
    ongoing.At crew.installation (finished.count ongoing.group)
  /-- All jobs are about groups of the workload. -/
  about : ∀ job ∈ crew.installation.recorded, ∃ group ∈ load.groups, job.isOf group = true
  succeeded : crew.succeeded = finished.length
  failed : crew.failed = 0
  /-- What has taken place, and what is still to come. -/
  plan : (finished ++ posts.flatMap Post.agenda).Perm load.rotations

variable {crew : Crew} {load : Workload} {post : Post} {posts posts' : List Post}
  {finished : List IndexGroup} {todo : List IndexGroup} {lock : LockId} {group : IndexGroup}
  {ongoing : Ongoing}

namespace OnCourse

/-- The order of the workers does not matter. -/
theorem perm (h : crew.OnCourse load posts finished) (hperm : posts.Perm posts') :
    crew.OnCourse load posts' finished where
  held := h.held.perm hperm
  undisturbed := h.undisturbed
  maxSegments := h.maxSegments
  resting group hgroup hnobody := h.resting group hgroup fun ongoing hongoing =>
    hnobody ongoing ((hperm.filterMap _).mem_iff.mp hongoing)
  rotating ongoing hongoing := h.rotating ongoing ((hperm.filterMap _).mem_iff.mpr hongoing)
  about := h.about
  succeeded := h.succeeded
  failed := h.failed
  plan := ((hperm.symm.flatMap_right _).append_left _).trans h.plan

/-- What a worker has yet to do is part of the workload. -/
theorem mem_groups (h : crew.OnCourse load (post :: posts) finished)
    (hgroup : group ∈ post.agenda) : group ∈ load.groups := by
  refine load.mem_groups group (h.plan.mem_iff.mp (List.mem_append_right _ ?_))
  rw [List.flatMap_cons]
  exact List.mem_append_left _ hgroup

/-- There is a number for every rotation that a worker has yet to do. -/
theorem count_lt (h : crew.OnCourse load (post :: posts) finished)
    (hgroup : group ∈ post.agenda) : finished.count group < UInt64.size := by
  have hcount := h.plan.count_eq group
  rw [List.count_append, List.flatMap_cons, List.count_append] at hcount
  have hpositive : 0 < post.agenda.count group := List.count_pos_iff.mpr hgroup
  have hroom := load.room group
  omega

/-! ### The four ways to get on -/

/-- A worker obtains a handle on the lock of the next group. -/
theorem obtain (h : crew.OnCourse load (⟨group :: todo, .idle⟩ :: posts) finished)
    (registered : Std.ExtTreeSet String) :
    OnCourse { crew with locks := (crew.locks.obtain registered group.fullName).1 } load
      (⟨todo, .waiting (crew.locks.obtain registered group.fullName).2 group⟩ :: posts)
      finished where
  held := h.held.obtain registered
  undisturbed := h.undisturbed
  maxSegments := h.maxSegments
  resting := h.resting
  rotating := h.rotating
  about := h.about
  succeeded := h.succeeded
  failed := h.failed
  plan := h.plan

/-- A worker takes a lock that is free, and begins a rotation. -/
theorem take (h : crew.OnCourse load (⟨todo, .waiting lock group⟩ :: posts) finished)
    (hfree : lock ∉ crew.taken) :
    OnCourse { crew with taken := lock :: crew.taken } load
      (⟨todo, .rotating (.start lock group crew.installation)⟩ :: posts) finished where
  held := h.held.take (.start lock group crew.installation) hfree
  undisturbed := h.undisturbed
  maxSegments := h.maxSegments
  resting other hother hnobody := h.resting other hother fun ongoing hongoing =>
    hnobody ongoing (List.mem_cons_of_mem _ hongoing)
  rotating ongoing hongoing := by
    rcases List.mem_cons.mp hongoing with rfl | hongoing
    · have hagenda : group ∈ Post.agenda ⟨todo, .waiting lock group⟩ := List.mem_cons_self
      have hnobody : ∀ ongoing ∈ ongoings posts, ongoing.group ≠ group :=
        fun ongoing hongoing heq => h.held.fullName_ne_of_free hfree hongoing (by rw [heq])
      exact Ongoing.at_start lock (h.resting group (h.mem_groups hagenda) hnobody)
        (h.count_lt hagenda)
    · exact h.rotating ongoing hongoing
  about := h.about
  succeeded := h.succeeded
  failed := h.failed
  plan := h.plan

/-- A worker goes on with a rotation.  The others do not notice. -/
theorem goOn {effect : Effect} {next : effect.Reply → Program (Outcome Rotation)}
    (h : crew.OnCourse load (⟨todo, .rotating ongoing⟩ :: posts) finished)
    (hrest : ongoing.rest = .perform effect next) :
    ∃ scene left, left < ongoing.left ∧
      OnCourse { crew with
        installation := (Installation.handler.handle crew.installation effect).1 } load
        (⟨todo, .rotating { ongoing with
          scene := scene
          rest := next (Installation.handler.handle crew.installation effect).2
          left := left }⟩ :: posts) finished := by
  have hat : ongoing.At crew.installation (finished.count ongoing.group) :=
    h.rotating ongoing List.mem_cons_self
  have hstays := hat.staysIn hrest
  obtain ⟨-, hundisturbed, hrecorded, hsettings⟩ := h.undisturbed.handle effect
  obtain ⟨scene, left, hleft, hat'⟩ := hat.goOn h.undisturbed hrest
  have hagenda : ongoing.group ∈ Post.agenda ⟨todo, .rotating ongoing⟩ := List.mem_cons_self
  have hgroup := h.mem_groups hagenda
  refine ⟨scene, left, hleft, h.held.goOn _ _ _, hundisturbed, ?_, ?_, ?_, ?_, h.succeeded,
    h.failed, h.plan⟩
  · rw [hsettings, h.maxSegments]
  · intro other hother hnobody
    have hne := hnobody _ List.mem_cons_self
    refine (h.resting other hother fun third hthird => ?_).of_spares
      (h.undisturbed.spares hstays fun hname => hne (load.eq_of_fullName_eq hgroup hother hname))
    rcases List.mem_cons.mp hthird with rfl | hthird
    · exact hne
    · exact hnobody third (List.mem_cons_of_mem _ hthird)
  · intro other hother
    rcases List.mem_cons.mp hother with rfl | hother
    · exact hat'
    · exact (h.rotating other (List.mem_cons_of_mem _ hother)).of_spares
        (h.undisturbed.spares hstays (h.held.fullName_ne hother).symm)
  · intro job hjob
    rw [hrecorded] at hjob
    rcases List.mem_append.mp hjob with hjob | hjob
    · exact h.about job hjob
    · exact ⟨ongoing.group, hgroup, hstays.isOf hjob⟩

/-- A worker ends a rotation, and it has taken place. -/
theorem finish {outcome : Outcome Rotation}
    (h : crew.OnCourse load (⟨todo, .rotating ongoing⟩ :: posts) finished)
    (hrest : ongoing.rest = .done outcome) : (∃ rotation, outcome = .ok rotation) ∧
      OnCourse { crew with
        locks := crew.locks.drop ongoing.lock
        taken := crew.taken.erase ongoing.lock
        succeeded := crew.succeeded + 1 } load
        (⟨todo, .idle⟩ :: posts) (ongoing.group :: finished) := by
  have hat : ongoing.At crew.installation (finished.count ongoing.group) :=
    h.rotating ongoing List.mem_cons_self
  obtain ⟨hok, hover⟩ := hat.finish hrest
  refine ⟨hok, h.held.giveBack, h.undisturbed, h.maxSegments, ?_, ?_, h.about, ?_, h.failed, ?_⟩
  · intro other hother hnobody
    by_cases heq : ongoing.group = other
    · subst heq
      rw [List.count_cons_self]
      exact hover
    · rw [List.count_cons_of_ne heq]
      refine h.resting other hother fun third hthird => ?_
      rcases List.mem_cons.mp hthird with rfl | hthird
      · exact heq
      · exact hnobody third hthird
  · intro other hother
    have hne : ongoing.group ≠ other.group := fun heq =>
      h.held.fullName_ne hother (by rw [heq])
    rw [List.count_cons_of_ne hne]
    exact h.rotating other (List.mem_cons_of_mem _ hother)
  · show crew.succeeded + 1 = finished.length + 1
    rw [h.succeeded]
  · exact List.perm_middle.symm.trans h.plan

/-- **A worker who is not blocked gets on, and the crew stays on its course.** -/
theorem advance (h : crew.OnCourse load (post :: posts) finished)
    (hready : ¬ post.Blocked crew.taken) :
    ∃ post' finished', (crew.advance post.worker).2 = post'.worker ∧
      post'.budget < post.budget ∧
      (crew.advance post.worker).1.OnCourse load (post' :: posts) finished' := by
  obtain ⟨todo, duty⟩ := post
  cases duty with
  | idle =>
    cases todo with
    | nil => exact absurd .nothingToDo hready
    | cons group todo =>
      exact ⟨_, _, rfl, by simp [Post.budget, stepsPerRotation]; omega, h.obtain _⟩
  | waiting lock group =>
    have hfree : lock ∉ crew.taken := fun hmem => hready (.waiting hmem)
    simp only [Crew.advance, Post.worker, hfree, if_false]
    exact ⟨_, _, rfl, by simp [Post.budget, Ongoing.start], h.take hfree⟩
  | rotating ongoing =>
    cases hrest : ongoing.rest with
    | perform effect next =>
      obtain ⟨scene, left, hleft, hcourse⟩ := h.goOn hrest
      simp only [Crew.advance, Post.worker, hrest]
      exact ⟨_, _, rfl, by simp [Post.budget]; omega, hcourse⟩
    | done outcome =>
      obtain ⟨⟨rotation, rfl⟩, hcourse⟩ := h.finish hrest
      simp only [Crew.advance, Post.worker, hrest]
      exact ⟨_, _, rfl, by simp [Post.budget], hcourse⟩

end OnCourse
end Crew
end Rollover
