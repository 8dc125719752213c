import Rollover.Proofs.Interleaving

/-!
# Getting done

A turn of a worker either gets the crew on, or leaves everything as it is because the worker is
blocked (`Crew.Staffed.step`).  The same holds of a schedule (`Crew.Staffed.follow`).  The steps
that get the crew on are numbered: each of them uses up some of the budgets of the workers.

Not all workers can be blocked unless all are done, for whoever has a lock can get on
(`Crew.Staffed.done_of_blocked`).  So a round in which everybody has a turn gets the crew on, and
after as many rounds as there is budget everybody is done (`Crew.Staffed.isDone_rounds`) --- in
whatever order the turns come within a round, and how many there are of them.

When everybody is done, every group was rotated as often as the workload says
(`Crew.Staffed.finished_of_isDone`).
-/

namespace Rollover

/-- The budget of all workers together. -/
def budget : List Post → Nat
  | [] => 0
  | post :: posts => post.budget + budget posts

theorem budget_perm {posts posts' : List Post} (h : posts.Perm posts') :
    budget posts = budget posts' := by
  induction h with
  | nil => rfl
  | cons post _ ih => rw [budget, budget, ih]
  | swap first second posts =>
    simp only [budget]
    omega
  | trans _ _ ih ih' => rw [ih, ih']

theorem budget_eq_zero_iff {posts : List Post} :
    budget posts = 0 ↔ ∀ post ∈ posts, post.budget = 0 := by
  induction posts with
  | nil => simp [budget]
  | cons post posts ih => rw [budget, Nat.add_eq_zero_iff, ih, List.forall_mem_cons]

/-- Where an element of a list is. -/
theorem exists_split {α : Type} {l : List α} {i : Nat} {a : α} (h : l[i]? = some a) :
    ∃ before after, l = before ++ a :: after ∧ before.length = i := by
  obtain ⟨hlt, rfl⟩ := List.getElem?_eq_some_iff.mp h
  exact ⟨l.take i, l.drop (i + 1), by simp, List.length_take_of_le (Nat.le_of_lt hlt)⟩

/-- A worker without budget has nothing left to do. -/
theorem Post.eq_of_budget_eq_zero {post : Post} (h : post.budget = 0) : post = { todo := [] } := by
  obtain ⟨todo, duty⟩ := post
  simp only [budget, Crew.stepsPerRotation] at h
  cases duty with
  | idle =>
    obtain rfl : todo = [] := List.length_eq_zero_iff.mp (by omega)
    rfl
  | waiting | rotating => simp at h

theorem Post.isDone_worker_iff {post : Post} :
    post.worker.isDone = true ↔ post = { todo := [] } := by
  obtain ⟨todo, duty⟩ := post
  cases duty with
  | idle => cases todo <;> simp [Worker.isDone, worker]
  | waiting | rotating => simp [Worker.isDone, worker]

namespace Crew

variable {crew : Crew} {load : Workload} {post : Post} {posts posts' : List Post}
  {finished : List IndexGroup}

theorem workers_advance (crew : Crew) (worker : Worker) :
    (crew.advance worker).1.workers = crew.workers := by
  unfold advance
  split
  · split <;> rfl
  · split <;> rfl
  · rfl
  · split <;> rfl

/-- A worker who is blocked lets the turn pass. -/
theorem advance_of_blocked (h : post.Blocked crew.taken) :
    crew.advance post.worker = (crew, post.worker) := by
  cases h with
  | nothingToDo => rfl
  | waiting htaken => simp only [advance, Post.worker, htaken, if_true]

theorem follow_cons (crew : Crew) (turn : Nat) (schedule : List Nat) :
    crew.follow (turn :: schedule) = (crew.step turn).follow schedule := rfl

theorem follow_append (crew : Crew) (first second : List Nat) :
    crew.follow (first ++ second) = (crew.follow first).follow second :=
  List.foldl_append

/-- A crew on its course, with its workers at their posts. -/
structure Staffed (crew : Crew) (load : Workload) (posts : List Post)
    (finished : List IndexGroup) : Prop where
  course : crew.OnCourse load posts finished
  workers : crew.workers = posts.map Post.worker

/-- A crew has got on, from a number of posts. -/
def GetsOn (load : Workload) (posts : List Post) (crew : Crew) : Prop :=
  ∃ posts' finished', crew.Staffed load posts' finished' ∧ posts'.length = posts.length ∧
    budget posts' < budget posts

/-- It does not matter what a crew says about its workers. -/
theorem OnCourse.withWorkers (h : crew.OnCourse load posts finished) (workers : List Worker) :
    OnCourse { crew with workers := workers } load posts finished :=
  ⟨h.held, h.undisturbed, h.maxSegments, h.resting, h.rotating, h.about, h.succeeded, h.failed,
    h.plan⟩

namespace Staffed

theorem getElem?_workers (h : crew.Staffed load posts finished) (turn : Nat) :
    crew.workers[turn]? = posts[turn]?.map Post.worker := by
  rw [h.workers, List.getElem?_map]

/-- **A turn gets the crew on, or the worker whose turn it is is blocked.** -/
theorem step (h : crew.Staffed load posts finished) (turn : Nat) :
    (crew.step turn = crew ∧ ∀ post, posts[turn]? = some post → post.Blocked crew.taken) ∨
      GetsOn load posts (crew.step turn) := by
  have hworker := h.getElem?_workers turn
  cases hpost : posts[turn]? with
  | none =>
    rw [hpost, Option.map_none] at hworker
    exact Or.inl ⟨by rw [Crew.step, hworker], nofun⟩
  | some post =>
    rw [hpost, Option.map_some] at hworker
    by_cases hblocked : post.Blocked crew.taken
    · refine Or.inl ⟨?_, fun other hother => Option.some.inj hother ▸ hblocked⟩
      obtain ⟨hlt, hget⟩ := List.getElem?_eq_some_iff.mp hworker
      simp only [Crew.step, hworker, advance_of_blocked hblocked]
      rw [← hget, List.set_getElem_self]
    · refine Or.inr ?_
      obtain ⟨before, after, rfl, rfl⟩ := exists_split hpost
      obtain ⟨post', finished', hpost', hbudget, hcourse⟩ :=
        (h.course.perm List.perm_middle).advance hblocked
      simp only [Crew.step, hworker, workers_advance]
      refine ⟨before ++ post' :: after, finished', ⟨?_, ?_⟩, ?_, ?_⟩
      · exact (hcourse.perm List.perm_middle.symm).withWorkers _
      · rw [hpost', h.workers, List.map_append, List.map_append, List.map_cons, List.map_cons,
          List.set_append_right _ _ (by simp)]
        simp
      · simp only [List.length_append, List.length_cons]
      · rw [budget_perm List.perm_middle, budget_perm List.perm_middle, budget, budget]
        omega

/-- **A schedule gets the crew on, or everybody whose turn it is is blocked.** -/
theorem follow (h : crew.Staffed load posts finished) (schedule : List Nat) :
    (crew.follow schedule = crew ∧
        ∀ turn ∈ schedule, ∀ post, posts[turn]? = some post → post.Blocked crew.taken) ∨
      GetsOn load posts (crew.follow schedule) := by
  induction schedule generalizing crew posts finished with
  | nil => exact Or.inl ⟨rfl, nofun⟩
  | cons turn schedule ih =>
    rw [follow_cons]
    rcases h.step turn with ⟨hsame, hblocked⟩ | ⟨posts', finished', h', hlength, hbudget⟩
    · rw [hsame]
      exact (ih h).imp_left fun ⟨hfollow, hall⟩ =>
        ⟨hfollow, List.forall_mem_cons.mpr ⟨hblocked, hall⟩⟩
    · right
      rcases ih h' with ⟨hsame, -⟩ | ⟨posts'', finished'', h'', hlength', hbudget'⟩
      · rw [hsame]
        exact ⟨posts', finished', h', hlength, hbudget⟩
      · exact ⟨posts'', finished'', h'', hlength'.trans hlength, Nat.lt_trans hbudget' hbudget⟩

/-- A schedule leaves the workers at posts of theirs. -/
theorem exists_follow (h : crew.Staffed load posts finished) (schedule : List Nat) :
    ∃ posts' finished', (crew.follow schedule).Staffed load posts' finished' ∧
      posts'.length = posts.length ∧ budget posts' ≤ budget posts := by
  rcases h.follow schedule with ⟨hsame, -⟩ | ⟨posts', finished', h', hlength, hbudget⟩
  · rw [hsame]
    exact ⟨posts, finished, h, rfl, Nat.le_refl _⟩
  · exact ⟨posts', finished', h', hlength, Nat.le_of_lt hbudget⟩

theorem isDone_iff (h : crew.Staffed load posts finished) :
    crew.isDone = true ↔ ∀ post ∈ posts, post = { todo := [] } := by
  rw [isDone, h.workers, List.all_map, List.all_eq_true]
  exact forall₂_congr fun post _ => Post.isDone_worker_iff

/-- **Not all can be blocked unless all are done.** -/
theorem isDone_of_blocked (h : crew.Staffed load posts finished)
    (hblocked : ∀ post ∈ posts, post.Blocked crew.taken) : crew.isDone = true := by
  -- somebody who rotates is not blocked, so nobody does, and no lock is taken
  have hnobody : ongoings posts = [] := by
    refine List.filterMap_eq_nil_iff.mpr fun post hpost => ?_
    cases hblocked post hpost <;> rfl
  have hfree : crew.taken = [] := by
    have hbusy := h.course.held.busy
    rw [hnobody] at hbusy
    exact hbusy.eq_nil
  refine h.isDone_iff.mpr fun post hpost => ?_
  cases hblocked post hpost with
  | nothingToDo => rfl
  | waiting htaken =>
    rw [hfree] at htaken
    cases htaken

theorem isDone_of_budget_eq_zero (h : crew.Staffed load posts finished)
    (hbudget : budget posts = 0) : crew.isDone = true := by
  exact h.isDone_iff.mpr fun post hpost =>
    Post.eq_of_budget_eq_zero (budget_eq_zero_iff.mp hbudget post hpost)

/-- A crew that is done takes no more steps. -/
theorem follow_of_isDone (h : crew.Staffed load posts finished) (hdone : crew.isDone = true)
    (schedule : List Nat) : crew.follow schedule = crew := by
  rcases h.follow schedule with ⟨hsame, -⟩ | ⟨posts', finished', -, -, hbudget⟩
  · exact hsame
  · have hnone : budget posts = 0 := by
      refine budget_eq_zero_iff.mpr fun post hpost => ?_
      rw [h.isDone_iff.mp hdone post hpost]
      rfl
    omega

/-- **After as many rounds as there is budget everybody is done.**  In every round everybody has a
turn, or several. -/
theorem isDone_rounds (h : crew.Staffed load posts finished) {rounds : List (List Nat)}
    (hrounds : ∀ round ∈ rounds, ∀ turn < posts.length, turn ∈ round)
    (hbudget : budget posts ≤ rounds.length) : (crew.follow rounds.flatten).isDone = true := by
  induction rounds generalizing crew posts finished with
  | nil => exact h.isDone_of_budget_eq_zero (Nat.le_zero.mp hbudget)
  | cons round rounds ih =>
    obtain ⟨hround, hrounds⟩ := List.forall_mem_cons.mp hrounds
    rw [List.flatten_cons, follow_append]
    rcases h.follow round with ⟨hsame, hblocked⟩ | ⟨posts', finished', h', hlength, hbudget'⟩
    · have hdone : crew.isDone = true := by
        refine h.isDone_of_blocked fun post hpost => ?_
        obtain ⟨turn, hturn⟩ := List.mem_iff_getElem?.mp hpost
        exact hblocked turn (hround turn (List.getElem?_eq_some_iff.mp hturn).1) post hturn
      rw [hsame, h.follow_of_isDone hdone]
      exact hdone
    · rw [List.length_cons] at hbudget
      rw [← hlength] at hrounds
      exact ih h' hrounds (by omega)

/-- Taking turns is following a schedule. -/
theorem takeTurns_eq_follow (h : crew.Staffed load posts finished) (rounds : Nat) :
    crew.takeTurns rounds =
      crew.follow (List.replicate rounds (List.range posts.length)).flatten := by
  induction rounds generalizing crew posts finished with
  | zero => rfl
  | succ rounds ih =>
    rw [Crew.takeTurns]
    split
    · next hdone => rw [h.follow_of_isDone hdone]
    · obtain ⟨posts', finished', h', hlength, -⟩ := h.exists_follow (List.range posts.length)
      have hworkers : crew.workers.length = posts.length := by rw [h.workers, List.length_map]
      rw [hworkers, ih h', hlength, List.replicate_succ, List.flatten_cons, follow_append]

/-- **When everybody is done, every group was rotated as often as the workload says.** -/
theorem finished_of_isDone (h : crew.Staffed load posts finished) (hdone : crew.isDone = true) :
    crew.succeeded = load.rotations.length ∧
      ∀ group ∈ load.groups, crew.installation.TurnedOver group (load.rotations.count group) := by
  have hposts := h.isDone_iff.mp hdone
  have hagenda : posts.flatMap Post.agenda = [] :=
    List.flatMap_eq_nil_iff.mpr fun post hpost => by
      rw [hposts post hpost]
      rfl
  have hnobody : ongoings posts = [] :=
    ongoings_of_idle fun post hpost => by rw [hposts post hpost]
  have hplan := h.course.plan
  rw [hagenda, List.append_nil] at hplan
  refine ⟨h.course.succeeded.trans hplan.length_eq, fun group hgroup => ?_⟩
  rw [← hplan.count_eq]
  refine h.course.resting group hgroup fun ongoing hongoing => ?_
  rw [hnobody] at hongoing
  cases hongoing

end Staffed
end Crew
end Rollover
