import Rollover.Proofs.Admission

/-!
# Jobs that are executed

The ledger of a `Workshop` says that jobs start and end, and not what they do.  This file joins it
to an `Installation`, whose `finishJob` does both: it takes the oldest job of a kind out of the
hands of the manager, does what the job asks for, and gives the place back.

A job that is executed reads the ranges of a group again, or has the engine merge an index, or it
crashes before it does anything (`Installation.Executes`).  Whatever it does, it hands over no job
(`Installation.Executes.desk`), so the manager that gives the place back is the one that the job was
taken from.  From there on everything is said of a workshop and of an installation that has its
manager:

* what is handed over takes the workshop on, and is not executed yet (`Workshop.submit_eq`,
  `Workshop.exists_reaches_run`);
* if a job of the kind waits, the oldest is executed, once, and one place more is free than before
  (`Workshop.exists_carriesOut`); if none waits, nothing happens (`Installation.finishJob_of_none`);
* one after the other all jobs that wait are executed, each once and in order
  (`Workshop.exists_drains`).

In the installation a job starts and ends in one go.  In the workshop other jobs may come in
between, and the counters do not depend on it.
-/

namespace Rollover

open Program
open Installation (JobEnd)

variable {installation installation' : Installation} {manager : JobManager} {job : Job}
  {kind : Option JobKind}

/-! ## The oldest job of a kind -/

/-- The job is of the kind that is asked for, if one is asked for. -/
def Job.Meets (job : Job) (kind : Option JobKind) : Prop :=
  ∀ wanted, kind = some wanted → job.kind = wanted

namespace JobManager

theorem isOfKind_iff : isOfKind kind job = true ↔ job.Meets kind := by
  cases kind with
  | none => exact iff_of_true rfl nofun
  | some wanted =>
    rw [isOfKind, beq_iff_eq]
    exact ⟨fun h _ heq => h.trans (Option.some.inj heq), fun h => h wanted rfl⟩

theorem next?_of_none (h : ∀ job ∈ manager.waiting, ¬ job.Meets kind) :
    manager.next? kind = none := by
  have hfind : manager.waiting.find? (isOfKind kind) = none := by
    rw [List.find?_eq_none]
    exact fun job hjob => mt isOfKind_iff.mp (h job hjob)
  rw [next?, hfind]

/-- Of the jobs of a kind the oldest is next. -/
theorem exists_next? (h : ∃ job ∈ manager.waiting, job.Meets kind) :
    ∃ before job after, manager.waiting = before ++ job :: after ∧ job.Meets kind ∧
      (∀ other ∈ before, ¬ other.Meets kind) ∧
      manager.next? kind = some (job, manager.take job) := by
  obtain ⟨wanted, hwanted, hmeets⟩ := h
  have hfound : (manager.waiting.find? (isOfKind kind)).isSome = true :=
    List.find?_isSome.mpr ⟨wanted, hwanted, isOfKind_iff.mpr hmeets⟩
  obtain ⟨job, hjob⟩ := Option.isSome_iff_exists.mp hfound
  obtain ⟨hkind, before, after, hwaiting, hbefore⟩ := List.find?_eq_some_iff_append.mp hjob
  refine ⟨before, job, after, hwaiting, isOfKind_iff.mp hkind, fun other hother hmeets => ?_, ?_⟩
  · have hnot := hbefore other hother
    rw [isOfKind_iff.mpr hmeets] at hnot
    cases hnot
  · rw [next?, hjob]

end JobManager

/-! ## The work of a job -/

namespace Installation

/-- A job does what it asks for, once: how it ends, and what there is afterwards.  One that crashes
does nothing. -/
inductive Executes (before : Installation) : Job → JobEnd → Installation → Prop
  /-- The job crashed. -/
  | crashed (job : Job) : Executes before job .crashed before
  /-- The ranges of a group were read again. -/
  | rebuilt (group : IndexGroup) : Executes before (.rebuildRanges group)
      (.finished ((before.rebuildRanges group).2.map fun _ => ())) (before.rebuildRanges group).1
  /-- The engine was told to merge an index. -/
  | merged (index : String) (maxSegments : UInt32) : Executes before (.optimize index maxSegments)
      (.finished ((before.engine.perform (.optimize index maxSegments)).2.mapError
        .engineUnavailable))
      { before with engine := (before.engine.perform (.optimize index maxSegments)).1 }

theorem executes (installation : Installation) (job : Job) :
    installation.Executes job (.finished (installation.execute job).2)
      (installation.execute job).1 := by
  cases job with
  | rebuildRanges group =>
    have hrun : installation.execute (.rebuildRanges group) =
        ((installation.rebuildRanges group).1,
          (installation.rebuildRanges group).2.map fun _ => ()) := by
      unfold execute RangeTable.execute rebuildRanges run
      rw [run_bind]
      rfl
    rw [hrun]
    exact .rebuilt group
  | optimize index maxSegments =>
    have hrun : installation.execute (.optimize index maxSegments) =
        ({ installation with
            engine := (installation.engine.perform (.optimize index maxSegments)).1 },
          (installation.engine.perform (.optimize index maxSegments)).2.mapError
            .engineUnavailable) := by
      simp only [execute, run, RangeTable.execute, ask, perform_bind, done_bind, run_perform,
        Handler.handle, handler]
      rcases installation.engine.perform (.optimize index maxSegments) with ⟨engine, reply⟩
      rcases reply with cause | ⟨⟨⟩⟩ <;> rfl
    rw [hrun]
    exact .merged index maxSegments

/-- A job that is executed hands over no job. -/
theorem Executes.desk {ending : JobEnd} (h : installation.Executes job ending installation') :
    installation'.desk = installation.desk := by
  cases h with
  | crashed => rfl
  | rebuilt group =>
    simp only [rebuildRanges, run, RangeTable.rebuild, IndexGroup.memberStats, ask, perform_bind,
      done_bind, run_perform, Handler.handle, handler]
    rcases installation.engine.perform .listIndices with ⟨engine, cause | listing⟩ <;> rfl
  | merged => rfl

/-! ## The end of a job -/

/-- If no job of the kind waits, nothing happens. -/
theorem finishJob_of_none (hclerk : installation.desk.clerk = .manager manager)
    (h : ∀ job ∈ manager.waiting, ¬ job.Meets kind) (crash : Bool) :
    installation.finishJob kind crash = (installation, none) := by
  unfold finishJob
  rw [hclerk]
  dsimp only
  rw [JobManager.next?_of_none h]

/-- **The job that is next is executed, and its place becomes free.** -/
theorem finishJob_of_next (hclerk : installation.desk.clerk = .manager manager)
    (h : manager.next? kind = some (job, manager.take job)) (crash : Bool) :
    ∃ ending after, installation.Executes job ending after ∧ (crash = true ↔ ending = .crashed) ∧
      installation.finishJob kind crash =
        ({ after with
            desk := {
              installation.desk with clerk := .manager ((manager.take job).release job.kind) } },
          some (job, ending, ((manager.take job).release job.kind).running.get job.kind)) := by
  unfold finishJob
  rw [hclerk]
  dsimp only
  rw [h]
  cases crash with
  | true => exact ⟨.crashed, installation, .crashed job, iff_of_true rfl rfl, rfl⟩
  | false =>
    have hwork := installation.executes job
    refine ⟨_, _, hwork, iff_of_false Bool.false_ne_true nofun, ?_⟩
    rw [← hwork.desk]
    rfl

/-- Jobs are executed one after the other, until no job is left: which they are, and how each
ended. -/
inductive Drains : Installation → List (Job × JobEnd) → Installation → Prop
  /-- No job is left. -/
  | idle {installation : Installation}
      (hidle : installation.finishJob none false = (installation, none)) :
    Drains installation [] installation
  /-- A job is executed, and then the others are. -/
  | next {installation worked next after : Installation} {job : Job} {ending : JobEnd} {count : Nat}
      {ends : List (Job × JobEnd)} (hwork : installation.Executes job ending worked)
      (hjob : installation.finishJob none false = (next, some (job, ending, count)))
      (hothers : Drains next ends after) : Drains installation ((job, ending) :: ends) after

end Installation

/-! ## Installations and workshops -/

namespace Workshop

variable {w : Workshop} {settings : Settings}

/-- What an installation does with a job that is handed over, a workshop with its manager does. -/
theorem submit_eq (hclerk : installation.desk.clerk = .manager w.manager)
    (hdesk : installation.desk.broken = false) (job : Job) :
    Installation.handler.submit installation job =
      ({ installation with
          desk := {
            clerk := .manager (w.submit job).manager
            broken := false
            record := installation.desk.record.push
              (job, Verdict.ofReply (w.manager.submit job).2) } },
        (w.manager.submit job).2) := by
  have hmanager : (w.submit job).manager = (w.manager.submit job).1 := by
    unfold Workshop.submit
    split <;> next heq => rw [heq]
  unfold Installation.handler JobDesk.submit
  dsimp only
  rw [hdesk, hclerk, hmanager]
  rfl

/-- The jobs that a program hands over take the workshop on.  None of them is executed before the
program ends. -/
theorem exists_reaches_run {α : Type} (program : Program α)
    (hclerk : installation.desk.clerk = .manager w.manager)
    (hdesk : installation.desk.broken = false) :
    ∃ w', Reaches w w' ∧ w'.started = w.started ∧ w'.ended = w.ended ∧
      (installation.run program).1.desk.clerk = .manager w'.manager := by
  induction program generalizing installation w with
  | done => exact ⟨w, .refl, rfl, rfl, hclerk⟩
  | perform effect next ih =>
    cases effect with
    | call request => exact ih _ hclerk hdesk
    | record entry => exact ih _ hclerk hdesk
    | submit job =>
      have hsubmit := submit_eq hclerk hdesk job
      have hclerk' : (Installation.handler.submit installation job).1.desk.clerk =
          .manager (w.submit job).manager := by rw [hsubmit]
      have hdesk' : (Installation.handler.submit installation job).1.desk.broken = false := by
        rw [hsubmit]
      obtain ⟨w', hreaches, hstarted, hended, hclerk''⟩ := ih _ hclerk' hdesk'
      have hkept : (w.submit job).started = w.started ∧ (w.submit job).ended = w.ended := by
        unfold Workshop.submit
        split <;> exact ⟨rfl, rfl⟩
      exact ⟨w', .head ⟨job, .submit w job⟩ hreaches, hstarted.trans hkept.1, hended.trans hkept.2,
        hclerk''⟩

/-- A job is executed, and its place becomes free: in the workshop it is started and ends, in the
installation it does what it asks for. -/
structure CarriesOut (w : Workshop) (installation : Installation) (job : Job) (ending : JobEnd)
    (installation' : Installation) : Prop where
  started : Step w job (w.start job)
  ended : Step (w.start job) job ((w.start job).finish job ending)
  freed : ((w.start job).finish job ending).running job.kind + 1 = w.running job.kind
  /-- The job has done what it asks for, and besides that only its place has become free. -/
  executed : ∃ after, installation.Executes job ending after ∧
    installation' = { after with
      desk := {
        installation.desk with clerk := .manager ((w.start job).finish job ending).manager } }

theorem CarriesOut.clerk {ending : JobEnd}
    (h : w.CarriesOut installation job ending installation') :
    installation'.desk.clerk = .manager ((w.start job).finish job ending).manager := by
  obtain ⟨after, -, rfl⟩ := h.executed
  rfl

/-- **If a job of the kind waits, the oldest of them is executed.** -/
theorem exists_carriesOut (hclerk : installation.desk.clerk = .manager w.manager)
    (hbalanced : w.Balanced settings) (h : ∃ job ∈ w.manager.waiting, job.Meets kind)
    (crash : Bool) :
    ∃ before job others ending installation',
      w.manager.waiting = before ++ job :: others ∧ job.Meets kind ∧
      (∀ other ∈ before, ¬ other.Meets kind) ∧ (crash = true ↔ ending = .crashed) ∧
      w.CarriesOut installation job ending installation' ∧
      installation.finishJob kind crash = (installation',
        some (job, ending, ((w.start job).finish job ending).running job.kind)) := by
  obtain ⟨before, job, others, hwaiting, hmeets, hbefore, hnext⟩ := JobManager.exists_next? h
  obtain ⟨ending, after, hexecutes, hcrash, heq⟩ :=
    Installation.finishJob_of_next hclerk hnext crash
  have hmem : job ∈ w.manager.waiting := by
    rw [hwaiting]
    exact List.mem_append_right _ List.mem_cons_self
  have hexecuting : job ∈ (w.start job).executing := List.mem_append_right _ List.mem_cons_self
  have hfreed := ((hbalanced.start hmem).running_finish hexecuting ending job.kind).1
  rw [if_pos rfl] at hfreed
  exact ⟨before, job, others, ending, _, hwaiting, hmeets, hbefore, hcrash,
    ⟨.start w job hmem, .finish _ job ending hexecuting, hfreed, after, hexecutes, rfl⟩, heq⟩

/-- **All jobs that wait can be executed, each once and in order.** -/
theorem exists_drains (hclerk : installation.desk.clerk = .manager w.manager)
    (hbalanced : w.Balanced settings) :
    ∃ ends after w', installation.Drains ends after ∧ ends.map Prod.fst = w.manager.waiting ∧
      Reaches w w' ∧ w'.manager.waiting = [] ∧ w'.started = w.started ++ w.manager.waiting ∧
      w'.ended = w.ended ++ ends ∧ after.desk.clerk = .manager w'.manager := by
  induction hwaiting : w.manager.waiting generalizing installation w with
  | nil =>
    exact ⟨[], installation, w,
      .idle (Installation.finishJob_of_none hclerk (by simp [hwaiting]) false), rfl, .refl,
      hwaiting, (List.append_nil _).symm, (List.append_nil _).symm, hclerk⟩
  | cons job jobs ih =>
    have hmeets : ∀ job : Job, job.Meets none := fun _ _ => nofun
    obtain ⟨before, job', others, ending, next, hsplit, -, hbefore, -, hcarries, heq⟩ :=
      exists_carriesOut hclerk hbalanced ⟨job, hwaiting ▸ List.mem_cons_self, hmeets job⟩ false
    obtain ⟨rfl, rfl, rfl⟩ : before = [] ∧ job' = job ∧ others = jobs := by
      rw [hwaiting] at hsplit
      cases before with
      | nil =>
        obtain ⟨rfl, rfl⟩ := List.cons.inj hsplit
        exact ⟨rfl, rfl, rfl⟩
      | cons other before => exact absurd (hmeets other) (hbefore other List.mem_cons_self)
    have hrest : ((w.start job').finish job' ending).manager.waiting = others := by
      show w.manager.waiting.erase job' = others
      rw [hwaiting, List.erase_cons_head]
    have hbalanced' := hcarries.ended.balanced (hcarries.started.balanced hbalanced)
    obtain ⟨ends, after, w', hdrains, hjobs, hreaches, hdone, hstarted, hended, hclerk'⟩ :=
      ih hcarries.clerk hbalanced' hrest
    obtain ⟨worked, hwork, -⟩ := hcarries.executed
    refine ⟨(job', ending) :: ends, after, w', .next hwork heq hdrains,
      congrArg (job' :: ·) hjobs,
      .head ⟨job', hcarries.started⟩ (.head ⟨job', hcarries.ended⟩ hreaches), hdone, ?_, ?_,
      hclerk'⟩
    · rw [hstarted]
      exact List.append_assoc _ _ _
    · rw [hended]
      exact List.append_assoc _ _ _

/-- An installation carries out what happens in a workshop. -/
structure CarriedOutBy (w : Workshop) (installation : Installation) : Prop where
  /-- A job that is handed over is taken on or turned away, and it is not executed. -/
  submitted : installation.desk.broken = false → ∀ job,
    Installation.handler.submit installation job =
      ({ installation with
          desk := {
            clerk := .manager (w.submit job).manager
            broken := false
            record := installation.desk.record.push
              (job, Verdict.ofReply (w.manager.submit job).2) } },
        (w.manager.submit job).2)
  /-- A program hands over jobs, and none of them is executed before it ends. -/
  ran : installation.desk.broken = false → ∀ {α : Type} (program : Program α),
    ∃ w', Reaches w w' ∧ w'.started = w.started ∧ w'.ended = w.ended ∧
      (installation.run program).1.desk.clerk = .manager w'.manager
  /-- If no job of the kind waits, no job is executed. -/
  idle : ∀ kind crash, (∀ job ∈ w.manager.waiting, ¬ job.Meets kind) →
    installation.finishJob kind crash = (installation, none)
  /-- If there is one, the oldest of them is executed, and its place becomes free. -/
  executed : ∀ kind crash, (∃ job ∈ w.manager.waiting, job.Meets kind) →
    ∃ before job others ending installation',
      w.manager.waiting = before ++ job :: others ∧ job.Meets kind ∧
      (∀ other ∈ before, ¬ other.Meets kind) ∧ (crash = true ↔ ending = .crashed) ∧
      w.CarriesOut installation job ending installation' ∧
      installation.finishJob kind crash = (installation',
        some (job, ending, ((w.start job).finish job ending).running job.kind))
  /-- All jobs that wait can be executed, each once and in order. -/
  drained : ∃ ends after w', installation.Drains ends after ∧
    ends.map Prod.fst = w.manager.waiting ∧ Reaches w w' ∧ w'.manager.waiting = [] ∧
    w'.started = w.started ++ w.manager.waiting ∧ w'.ended = w.ended ++ ends ∧
    after.desk.clerk = .manager w'.manager

theorem Balanced.carriedOutBy (hbalanced : w.Balanced settings)
    (hclerk : installation.desk.clerk = .manager w.manager) : w.CarriedOutBy installation where
  submitted hdesk job := submit_eq hclerk hdesk job
  ran hdesk _ program := exists_reaches_run program hclerk hdesk
  idle _ crash h := Installation.finishJob_of_none hclerk h crash
  executed _ crash h := exists_carriesOut hclerk hbalanced h crash
  drained := exists_drains hclerk hbalanced

/-- **A manager keeps its ceilings.**  In every state that is reached from the settings:

* a counter is the number of jobs of its kind that were taken on and have not ended, and it is at
  most the ceiling of the settings;
* a job is turned away exactly if the counter of its kind has reached the ceiling, and then with an
  error that has the kind and the ceiling, and nothing else comes of it;
* what happens to a job changes neither the counter of the other kind nor what becomes of jobs of
  that kind;
* the end of a job takes one off the counter;
* every job that was taken on is waiting or was started, every job that was started is being
  executed or has ended, and all of them can come to their end, each as often as it was taken on;
* an installation that has the manager carries this out: it executes the oldest job that waits,
  which does once what it asks for and gives its place back, until no job is left. -/
theorem keeps_ceilings {settings : Settings} {w : Workshop}
    (hreaches : Reaches (ofSettings settings) w) :
    (∀ kind, w.limit kind = (JobManager.ofSettings settings).limits.get kind ∧
      w.running kind + (w.ended.map Prod.fst).countP (fun job => job.kind = kind) =
        w.admitted.countP (fun job => job.kind = kind) ∧
      w.running kind ≤ w.limit kind) ∧
    (∀ job, ((∃ cause, (w.manager.submit job).2 = .error cause) ↔
        w.running job.kind = w.limit job.kind) ∧
      (w.running job.kind = w.limit job.kind → w.manager.submit job =
        (w.manager, .error (.concurrencyLimit job.kind (w.limit job.kind))))) ∧
    (∀ job w', Step w job w' → ∀ kind, kind ≠ job.kind → w'.running kind = w.running kind ∧
      ∀ other : Job, other.kind = kind →
        (w'.manager.submit other).2 = (w.manager.submit other).2) ∧
    (∀ job ∈ w.executing, ∀ ending,
      (w.finish job ending).running job.kind + 1 = w.running job.kind) ∧
    w.admitted.Perm (w.manager.waiting ++ w.started) ∧
    w.started.Perm (w.executing ++ w.ended.map Prod.fst) ∧
    (∃ w', Reaches w w' ∧ w'.admitted = w.admitted ∧ w'.rejected = w.rejected ∧
      w'.started.Perm w.admitted ∧ (w'.ended.map Prod.fst).Perm w.admitted) ∧
    ∀ installation : Installation, installation.desk.clerk = .manager w.manager →
      w.CarriedOutBy installation := by
  have h := hreaches.balanced (balanced_ofSettings settings)
  refine ⟨fun kind => ⟨?_, ?_, h.bounded kind⟩, fun job => ⟨⟨?_, ?_⟩, ?_⟩,
    fun job w' hstep kind hkind => ⟨hstep.running_of_ne hkind, ?_⟩, fun job hjob ending => ?_,
    h.admitted, h.started, ?_, fun installation hclerk => h.carriedOutBy hclerk⟩
  · rw [limit, h.limits]
  · rw [h.running kind, h.admitted.countP_eq, List.countP_append, List.countP_append,
      h.started.countP_eq, List.countP_append]
    omega
  · rintro ⟨cause, hcause⟩
    refine Nat.le_antisymm (h.bounded job.kind) (Nat.le_of_not_lt fun hroom => ?_)
    rw [JobManager.submit_of_room hroom] at hcause
    cases hcause
  · intro hfull
    rw [JobManager.submit_of_full (Nat.le_of_eq hfull.symm)]
    exact ⟨_, rfl⟩
  · exact fun hfull => JobManager.submit_of_full (Nat.le_of_eq hfull.symm)
  · rintro other rfl
    exact JobManager.reply_congr hstep.limits (hstep.running_of_ne hkind)
  · have hdown := (h.running_finish hjob ending job.kind).1
    rwa [if_pos rfl] at hdown
  · obtain ⟨w', hdrains, hadmitted, hrejected, hwaiting, hexecuting⟩ := w.exists_drained
    have h' := hdrains.balanced h
    have hstarted : w'.started.Perm w.admitted := by
      have hall := h'.admitted
      rw [hwaiting, hadmitted] at hall
      exact hall.symm
    have hended : w'.started.Perm (w'.ended.map Prod.fst) := by
      have hall := h'.started
      rwa [hexecuting] at hall
    exact ⟨w', hdrains, hadmitted, hrejected, hstarted, hended.symm.trans hstarted⟩

/-- With a ceiling of one, a second job is turned away while the first is there, and taken on when
the first has crashed.  An installation then executes it: its index is merged, and its place becomes
free. -/
theorem keeps_ceilings_of_crash :
    let settings : Settings := { optimizeLimit := 1 }
    let first : Job := .optimize "graylog_0" 1
    let second : Job := .optimize "graylog_1" 1
    let w := (((((ofSettings settings).submit first).submit second).start first).finish first
      .crashed).submit second
    let installation : Installation := {
      settings := settings
      engine := { engine := Engine.ofIndices ["graylog_0", "graylog_1"] }
      desk := { clerk := .manager w.manager } }
    w.admitted = [first, second] ∧
      w.rejected = [(second, .concurrencyLimit .optimize 1)] ∧
      w.running .optimize = 1 ∧ w.running .optimize ≤ w.limit .optimize ∧
      (∃ w', Reaches w w' ∧ (w'.ended.map Prod.fst).Perm [first, second]) ∧
      ∃ ending after, installation.finishJob (some .optimize) false =
          (after, some (second, ending, 0)) ∧
        after.engine = (installation.engine.perform (.optimize "graylog_1" 1)).1 ∧
        (after.engine.engine.indices["graylog_1"]?.map IndexState.optimizedTo) = some (some 1) ∧
        (after.engine.engine.indices["graylog_0"]?.map IndexState.optimizedTo) = some none := by
  intro settings first second w installation
  have hreaches : Reaches (ofSettings settings) w :=
    ((((Relation.ReflTransGen.single ⟨_, .submit _ first⟩).tail ⟨_, .submit _ second⟩).tail
      ⟨_, .start _ first (by decide)⟩).tail ⟨_, .finish _ first .crashed (by decide)⟩).tail
      ⟨_, .submit _ second⟩
  obtain ⟨hcounters, -, -, -, -, -, ⟨w', hdrains, -, -, -, hended⟩, hcarried⟩ :=
    keeps_ceilings hreaches
  have hmeets : second.Meets (some .optimize) := fun _ heq => Option.some.inj heq
  obtain ⟨before, job, others, ending, after, hwaiting, -, -, hcrash, hcarries, heq⟩ :=
    (hcarried installation rfl).executed (some .optimize) false
      ⟨second, List.mem_cons_self, hmeets⟩
  obtain rfl : job = second := by
    have hmem : job ∈ w.manager.waiting := by
      rw [hwaiting]
      exact List.mem_append_right _ List.mem_cons_self
    exact List.mem_singleton.mp hmem
  obtain ⟨worked, hexecutes, rfl⟩ := hcarries.executed
  change installation.Executes (.optimize "graylog_1" 1) ending worked at hexecutes
  cases hexecutes with
  | crashed => exact absurd (hcrash.mpr rfl) Bool.false_ne_true
  | merged =>
    exact ⟨rfl, rfl, rfl, (hcounters .optimize).2.2, ⟨w', hdrains, hended⟩, _, _, heq, rfl,
      by decide +kernel, by decide +kernel⟩

end Workshop
end Rollover
