import Rollover.Proofs.Deeds

/-!
# What a rotation comes to

Between one operation and the next an engine can be unavailable, can have an index with the name of
the group's alias, can have come to the last number, can refuse to create indices, or can have an
alias with the name of the next index.  A rotation asks for these things in this order, and the
first that is in its way is what it fails with (`Engine.Obstructs`).  When there is none
(`Engine.Admits`) it succeeds.

`Scene.rotate_outcome` says so of every engine that has the group's indices under their own names,
has the alias on no more than one index, which exists, and has no flush counter that is full.  It
also says what a rotation does in either case.  A failure leaves the engine with what it has, and
neither a job nor an entry of the activity log comes of it.  A success is known to the last call
(`Scene.Rotates`).
-/

namespace Rollover

open Program Environment

variable {group : IndexGroup} {maxSegments : UInt32} {s s' : Scene}

/-! ## What is in the way -/

namespace Engine

variable {e : Engine} {n : UInt64}

/-- The number that comes next: one more than the highest, or the first if the group has none. -/
def IsNext (e : Engine) (group : IndexGroup) (n : UInt64) : Prop :=
  (n = GroupView.firstNumber ∧ ∀ m, ¬ e.HasNumber group m) ∨
    ∃ m, e.HasNumber group m ∧ (∀ k, e.HasNumber group k → k ≤ m) ∧ n.toNat = m.toNat + 1

/-- Nothing is in the way of a rotation. -/
structure Admits (e : Engine) (group : IndexGroup) : Prop where
  available : e.unavailable = false
  noCollision : e.hasIndex group.aliasName = false
  /-- The highest number is not the last one. -/
  room : ∀ m, e.HasNumber group m → m.toNat + 1 < UInt64.size
  creates : e.refusesCreates = false
  /-- No alias has the name of the next index. -/
  unclaimed : ∀ n, e.IsNext group n → e.aliases.contains (group.nameOf n) = false

/-- What a rotation fails with: the first thing that is in its way. -/
inductive Obstructs (e : Engine) (group : IndexGroup) : Halt → Prop
  | unavailable (h : e.unavailable = true) : Obstructs e group
      (.failed (.engineUnavailable (.unreachable "in-memory engine marked unavailable")))
  /-- An index has the name of the alias. -/
  | collision (havailable : e.unavailable = false) (h : e.hasIndex group.aliasName = true) :
    Obstructs e group (.failed (.aliasCollision group.aliasName))
  /-- There is no number left. -/
  | exhausted (m : UInt64) (havailable : e.unavailable = false)
      (hcollision : e.hasIndex group.aliasName = false) (hm : e.HasNumber group m)
      (h : m.toNat + 1 = UInt64.size) : Obstructs e group .overflow
  /-- The engine does not create indices, or an alias has the name of the next one. -/
  | refused (n : UInt64) (havailable : e.unavailable = false)
      (hcollision : e.hasIndex group.aliasName = false) (hnext : e.IsNext group n)
      (h : e.refusesCreates = true ∨ e.aliases.contains (group.nameOf n) = true) :
    Obstructs e group (.failed (.createRefused (group.nameOf n)))

/-- The next number of a view is the number that comes next. -/
theorem viewOf_next?_eq_some_iff : (e.viewOf group).next? = some n ↔ e.IsNext group n := by
  unfold GroupView.next? IsNext
  cases hlatest : (e.viewOf group).latest? with
  | none =>
    have hnone := viewOf_latest?_eq_none_iff.mp hlatest
    refine ⟨fun h => Or.inl ⟨(Option.some.inj h).symm, hnone⟩, ?_⟩
    rintro (⟨rfl, -⟩ | ⟨m, hm, -⟩)
    · rfl
    · exact absurd hm (hnone m)
  | some last =>
    obtain ⟨hlast, hmax⟩ := viewOf_latest?_eq_some_iff.mp hlatest
    have hsucc : last.toNat + 1 < UInt64.size → (last + 1).toNat = last.toNat + 1 := by
      intro hroom
      rw [UInt64.toNat_add]
      exact Nat.mod_eq_of_lt hroom
    constructor
    · intro h
      dsimp only at h
      split at h
      · next hroom =>
        obtain rfl := Option.some.inj h
        exact Or.inr ⟨last, hlast, hmax, hsucc hroom⟩
      · cases h
    · rintro (⟨-, hnone⟩ | ⟨m, hm, hmax', hn⟩)
      · exact absurd hlast (hnone last)
      · obtain rfl : m = last := UInt64.le_antisymm (hmax m hm) (hmax' last hlast)
        have hroom : m.toNat + 1 < UInt64.size := hn ▸ n.toNat_lt
        simp only [hroom, if_true, Option.some.injEq]
        rw [← UInt64.toNat_inj, hsucc hroom, hn]

theorem viewOf_next?_eq_none_iff : (e.viewOf group).next? = none ↔
    ∃ m, e.HasNumber group m ∧ m.toNat + 1 = UInt64.size := by
  unfold GroupView.next?
  cases hlatest : (e.viewOf group).latest? with
  | none =>
    refine ⟨nofun, ?_⟩
    rintro ⟨m, hm, -⟩
    exact absurd hm (viewOf_latest?_eq_none_iff.mp hlatest m)
  | some last =>
    obtain ⟨hlast, hmax⟩ := viewOf_latest?_eq_some_iff.mp hlatest
    have hbound : last.toNat < UInt64.size := last.toNat_lt
    simp only [ite_eq_right_iff, reduceCtorEq, imp_false]
    constructor
    · intro hroom
      exact ⟨last, hlast, by omega⟩
    · rintro ⟨m, hm, hend⟩
      have hle := UInt64.le_iff_toNat_le.mp (hmax m hm)
      omega

/-- The number that comes next is one number. -/
theorem IsNext.unique {m : UInt64} (h : e.IsNext group m) (h' : e.IsNext group n) : m = n :=
  Option.some.inj ((viewOf_next?_eq_some_iff.mpr h).symm.trans (viewOf_next?_eq_some_iff.mpr h'))

/-- Either there is a number that comes next, or the last one is taken. -/
theorem IsNext.room (h : e.IsNext group n) {m : UInt64} (hm : e.HasNumber group m) :
    m.toNat + 1 < UInt64.size := by
  have hlt := UInt64.lt_iff_toNat_lt.mp (lt_of_viewOf_next? (viewOf_next?_eq_some_iff.mpr h) hm)
  have hbound : n.toNat < UInt64.size := n.toNat_lt
  omega

theorem Admits.not_obstructs {halt : Halt} (h : e.Admits group) : ¬ e.Obstructs group halt := by
  intro hobstructs
  cases hobstructs with
  | unavailable hdown =>
    rw [h.available] at hdown
    cases hdown
  | collision _ hcollision =>
    rw [h.noCollision] at hcollision
    cases hcollision
  | exhausted m _ _ hm hend => exact absurd hend (Nat.ne_of_lt (h.room m hm))
  | refused n _ _ hnext hrefused =>
    rw [h.creates, h.unclaimed n hnext] at hrefused
    exact hrefused.elim Bool.false_ne_true Bool.false_ne_true

/-- Only one thing is the first that is in the way. -/
theorem Obstructs.unique {halt halt' : Halt} (h : e.Obstructs group halt)
    (h' : e.Obstructs group halt') : halt = halt' := by
  have hboth : ∀ {b : Bool}, b = true → ¬ b = false := fun h h' => by cases h.symm.trans h'
  cases h with
  | unavailable hdown =>
    cases h' with
    | unavailable => rfl
    | collision hup | exhausted _ hup | refused _ hup => exact absurd hup (hboth hdown)
  | collision hup hcollision =>
    cases h' with
    | unavailable hdown => exact absurd hup (hboth hdown)
    | collision => rfl
    | exhausted _ _ hfree | refused _ _ hfree => exact absurd hfree (hboth hcollision)
  | exhausted m hup hfree hm hend =>
    cases h' with
    | unavailable hdown => exact absurd hup (hboth hdown)
    | collision _ hcollision => exact absurd hfree (hboth hcollision)
    | exhausted => rfl
    | refused n _ _ hnext => exact absurd hend (Nat.ne_of_lt (hnext.room hm))
  | refused n hup hfree hnext =>
    cases h' with
    | unavailable hdown => exact absurd hup (hboth hdown)
    | collision _ hcollision => exact absurd hfree (hboth hcollision)
    | exhausted m _ _ hm hend => exact absurd hend (Nat.ne_of_lt (hnext.room hm))
    | refused n' _ _ hnext' => rw [hnext.unique hnext']

end Engine

/-! ## What a rotation does -/

/-- The group was rotated to the index `n`, and from the index `old` if its alias was on one. -/
structure Scene.Rotates (maxSegments : UInt32) (group : IndexGroup) (s s' : Scene)
    (old : Option UInt64) (n : UInt64) : Prop where
  isNext : s.engine.IsNext group n
  old_eq_some_iff : ∀ m, old = some m ↔
    group.nameOf m ∈ s.engine.targetsOf group.aliasName
  /-- The alias is on the new index, and on nothing else. -/
  targetsOf : s'.engine.targetsOf group.aliasName = Std.ExtTreeSet.ofList [group.nameOf n]
  /-- The index is new. -/
  fresh : s.engine.hasIndex (group.nameOf n) = false ∧
    s'.engine.indices[group.nameOf n]? = some {}
  /-- The index that the alias has left was flushed once more, and is read-only. -/
  sealed : ∀ m, old = some m → ∃ state, s.engine.indices[group.nameOf m]? = some state ∧
    s'.engine.indices[group.nameOf m]? = some { state with
      flushes := state.flushes + 1, stats := { state.stats with readOnly := true } }
  /-- The other indices are as they were, and so are the other aliases. -/
  index : ∀ name, name ≠ group.nameOf n → (∀ m, old = some m → name ≠ group.nameOf m) →
    s'.engine.indices[name]? = s.engine.indices[name]?
  aliasState : ∀ aliasName, aliasName ≠ group.aliasName →
    s'.engine.aliasState aliasName = s.engine.aliasState aliasName
  /-- The calls for a change, the jobs and the entries of the activity log. -/
  deeds : s'.deeds = s.deeds ++ rotationDeeds maxSegments group
    (s.engine.targetsOf group.aliasName).min? old n

/-- How an engine is rotated, table by table. -/
theorem Scene.Rotates.of_rotated {old : Option UInt64} {n : UInt64}
    (hold : ∀ m, old = some m ↔ group.nameOf m ∈ s.engine.targetsOf group.aliasName)
    (hneat : s.engine.Neat group.aliasName) (hnext : s.engine.IsNext group n)
    (hrotated : s.engine.Rotated group old n s'.engine)
    (hdeeds : s'.deeds = s.deeds ++ rotationDeeds maxSegments group
      (s.engine.targetsOf group.aliasName).min? old n) :
    s.Rotates maxSegments group s' old n := by
  have hfree : s.engine.hasIndex (group.nameOf n) = false :=
    Engine.hasIndex_nameOf_of_above fun m hm =>
      Engine.lt_of_viewOf_next? (Engine.viewOf_next?_eq_some_iff.mpr hnext) hm
  have hne : ∀ m, old = some m → m ≠ n := by
    rintro m hm rfl
    rw [hneat.2 _ ((hold m).mp hm)] at hfree
    cases hfree
  have hindices : ∀ name, s'.engine.indices[name]? =
      if old.map group.nameOf = some name then
        (s.engine.grown group n).indices[name]?.map IndexState.seal
      else (s.engine.grown group n).indices[name]? := hrotated.indices
  have haliases : ∀ aliasName, s'.engine.aliasState aliasName =
      ((s.engine.grown group n).pointed group n).aliasState aliasName := fun aliasName =>
    Engine.aliasState_congr hrotated.aliases aliasName
  refine ⟨hnext, hold, ?_, ⟨hfree, ?_⟩, fun m hm => ?_, fun name hname hleft => ?_,
    fun aliasName hother => ?_, hdeeds⟩
  · rw [Engine.targetsOf, haliases, Engine.pointed, Engine.aliasState_insert, if_pos rfl]
    exact Engine.movedTargets_of_size_le_one hneat.1 _
  · have hother : ¬ old.map group.nameOf = some (group.nameOf n) := by
      rw [Option.map_eq_some_iff]
      rintro ⟨m, hm, hname⟩
      exact hne m hm (IndexGroup.nameOf_inj.mp hname)
    rw [hindices, if_neg hother, Engine.getElem?_grown, if_pos rfl]
  · exact hrotated.getElem?_left hfree hm (hneat.2 _ ((hold m).mp hm))
  · have hother : ¬ old.map group.nameOf = some name := by
      rw [Option.map_eq_some_iff]
      rintro ⟨m, hm, rfl⟩
      exact hleft m hm rfl
    rw [hindices, if_neg hother, Engine.getElem?_grown, if_neg (Ne.symm hname)]
  · rw [haliases, Engine.pointed, Engine.aliasState_insert, if_neg hother]
    rfl

/-! ## The outcome -/

variable (desk : Scene → Job → Except Error Unit)

/-- An operation on a group fails with its first call while the engine is unavailable. -/
theorem IndexGroup.run_withView_of_unavailable {α : Type}
    (operation : GroupView → Program (GroupView × Outcome α)) (h : s.engine.unavailable = true) :
    let after := (group.withView operation).run (Scene.handler desk) s
    after.2 = .error (.failed (.engineUnavailable
      (.unreachable "in-memory engine marked unavailable"))) ∧ s.Unmoved after.1 := by
  have hrun : (group.withView operation).run (Scene.handler desk) s =
      (s.next (.call .listIndices) (.error (.unreachable "in-memory engine marked unavailable"))
          (s.engine.logged .listIndices),
        .error (.failed (.engineUnavailable
          (.unreachable "in-memory engine marked unavailable")))) := by
    have hcall : (Scene.handler desk).handle s (.call .listIndices) =
        (s.next (.call .listIndices) (.error (.unreachable "in-memory engine marked unavailable"))
            (s.engine.logged .listIndices),
          .error (.unreachable "in-memory engine marked unavailable")) := by
      show (s.next _ _ _, _) = _
      rw [Engine.perform_of_unavailable h]
    unfold IndexGroup.withView IndexGroup.view
    rw [run_bind, run_bind, ask, run_perform, hcall]
    rfl
  rw [hrun]
  exact ⟨rfl, .next (s.engine.same_logged _)⟩

/-- How a rotation of a group in order ends, with the reason for it. -/
theorem Scene.rotate_course (hcanonical : s.engine.Canonical group)
    (hneat : s.engine.Neat group.aliasName) (hflush : ∀ name, ¬ s.engine.Full name) :
    let after := (group.rotate maxSegments).run (Scene.handler desk) s
    (∃ halt, after.2 = .error halt ∧ s.engine.Obstructs group halt ∧ s.Unmoved after.1) ∨
      ∃ old n, after.2 = .ok (.complete group old n) ∧ s.engine.Admits group ∧
        s.Rotates maxSegments group after.1 old n := by
  intro after
  cases havailable : s.engine.unavailable with
  | true =>
    obtain ⟨hresult, hunmoved⟩ := IndexGroup.run_withView_of_unavailable desk
      (fun view => view.rotate maxSegments) havailable
    exact Or.inl ⟨_, hresult, .unavailable havailable, hunmoved⟩
  | false =>
    have hold : ∀ m, s.engine.writeNumber? group = some m ↔
        group.nameOf m ∈ s.engine.targetsOf group.aliasName := fun m =>
      hcanonical.writeNumber?_eq_some_iff hneat
    have hcourse : RotationCourse s.engine.refusesCreates maxSegments group s after.1 after.2 :=
      (steady_rotate maxSegments fun m hm => hneat.2 _ ((hold m).mp hm)).run_steady havailable desk
    generalize houtcome : after.2 = outcome at hcourse
    cases hcourse with
    | collision hcollision hquiet =>
      exact Or.inl ⟨_, rfl, .collision havailable hcollision, hquiet.unmoved⟩
    | exhausted hcollision hnext hquiet =>
      obtain ⟨m, hm, hend⟩ := Engine.viewOf_next?_eq_none_iff.mp hnext
      exact Or.inl ⟨_, rfl, .exhausted m havailable hcollision hm hend, hquiet.unmoved⟩
    | refused n hcollision hnext hrefused hunmoved =>
      have hnext' := Engine.viewOf_next?_eq_some_iff.mp hnext
      exact Or.inl ⟨_, rfl, .refused n havailable hcollision hnext' hrefused, hunmoved⟩
    | cutOff m _ hfull => exact absurd hfull (hflush _)
    | rotated n hcollision hnext hcreates hrotated hdeeds =>
      have hnext' := Engine.viewOf_next?_eq_some_iff.mp hnext
      refine Or.inr ⟨_, n, rfl, ?_, .of_rotated hold hneat hnext' hrotated hdeeds⟩
      refine ⟨havailable, hcollision, fun m hm => hnext'.room hm, hcreates.1, fun k hk => ?_⟩
      rw [hk.unique hnext']
      exact hcreates.2

/-- **The outcome of a rotation.**  It succeeds exactly when nothing is in its way, and otherwise it
fails with the first thing that is.  A failure changes nothing, hands over nothing and records
nothing; a success is a rotation to the number that comes next. -/
theorem Scene.rotate_outcome (hcanonical : s.engine.Canonical group)
    (hneat : s.engine.Neat group.aliasName) (hflush : ∀ name, ¬ s.engine.Full name) :
    let after := (group.rotate maxSegments).run (Scene.handler desk) s
    ((∃ rotation, after.2 = .ok rotation) ↔ s.engine.Admits group) ∧
      (∀ halt, after.2 = .error halt ↔ s.engine.Obstructs group halt) ∧
      (∀ halt, after.2 = .error halt → s.Unmoved after.1) ∧
      ∀ rotation, after.2 = .ok rotation → ∃ old n, rotation = .complete group old n ∧
        s.Rotates maxSegments group after.1 old n := by
  intro after
  rcases Scene.rotate_course desk hcanonical hneat hflush with
    ⟨halt, hresult, hobstructs, hunmoved⟩ | ⟨old, n, hresult, hadmits, hrotates⟩
  · have hresult : after.2 = .error halt := hresult
    rw [hresult]
    refine ⟨⟨?_, fun hadmits => absurd hobstructs hadmits.not_obstructs⟩, fun halt' => ?_,
      fun _ _ => hunmoved, ?_⟩
    · rintro ⟨rotation, hrotation⟩
      cases hrotation
    · constructor
      · rintro ⟨⟩
        exact hobstructs
      · exact fun hobstructs' => congrArg _ (hobstructs.unique hobstructs')
    · rintro rotation ⟨⟩
  · have hresult : after.2 = .ok (.complete group old n) := hresult
    rw [hresult]
    refine ⟨⟨fun _ => hadmits, fun _ => ⟨_, rfl⟩⟩, fun halt => ?_, ?_, ?_⟩
    · exact ⟨nofun, fun hobstructs => absurd hobstructs hadmits.not_obstructs⟩
    · rintro halt ⟨⟩
    · rintro rotation ⟨⟩
      exact ⟨old, n, rfl, hrotates⟩

/-- A rotation of a group that is in use. -/
theorem Scene.rotate_outcome_serving :
    let group : IndexGroup := ⟨"graylog", "internal"⟩
    let s : Scene := { engine := Engine.serving group 3 }
    let after := (group.rotate 1).run (Scene.handler fun _ _ => .ok ()) s
    after.2 = .ok (.complete group (some 3) 4) ∧ s.Rotates 1 group after.1 (some 3) 4 := by
  intro group s after
  have hsound := Engine.sound_serving group 3
  have houtcome := @Scene.rotate_outcome group 1 s (fun _ _ => .ok ())
    (fun _ _ => Engine.canonical_serving) ⟨hsound.size_le_one _, hsound.hasIndex _⟩
    (Engine.not_full_serving group 3)
  have hnumber : ∀ {m}, s.engine.HasNumber group m ↔ m = 3 := Engine.hasNumber_serving
  have hadmits : s.engine.Admits group := by
    refine ⟨rfl, Engine.hasIndex_aliasName_serving group 3, fun m hm => ?_, rfl, fun n _ =>
      Engine.containsAlias_nameOf_serving group n 3⟩
    rw [hnumber.mp hm]
    decide
  obtain ⟨rotation, hrotation⟩ := houtcome.1.mpr hadmits
  obtain ⟨old, n, rfl, hrotates⟩ := houtcome.2.2.2 rotation hrotation
  obtain rfl : old = some 3 :=
    (hrotates.old_eq_some_iff 3).mpr ((Engine.targetsOf_serving ..).mpr ⟨rfl, rfl⟩)
  obtain rfl : n = 4 := by
    rcases hrotates.isNext with ⟨-, hnone⟩ | ⟨m, hm, -, hn⟩
    · exact absurd (hnumber.mpr rfl) (hnone 3)
    · rw [hnumber.mp hm] at hn
      exact UInt64.toNat_inj.mp hn
  exact ⟨hrotation, hrotates⟩

end Rollover
