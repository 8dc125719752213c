import Rollover.Proofs.Recovery

/-!
# What an alias is on afterwards

Setting up and rotating see one target of the group's alias, the first that the engine names.  A
move takes the alias away from that one, and a view takes it for all there is.  If the alias has
one target at most, that is right.  If it has several, the others stay.

So success says that the alias is on an index of its group, and not that it is on nothing else.
`Engine.OnOne` is the latter: one target, which exists and is an index of the group.
`settles_iff` says exactly when an operation that reports success leaves the alias so: after a move
if there was no other target than the first (`Engine.NoOther`), and where nothing was moved if there
was one target and it exists (`Engine.Neat`).  In a sound engine both are the case
(`SetUpEnd.onOne`, `RotationEnd.onOne`).
-/

namespace Rollover

open Program Environment

namespace Engine

variable {e e' : Engine} {group : IndexGroup} {aliasName name : String} {n : UInt64}

/-- The group's alias is on one index of the group, which exists, and on nothing else. -/
def OnOne (e : Engine) (group : IndexGroup) : Prop :=
  ∃ name n, e.targetsOf group.aliasName = Std.ExtTreeSet.ofList [name] ∧
    e.hasIndex name = true ∧ group.numberOf? name = some n

/-- An alias has no targets but the first and a given name. -/
def NoOther (e : Engine) (aliasName name : String) : Prop :=
  ∀ target, target ∈ e.targetsOf aliasName →
    (e.targetsOf aliasName).min? = some target ∨ target = name

theorem Same.onOne_iff (h : e.Same e') : e'.OnOne group ↔ e.OnOne group := by
  simp only [OnOne, h.targetsOf, h.hasIndex]

theorem OnOne.neat (h : e.OnOne group) : e.Neat group.aliasName := by
  obtain ⟨name, n, htargets, hindex, -⟩ := h
  refine ⟨?_, fun target hmem => ?_⟩
  · rw [htargets]
    exact Nat.le_of_eq (size_ofList_singleton _)
  · rw [htargets, mem_ofList_singleton] at hmem
    rw [hmem]
    exact hindex

/-- An alias with one target at most has no others. -/
theorem noOther_of_size_le_one (hsize : (e.targetsOf aliasName).size ≤ 1) (name : String) :
    e.NoOther aliasName name := fun _ hmem => Or.inl ((min?_eq_some_iff hsize).mpr hmem)

/-- Where the first target of the alias is an index of the group, there is one if the alias is
neat. -/
theorem onOne_iff_neat {target : String}
    (hfirst : (e.targetsOf group.aliasName).min? = some target)
    (hnumber : group.numberOf? target = some n) : e.OnOne group ↔ e.Neat group.aliasName := by
  refine ⟨OnOne.neat, fun ⟨hsize, hindex⟩ => ?_⟩
  have hmem : target ∈ e.targetsOf group.aliasName := Std.ExtTreeSet.min?_mem hfirst
  refine ⟨target, n, Std.ExtTreeSet.ext_mem fun other => ?_, hindex target hmem, hnumber⟩
  rw [mem_ofList_singleton]
  constructor
  · exact fun hother => eq_of_size_le_one hsize hother hmem
  · rintro rfl
    exact hmem

/-- **After a move the alias is on one index exactly if it had no targets but the first and that
one.** -/
theorem Redirected.onOne_iff (h : e.Redirected group e' n) :
    e'.OnOne group ↔ e.NoOther group.aliasName (group.nameOf n) := by
  have hmem : ∀ other, other ∈ e'.targetsOf group.aliasName ↔ other = group.nameOf n ∨
      (other ∈ e.targetsOf group.aliasName ∧
        (e.targetsOf group.aliasName).min? ≠ some other) := by
    intro other
    rw [Engine.targetsOf, h.aliasState, AliasState.targets_retarget]
    exact mem_movedTargets_min?
  constructor
  · rintro ⟨name, -, htargets, -⟩ target htarget
    have hnew : group.nameOf n ∈ e'.targetsOf group.aliasName := (hmem _).mpr (Or.inl rfl)
    rw [htargets, mem_ofList_singleton] at hnew
    by_cases hfirst : (e.targetsOf group.aliasName).min? = some target
    · exact Or.inl hfirst
    · have hstays : target ∈ e'.targetsOf group.aliasName := (hmem _).mpr (Or.inr ⟨htarget, hfirst⟩)
      rw [htargets, mem_ofList_singleton] at hstays
      exact Or.inr (hstays.trans hnew.symm)
  · intro hother
    refine ⟨group.nameOf n, n, Std.ExtTreeSet.ext_mem fun other => ?_, h.hasIndex,
      group.numberOf?_nameOf n⟩
    rw [hmem, mem_ofList_singleton]
    constructor
    · rintro (rfl | ⟨hold, hfirst⟩)
      · rfl
      · exact (hother other hold).resolve_left hfirst
    · exact Or.inl

/-- A view that is up has seen an index of the group first. -/
theorem onOne_iff_of_isUp (hup : (e.viewOf group).isUp = true) :
    e.OnOne group ↔ e.Neat group.aliasName := by
  obtain ⟨n, htarget⟩ := Option.isSome_iff_exists.mp hup
  obtain ⟨-, target, hfirst, hnumber, -⟩ := viewOf_target_eq_some_iff.mp htarget
  exact onOne_iff_neat hfirst hnumber

theorem Sound.neat (hs : e.Sound) (aliasName : String) : e.Neat aliasName :=
  ⟨hs.size_le_one aliasName, hs.hasIndex aliasName⟩

end Engine

/-! ## Setting up, rotating, looking -/

/-- What the engine must be like before, so that the alias is on one index after a rotation. -/
def Rotation.Settles (rotation : Rotation) (group : IndexGroup) (e : Engine) : Prop :=
  e.NoOther group.aliasName rotation.next.name

/-- What the engine must be like before, so that the alias is on one index after setting up. -/
def SetUp.Settles (group : IndexGroup) (e : Engine) : SetUp → Prop
  | .alreadyUp => e.Neat group.aliasName
  | .repaired target => e.NoOther group.aliasName target.name
  | .bootstrapped rotation => rotation.Settles group e

variable {group : IndexGroup} {s s' : Scene}

theorem RotationEnd.onOne_iff {rotation : Rotation} (h : RotationEnd group s s' (.ok rotation)) :
    s'.engine.OnOne group ↔ rotation.Settles group s.engine := by
  cases h with
  | rotated n frozen advanced => exact advanced.redirected.onOne_iff

theorem SetUpEnd.onOne_iff {found : SetUp} (h : SetUpEnd group s s' (.ok found)) :
    s'.engine.OnOne group ↔ found.Settles group s.engine := by
  cases h with
  | alreadyUp hup hquiet =>
    rw [hquiet.same.onOne_iff]
    exact Engine.onOne_iff_of_isUp hup
  | repaired n hdown hlatest redirected => exact redirected.onOne_iff
  | bootstrapped rotation hempty hrotation => exact hrotation.onOne_iff

/-- **From a sound engine a rotation leads to one index.** -/
theorem RotationEnd.onOne {rotation : Rotation} (hs : s.engine.Sound)
    (h : RotationEnd group s s' (.ok rotation)) : s'.engine.OnOne group :=
  h.onOne_iff.mpr (Engine.noOther_of_size_le_one (hs.size_le_one _) _)

/-- **In a sound engine a group that was set up is on one index.** -/
theorem SetUpEnd.onOne {found : SetUp} (hs : s.engine.Sound)
    (h : SetUpEnd group s s' (.ok found)) : s'.engine.OnOne group := by
  rw [h.onOne_iff]
  cases found with
  | alreadyUp => exact hs.neat _
  | repaired target => exact Engine.noOther_of_size_le_one (hs.size_le_one _) _
  | bootstrapped rotation => exact Engine.noOther_of_size_le_one (hs.size_le_one _) _

/-- **What success says about the alias.**  A rotation, setting up, or a look at the group may
report success; this is exactly when the alias is on one index of the group afterwards. -/
theorem settles_iff (group : IndexGroup) (maxSegments : UInt32) (s s' : Scene) :
    (∀ found, Leads disturbed (group.setUp maxSegments, s) (.done (.ok found), s') →
      (s'.engine.OnOne group ↔ found.Settles group s.engine)) ∧
    (∀ rotation, Leads disturbed (group.rotate maxSegments, s) (.done (.ok rotation), s') →
      (s'.engine.OnOne group ↔ rotation.Settles group s.engine)) ∧
    (∀ view, Leads disturbed (group.view, s) (.done (.ok view), s') → view.isUp = true →
      (s'.engine.OnOne group ↔ s.engine.Neat group.aliasName)) := by
  refine ⟨fun found h => ?_, fun rotation h => ?_, fun view h hup => ?_⟩
  · exact (SetUpEnd.of_leads h).onOne_iff
  · exact (RotationEnd.of_leads h).onOne_iff
  · obtain ⟨hquiet, hview | ⟨cause, hcause⟩⟩ := (upholds_disturbed_view group s).steps h
    · obtain rfl := Except.ok.inj hview
      rw [hquiet.same.onOne_iff]
      exact Engine.onOne_iff_of_isUp hup
    · cases hcause

/-- A rotation of a group in use leaves the alias on one index. -/
theorem settles_iff_of_serving :
    let group : IndexGroup := ⟨"graylog", "internal"⟩
    let s : Scene := { engine := Engine.serving group 0 }
    let after := (group.rotate 1).run (Scene.handler fun _ _ => .ok ()) s
    ∃ rotation, after.2 = .ok rotation ∧ after.1.engine.OnOne group := by
  intro group s after
  have hready : s.engine.Ready group := (Engine.orderly_serving group 0).ready fun n hn => by
    obtain rfl := Engine.hasNumber_serving.mp hn
    decide
  have hleads := leads_run_disturbed (group.rotate 1) s fun _ _ => .ok ()
  rcases (faultless_rotate 1 hready).run rfl rfl fun _ _ => .ok () with
    ⟨rotation, hok, -⟩ | ⟨-, hfull⟩
  · rw [hok] at hleads
    exact ⟨rotation, hok, ((settles_iff group 1 s after.1).2.1 rotation hleads).mpr
      (Engine.noOther_of_size_le_one ((Engine.sound_serving group 0).size_le_one _) _)⟩
  · exact absurd hfull (Engine.not_flushedUp_of_new fun _ _ => Engine.eq_of_getElem?_ofIndices)

/-! ## An alias on two indices -/

namespace Engine

/-- An engine with two indices of a group, and the group's alias on both. -/
def forked (group : IndexGroup) (m n : UInt64) : Engine :=
  let targets := [group.nameOf m, group.nameOf n]
  { ofIndices targets with
    aliases := (∅ : Std.ExtTreeMap String AliasState).insert group.aliasName
      { targets := Std.ExtTreeSet.ofList targets, history := [targets] } }

variable {group : IndexGroup} {m n : UInt64}

theorem hasIndex_forked {name : String} :
    (forked group m n).hasIndex name = true ↔ name = group.nameOf m ∨ name = group.nameOf n := by
  have hindex := @hasIndex_ofIndices [group.nameOf m, group.nameOf n] name
  rw [List.mem_cons, List.mem_singleton] at hindex
  exact hindex

theorem mem_targetsOf_forked {name : String} :
    name ∈ (forked group m n).targetsOf group.aliasName ↔
      name = group.nameOf m ∨ name = group.nameOf n := by
  show name ∈ ((Std.ExtTreeMap.insert ∅ group.aliasName _)[group.aliasName]?.getD
    ({} : AliasState)).targets ↔ _
  rw [Std.ExtTreeMap.getElem?_insert_self, Option.getD_some, Std.ExtTreeSet.mem_ofList,
    List.contains_iff_mem, List.mem_cons, List.mem_singleton]

/-- The operations on the group find nothing that they could fail on. -/
theorem ready_forked (hm : m.toNat + 1 < UInt64.size) (hn : n.toNat + 1 < UInt64.size) :
    (forked group m n).Ready group := by
  constructor
  · rw [Bool.eq_false_iff]
    intro hindex
    rcases hasIndex_forked.mp hindex with h | h
    · exact IndexGroup.nameOf_ne_aliasName group group m h.symm
    · exact IndexGroup.nameOf_ne_aliasName group group n h.symm
  · intro k
    show (Std.ExtTreeMap.insert ∅ group.aliasName _).contains (group.nameOf k) = false
    rw [Std.ExtTreeMap.contains_insert, Std.ExtTreeMap.contains_empty, Bool.or_false,
      beq_eq_false_iff_ne, ne_eq, Std.LawfulEqOrd.compare_eq_iff_eq]
    exact (IndexGroup.nameOf_ne_aliasName group group k).symm
  · intro name k hindex hnumber
    rcases hasIndex_forked.mp hindex with rfl | rfl
    · rw [Option.some.inj ((group.numberOf?_nameOf m).symm.trans hnumber)]
    · rw [Option.some.inj ((group.numberOf?_nameOf n).symm.trans hnumber)]
  · rintro k ⟨name, hindex, hnumber⟩
    rcases hasIndex_forked.mp hindex with rfl | rfl
    · obtain rfl := Option.some.inj ((group.numberOf?_nameOf m).symm.trans hnumber)
      exact hm
    · obtain rfl := Option.some.inj ((group.numberOf?_nameOf n).symm.trans hnumber)
      exact hn

theorem not_flushedUp_forked : ¬ (forked group m n).FlushedUp group :=
  not_flushedUp_of_new fun _ _ => eq_of_getElem?_ofIndices

/-- Two targets are more than the first and a third. -/
theorem not_noOther_forked {name : String} (hne : m ≠ n) (hm : group.nameOf m ≠ name)
    (hn : group.nameOf n ≠ name) : ¬ (forked group m n).NoOther group.aliasName name := by
  intro hother
  have hfirst := (hother _ (mem_targetsOf_forked.mpr (Or.inl rfl))).resolve_right hm
  have hsecond := (hother _ (mem_targetsOf_forked.mpr (Or.inr rfl))).resolve_right hn
  rw [hfirst] at hsecond
  exact hne (IndexGroup.nameOf_inj.mp (Option.some.inj hsecond))

/-- The alias is on an index of the group, and on another one. -/
theorem not_neat_forked (hne : m ≠ n) : ¬ (forked group m n).Neat group.aliasName := by
  rintro ⟨hsize, -⟩
  have heq := eq_of_size_le_one hsize (mem_targetsOf_forked.mpr (Or.inl rfl))
    (mem_targetsOf_forked.mpr (Or.inr rfl))
  exact hne (IndexGroup.nameOf_inj.mp heq)

theorem writeNumber?_forked : ((forked group m n).writeNumber? group).isSome = true := by
  have hmem : group.nameOf m ∈ (forked group m n).targetsOf group.aliasName :=
    mem_targetsOf_forked.mpr (Or.inl rfl)
  obtain ⟨first, hfirst⟩ :=
    Option.isSome_iff_exists.mp (Std.ExtTreeSet.isSome_min?_of_mem hmem)
  have hindex := mem_targetsOf_forked.mp (Std.ExtTreeSet.min?_mem hfirst)
  have hnumber : ∃ k, group.numberOf? first = some k := by
    rcases hindex with rfl | rfl
    · exact ⟨m, group.numberOf?_nameOf m⟩
    · exact ⟨n, group.numberOf?_nameOf n⟩
  obtain ⟨k, hk⟩ := hnumber
  exact Option.isSome_iff_exists.mpr ⟨k, writeNumber?_eq_some_iff.mpr
    ⟨first, hfirst, hk, first, hasIndex_forked.mpr hindex, hk⟩⟩

end Engine

/-- The index that a rotation has led to is new. -/
theorem RotationEnd.hasIndex_next {rotation : Rotation}
    (h : RotationEnd group s s' (.ok rotation)) :
    s.engine.hasIndex rotation.next.name = false := by
  cases h with
  | rotated n frozen advanced =>
    exact Engine.hasIndex_nameOf_of_above fun m => Engine.lt_of_viewOf_next? advanced.next?

section Forked

variable {m n : UInt64} {maxSegments : UInt32}

/-- Setting up a group whose alias is on two of its indices finds nothing to do. -/
theorem setUp_forked {found : SetUp} (hs : s.engine = Engine.forked group m n) (hne : m ≠ n)
    (h : SetUpEnd group s s' (.ok found)) : found = .alreadyUp ∧ ¬ s'.engine.OnOne group := by
  have hwrites : (s.engine.writeNumber? group).isSome = true := hs ▸ Engine.writeNumber?_forked
  cases h with
  | alreadyUp hup hquiet =>
    refine ⟨rfl, fun hone => ?_⟩
    have hneat := (hquiet.same.onOne_iff.mp hone).neat
    rw [hs] at hneat
    exact Engine.not_neat_forked hne hneat
  | repaired k hdown =>
    rw [hdown] at hwrites
    cases hwrites
  | bootstrapped rotation hempty =>
    rw [Engine.writeNumber?_of_empty hempty] at hwrites
    cases hwrites

/-- A rotation of such a group takes the alias away from the first of the two only. -/
theorem rotate_forked {rotation : Rotation} (hs : s.engine = Engine.forked group m n) (hne : m ≠ n)
    (h : RotationEnd group s s' (.ok rotation)) : ¬ s'.engine.OnOne group := by
  have hold : ∀ k, s.engine.hasIndex (group.nameOf k) = true →
      group.nameOf k ≠ rotation.next.name := by
    intro k hindex heq
    rw [heq, h.hasIndex_next] at hindex
    cases hindex
  rw [hs] at hold
  rw [h.onOne_iff, Rotation.Settles, hs]
  exact Engine.not_noOther_forked hne (hold m (Engine.hasIndex_forked.mpr (Or.inl rfl)))
    (hold n (Engine.hasIndex_forked.mpr (Or.inr rfl)))

end Forked

/-- Once the alias of a group is on two of its indices, setting up finds nothing to do and a
rotation succeeds, and neither leaves it on one. -/
theorem not_onOne_of_forked :
    let group : IndexGroup := ⟨"graylog", "internal"⟩
    let s : Scene := { engine := Engine.forked group 0 1 }
    let up := (group.setUp 1).run (Scene.handler fun _ _ => .ok ()) s
    let rotated := (group.rotate 1).run (Scene.handler fun _ _ => .ok ()) s
    (up.2 = .ok .alreadyUp ∧ ¬ up.1.engine.OnOne group) ∧
      (∃ rotation, rotated.2 = .ok rotation) ∧ ¬ rotated.1.engine.OnOne group := by
  intro group s up rotated
  have hs : s.engine = Engine.forked group 0 1 := rfl
  have hready : s.engine.Ready group := Engine.ready_forked (by decide) (by decide)
  have hne : (0 : UInt64) ≠ 1 := by decide
  have hup : SetUpEnd group s up.1 up.2 :=
    .of_leads (leads_run_disturbed (group.setUp 1) s fun _ _ => .ok ())
  have hrotated : RotationEnd group s rotated.1 rotated.2 :=
    .of_leads (leads_run_disturbed (group.rotate 1) s fun _ _ => .ok ())
  constructor
  · obtain ⟨found, hok⟩ := (faultless_setUp 1 hready).run rfl rfl fun _ _ => .ok ()
    have hok' : up.2 = .ok found := hok
    rw [hok'] at hup ⊢
    obtain ⟨rfl, hnot⟩ := setUp_forked hs hne hup
    exact ⟨rfl, hnot⟩
  · rcases (faultless_rotate 1 hready).run rfl rfl fun _ _ => .ok () with
      ⟨rotation, hok, -⟩ | ⟨-, hfull⟩
    · have hok' : rotated.2 = .ok rotation := hok
      rw [hok'] at hrotated
      exact ⟨⟨rotation, hok'⟩, rotate_forked hs hne hrotated⟩
    · exact absurd hfull Engine.not_flushedUp_forked

end Rollover
