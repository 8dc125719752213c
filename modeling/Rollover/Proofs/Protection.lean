import Rollover.Proofs.Removal

/-!
# What a removal protects

A removal must not take an index away under the group's own alias, and where it fails it must leave
everything as it was.  Both hold on every engine, whatever its aliases are on, and whichever calls
get lost (`Scene.removal_protects`).

The alias is asked for the first of its targets, and that is the one thing that a deletion spares.
So the first target is still there afterwards, and since an alias forgets only the index that is
gone, it is still the first (`min?_erase_of_ne`): whoever asks for the group's target before and
after a removal gets one answer.
-/

namespace Rollover

open Program Environment

variable {group : IndexGroup} {name : String} {s s' : Scene} {result : Except Error Bool}

/-! ## What the alias is on -/

/-- A set that loses another element than its first keeps its first. -/
theorem min?_erase_of_ne {targets : Std.ExtTreeSet String} (h : targets.min? ≠ some name) :
    (targets.erase name).min? = targets.min? := by
  cases hfirst : targets.min? with
  | none =>
    rw [Std.ExtTreeSet.min?_eq_none_iff.mp hfirst, Std.ExtTreeSet.erase_empty,
      Std.ExtTreeSet.min?_empty]
  | some first =>
    obtain ⟨hmem, hleast⟩ := Std.ExtTreeSet.min?_eq_some_iff_mem_and_forall.mp hfirst
    refine Std.ExtTreeSet.min?_eq_some_iff_mem_and_forall.mpr ⟨?_, fun other hother => ?_⟩
    · rw [Std.ExtTreeSet.mem_erase, ne_eq, Std.LawfulEqOrd.compare_eq_iff_eq]
      exact ⟨fun heq => h (hfirst.trans (congrArg some heq.symm)), hmem⟩
    · exact hleast other (Std.ExtTreeSet.mem_erase.mp hother).2

/-- What the engine says the group's alias is on. -/
theorem IndexGroup.run_currentTarget (group : IndexGroup) (desk : Scene → Job → Except Error Unit)
    (s : Scene) : (group.currentTarget.run (Scene.handler desk) s).2 =
      if s.engine.unavailable = true then
        .error (.engineUnavailable (.unreachable "in-memory engine marked unavailable"))
      else .ok (s.engine.targetsOf group.aliasName).min? := by
  have hask : (ask (.aliasTarget group.aliasName)).run (Scene.handler desk) s =
      (s.next (.call (.aliasTarget group.aliasName))
          (s.engine.perform (.aliasTarget group.aliasName)).2
          (s.engine.perform (.aliasTarget group.aliasName)).1,
        (s.engine.perform (.aliasTarget group.aliasName)).2) := rfl
  unfold IndexGroup.currentTarget
  rw [run_bind, hask]
  cases havailable : s.engine.unavailable with
  | true =>
    rw [Engine.perform_of_unavailable havailable]
    rfl
  | false =>
    rw [Engine.perform_of_available havailable]
    rfl

/-- An alias whose first target is another index has the same first target when an index is gone. -/
theorem Engine.min?_targetsOf_without {e : Engine} {aliasName : String}
    (h : (e.targetsOf aliasName).min? ≠ some name) :
    ((e.without name).targetsOf aliasName).min? = (e.targetsOf aliasName).min? := by
  have hstate : (e.without name).aliasState aliasName = (e.aliasState aliasName).forget name :=
    Engine.aliasState_forget e name aliasName
  rw [Engine.targetsOf, hstate, AliasState.targets_forget]
  exact min?_erase_of_ne h

/-- A removal leaves the group's alias on what it was on first. -/
theorem RemovalCourse.min?_targetsOf (h : RemovalCourse group name s s' result) :
    (s'.engine.targetsOf group.aliasName).min? = (s.engine.targetsOf group.aliasName).min? := by
  cases h with
  | unread cause _ heq => rw [heq]
  | refused cause _ _ hquiet => rw [hquiet.same.targetsOf]
  | kept n _ _ _ hunmoved => rw [hunmoved.same.targetsOf]
  | deleted n _ _ hfree hgone => rw [hgone.targetsOf, Engine.min?_targetsOf_without hfree]

/-! ## Protection -/

/-- What is safe from a removal by name, with its result. -/
structure Scene.Protects (group : IndexGroup) (name : String) (s s' : Scene)
    (result : Except Error Bool) : Prop where
  /-- Whoever asks what the group's alias is on gets the answer that was given before. -/
  currentTarget : ∀ desk, (group.currentTarget.run (handler desk) s').2 =
    (group.currentTarget.run (handler desk) s).2
  /-- A failure changes nothing, and neither a job nor an entry of the activity log comes of it; and
  so it is if there was nothing to delete. -/
  unmoved : result ≠ .ok true → s.Unmoved s'
  /-- A success deletes one index, which the name stands for, and every alias forgets it. -/
  deleted : result = .ok true → ∃ n, group.numberOf? name = some n ∧
    s.engine.hasIndex (group.nameOf n) = true ∧ (s.engine.without (group.nameOf n)).Same s'.engine
  /-- A name that the group cannot read fails before the engine is asked anything. -/
  unread : ∀ cause, group.parse name = .error cause → s' = s ∧ result = .error cause ∧
    (cause = .foreignSegment name group.fullName ∨ ∃ fault, cause = .malformedName name fault)
  /-- The name of the alias fails, and no deletion is called for. -/
  writeAlias : name = group.aliasName → (∃ cause, result = .error cause) ∧ s.Quiet s'
  /-- A rebuild of the group is handed over if an index was deleted, and not otherwise. -/
  rebuild : (result = .ok true → s'.handed = s.handed ++ [.rebuildRanges group]) ∧
    (result ≠ .ok true → s'.handed = s.handed)

/-- Of the group's alias no removal makes anything but a failure. -/
theorem RemovalCourse.writeAlias (h : RemovalCourse group name s s' result)
    (hname : name = group.aliasName) : (∃ cause, result = .error cause) ∧ s.Quiet s' := by
  have hnumber : group.numberOf? name = none := hname ▸ IndexGroup.numberOf?_aliasName group group
  cases h with
  | unread cause hparse =>
    rw [hname, IndexGroup.parse_aliasName] at hparse
    cases hparse
  | refused cause _ _ hquiet => exact ⟨⟨cause, rfl⟩, hquiet⟩
  | kept n _ hn =>
    rw [hnumber] at hn
    cases hn
  | deleted n hn =>
    rw [hnumber] at hn
    cases hn

/-- A removal is all or nothing. -/
theorem RemovalCourse.unmoved (h : RemovalCourse group name s s' result)
    (hresult : result ≠ .ok true) : s.Unmoved s' := by
  cases h with
  | unread _ _ heq => exact heq ▸ .refl s
  | refused _ _ _ hquiet => exact hquiet.unmoved
  | kept _ _ _ _ hunmoved => exact hunmoved
  | deleted => exact absurd rfl hresult

theorem RemovalCourse.exists_deleted (h : RemovalCourse group name s s' result)
    (hresult : result = .ok true) : ∃ n, group.numberOf? name = some n ∧
      s.engine.hasIndex (group.nameOf n) = true ∧
      (s.engine.without (group.nameOf n)).Same s'.engine := by
  cases h with
  | unread | refused => cases hresult
  | kept _ _ _ hnot => exact absurd hresult hnot
  | deleted n hnumber hindex _ hgone => exact ⟨n, hnumber, hindex, hgone⟩

theorem RemovalCourse.handed (h : RemovalCourse group name s s' result) :
    (result = .ok true → s'.handed = s.handed ++ [.rebuildRanges group]) ∧
      (result ≠ .ok true → s'.handed = s.handed) := by
  cases h with
  | unread cause _ heq => exact ⟨nofun, fun _ => by rw [heq]⟩
  | refused cause _ _ hquiet => exact ⟨nofun, fun _ => hquiet.unmoved.handed⟩
  | kept n _ _ hresult hunmoved => exact ⟨fun hok => absurd hok hresult, fun _ => hunmoved.handed⟩
  | deleted n _ _ _ _ hdeeds =>
    refine ⟨fun _ => ?_, fun hresult => absurd rfl hresult⟩
    rw [Scene.handed_eq_deeds, hdeeds, List.filterMap_append, ← Scene.handed_eq_deeds]
    rfl

/-- **A removal protects what is written to, and is all or nothing**: it deletes one index, or it
changes nothing.  This holds on every engine and whichever calls fail.  If no call fails, the index
with the number that the name stands for is deleted, unless the alias is on it or it does not
exist. -/
theorem Scene.removal_protects (group : IndexGroup) (name : String) (s : Scene) :
    (∀ result s', Leads disturbed (group.removeSegment name, s) (.done result, s') →
      s.Protects group name s' result) ∧
    ∀ n desk, group.numberOf? name = some n → s.engine.unavailable = false →
      ((group.removeSegment name).run (handler desk) s).2 =
        if (s.engine.targetsOf group.aliasName).min? = some (group.nameOf n) then
          .error (.writeTarget (group.nameOf n))
        else .ok (s.engine.hasIndex (group.nameOf n)) := by
  refine ⟨fun result s' hleads => ?_, fun n desk hnumber havailable => ?_⟩
  · have hupholds := disturbed_removeSegment group name s
    have hcourse : RemovalCourse group name s s' result := hupholds.steps hleads
    have havailable : s'.engine.unavailable = s.engine.unavailable := by
      refine hupholds.preserves (P := fun e => e.unavailable = s.engine.unavailable) hleads ?_ rfl
      exact fun _ _ _ _ _ happens hsame => (disturbed_switches happens).1.trans hsame
    refine ⟨fun desk => ?_, hcourse.unmoved, hcourse.exists_deleted, fun cause hparse => ?_,
      hcourse.writeAlias, hcourse.handed⟩
    · rw [IndexGroup.run_currentTarget, IndexGroup.run_currentTarget, havailable,
        hcourse.min?_targetsOf]
    · have hnumber : group.numberOf? name = none := by rw [IndexGroup.numberOf?, hparse]
      cases hcourse with
      | unread cause' hparse' heq =>
        obtain rfl := Except.error.inj (hparse'.symm.trans hparse)
        exact ⟨heq, rfl, IndexGroup.eq_of_parse_eq_error hparse⟩
      | refused _ _ hparse' =>
        rw [hparse] at hparse'
        cases hparse'
      | kept n _ hn =>
        rw [hnumber] at hn
        cases hn
      | deleted n hn =>
        rw [hnumber] at hn
        cases hn
  · exact (answered_removeSegment hnumber).run_answered havailable desk

/-- The index that a group writes to cannot be removed, and another one can. -/
theorem Scene.removal_protects_serving :
    let group : IndexGroup := ⟨"graylog", "internal"⟩
    let desk : Scene → Job → Except Error Unit := fun _ _ => .ok ()
    let s : Scene := { engine := Engine.serving group 3 }
    let refused := (group.removeSegment (group.nameOf 3)).run (handler desk) s
    let t : Scene := { engine := Engine.ofIndices [group.nameOf 7] }
    let removed := (group.removeSegment (group.nameOf 7)).run (handler desk) t
    (refused.2 = .error (.writeTarget (group.nameOf 3)) ∧ s.Unmoved refused.1) ∧
      removed.2 = .ok true ∧ removed.1.engine.hasIndex (group.nameOf 7) = false ∧
      removed.1.handed = [.rebuildRanges group] := by
  intro group desk s refused t removed
  have hfirst : (s.engine.targetsOf group.aliasName).min? = some (group.nameOf 3) :=
    (min?_eq_some_iff ((Engine.sound_serving group 3).size_le_one _)).mpr
      ((Engine.targetsOf_serving ..).mpr ⟨rfl, rfl⟩)
  obtain ⟨hprotects, hresult⟩ := Scene.removal_protects group (group.nameOf 3) s
  have hrefused : refused.2 = .error (.writeTarget (group.nameOf 3)) := by
    have hrun := hresult 3 desk (group.numberOf?_nameOf 3) rfl
    rwa [if_pos hfirst] at hrun
  have hindex : t.engine.hasIndex (group.nameOf 7) = true :=
    Engine.hasIndex_ofIndices.mpr (List.mem_singleton_self _)
  obtain ⟨hprotects', hresult'⟩ := Scene.removal_protects group (group.nameOf 7) t
  have hremoved : removed.2 = .ok true := by
    have hrun := hresult' 7 desk (group.numberOf?_nameOf 7) rfl
    rwa [if_neg (by rw [show t.engine.targetsOf group.aliasName = ∅ from rfl,
      Std.ExtTreeSet.min?_empty]; nofun), hindex] at hrun
  have hnot : refused.2 ≠ .ok true := by
    rw [hrefused]
    exact nofun
  have hprotected := hprotects' _ _ (leads_run_disturbed _ t desk)
  have hgone : removed.1.engine.hasIndex (group.nameOf 7) = false := by
    obtain ⟨n, hnumber, -, hsame⟩ := hprotected.deleted hremoved
    obtain rfl := Option.some.inj ((group.numberOf?_nameOf 7).symm.trans hnumber)
    rw [hsame.hasIndex]
    decide +kernel
  exact ⟨⟨hrefused, (hprotects _ _ (leads_run_disturbed _ s desk)).unmoved hnot⟩, hremoved, hgone,
    hprotected.rebuild.1 hremoved⟩

end Rollover
