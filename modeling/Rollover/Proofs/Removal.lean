import Rollover.Proofs.Conduct
import Rollover.Proofs.Deeds
import Rollover.Proofs.Reading

/-!
# Which index a removal deletes

A caller names the index that is to go.  The name is read as a number, and what is deleted is the
index to which the group itself gives that number.  The two are one index if the group writes the
name as the caller did.  They are not if the name has leading zeros: reading drops them, and the
index that goes is called otherwise.

`RemovalCourse` says how a removal goes, on every engine and whichever calls fail, and `DeletionEnd`
what has become of the indices then: it leaves the engine as it is, or it deletes the index with the
number that was read, and it reports success in the second case only.  From this follows exactly
when a removal keeps to the name that it was given (`Scene.keepsTo_iff`).
-/

namespace Rollover

open Program Environment

/-- How removing an index by name ends. -/
inductive DeletionEnd (group : IndexGroup) (name : String) (s s' : Scene) :
    Except Error Bool → Prop
  /-- Nothing was deleted, and no success is reported. -/
  | kept (result : Except Error Bool) (hresult : result ≠ .ok true)
      (h : s.engine.Same s'.engine) : DeletionEnd group name s s' result
  /-- The index with the number that the name stands for was deleted.  The alias was not on it. -/
  | deleted (n : UInt64) (hnumber : group.numberOf? name = some n)
      (hindex : s.engine.hasIndex (group.nameOf n) = true)
      (hfree : (s.engine.targetsOf group.aliasName).min? ≠ some (group.nameOf n))
      (h : s'.engine.indices = s.engine.indices.erase (group.nameOf n)) :
    DeletionEnd group name s s' (.ok true)

variable {group : IndexGroup} {view : GroupView} {name : String} {s s' s₁ : Scene}
  {result : Except Error Bool}

/-! ## The walk -/

/-- The engine after an index was deleted: the index is gone, and every alias forgets it. -/
def Engine.without (e : Engine) (name : String) : Engine :=
  { e with
    indices := e.indices.erase name
    aliases := e.aliases.map fun _ state => state.forget name }

theorem Engine.Same.without {e e' : Engine} (h : e.Same e') (name : String) :
    (e.without name).Same (e'.without name) := by
  refine ⟨?_, ?_⟩
  · rw [Engine.without, Engine.without, h.indices]
  · rw [Engine.without, Engine.without, h.aliases]

/-- How removing an index by name goes. -/
inductive RemovalCourse (group : IndexGroup) (name : String) (s s' : Scene) :
    Except Error Bool → Prop
  /-- The name stands for nothing in the group, and nothing was asked. -/
  | unread (cause : Error) (hparse : group.parse name = .error cause) (h : s' = s) :
    RemovalCourse group name s s' (.error cause)
  /-- A question was not answered, or the answer is against it. -/
  | refused (cause : Error) (segment : Segment) (hparse : group.parse name = .ok segment)
      (h : s.Quiet s') : RemovalCourse group name s s' (.error cause)
  /-- The deletion was called for and did not take place. -/
  | kept (n : UInt64) (result : Except Error Bool) (hnumber : group.numberOf? name = some n)
      (hresult : result ≠ .ok true) (h : s.Unmoved s') : RemovalCourse group name s s' result
  /-- The index was deleted, and a rebuild was handed over.  The alias was not on the index. -/
  | deleted (n : UInt64) (hnumber : group.numberOf? name = some n)
      (hindex : s.engine.hasIndex (group.nameOf n) = true)
      (hfree : (s.engine.targetsOf group.aliasName).min? ≠ some (group.nameOf n))
      (hgone : (s.engine.without (group.nameOf n)).Same s'.engine)
      (hdeeds : s'.deeds = s.deeds ++
        [.call (.deleteIndex (group.nameOf n)), .submit (.rebuildRanges group)]) :
    RemovalCourse group name s s' (.ok true)

/-- Deleting a segment that a name was read as. -/
theorem disturbed_delete {segment : Segment} (hview : view.group = group)
    (hparse : group.parse name = .ok segment) (hquiet : s.Quiet s₁) :
    (view.delete segment).Upholds disturbed (fun _ _ => True) (fun result s' =>
      (result.2 ≠ .ok true ∧ RemovalCourse group name s s' result.2) ∨
        ∃ n, result = (view.erase n, .ok true) ∧ segment = .ordinary group.fullName n ∧
          s.engine.hasIndex (group.nameOf n) = true ∧
          (s.engine.without (group.nameOf n)).Same s'.engine ∧
          s'.deeds = s.deeds ++ [.call (.deleteIndex (group.nameOf n))]) s₁ := by
  subst hview
  unfold GroupView.delete
  cases hmember : view.requireMember segment with
  | error cause => exact Or.inl ⟨nofun, .refused cause segment hparse hquiet⟩
  | ok n =>
    obtain rfl := GroupView.requireMember_eq_ok_iff.mp hmember
    have hnumber : view.group.numberOf? name = some n := by
      rw [IndexGroup.numberOf?, hparse]
      rfl
    refine upholds_ask.mpr ⟨trivial, fun reply e₂ h₂ => ?_⟩
    rcases disturbed_deleteIndex h₂ with ⟨hsame₂, rfl | ⟨cause, rfl⟩⟩ | ⟨rfl, hindex, hgone⟩
    · exact Or.inl ⟨nofun, .kept n _ hnumber nofun (hquiet.unmoved.trans (.next hsame₂))⟩
    · exact Or.inl ⟨nofun, .kept n _ hnumber nofun (hquiet.unmoved.trans (.next hsame₂))⟩
    · refine Or.inr ⟨n, rfl, rfl, (hquiet.same.hasIndex _).symm.trans hindex,
        (hquiet.same.without _).trans hgone, ?_⟩
      rw [← hquiet.deeds]
      exact Scene.deeds_next_of_isDeed rfl _ _ _

/-- Removing a segment that a name was read as. -/
theorem disturbed_removeSegment_of_parse {segment : Segment} (hview : view.group = group)
    (hparse : group.parse name = .ok segment) (hquiet : s.Quiet s₁) :
    (view.removeSegment segment).Upholds disturbed (fun _ _ => True) (fun result s' =>
      RemovalCourse group name s s' result.2) s₁ := by
  subst hview
  unfold GroupView.removeSegment
  refine upholds_ask.mpr ⟨trivial, fun reply e₂ h₂ => ?_⟩
  obtain ⟨hsame₂, hreply⟩ := disturbed_aliasTarget h₂
  have hquiet₂ : s.Quiet (s₁.next (.call (.aliasTarget view.group.aliasName)) reply e₂) :=
    hquiet.trans (.next rfl hsame₂)
  rw [hquiet.same.targetsOf] at hreply
  obtain ⟨cause, rfl⟩ | rfl := hreply.symm
  · exact .refused _ segment hparse hquiet₂
  by_cases htarget : (s.engine.targetsOf view.group.aliasName).min? = some segment.name
  · simp only [htarget, if_true, upholds_pure]
    rw [htarget] at hquiet₂
    exact .refused _ segment hparse hquiet₂
  simp only [htarget]
  refine upholds_bind.mpr ((disturbed_delete rfl hparse hquiet₂).imp fun result s₃ h₃ => ?_)
  rcases h₃ with ⟨hanswer, hcourse⟩ | ⟨n, rfl, rfl, hindex, hgone, hdeeds⟩
  · rcases result with ⟨shrunk, cause | answer⟩
    · exact hcourse
    cases answer with
    | false => exact hcourse
    | true => exact absurd rfl hanswer
  · have hnumber : view.group.numberOf? name = some n := by
      rw [IndexGroup.numberOf?, hparse]
      rfl
    refine upholds_bind.mpr ((disturbed_offerRebuild rfl s₃).imp fun _ s₄ h₄ => ?_)
    refine .deleted n hnumber hindex htarget (h₄.1 ▸ hgone) ?_
    rw [h₄.2, hdeeds, List.append_assoc]
    rfl

/-- **How a removal goes**, on every engine and whichever calls fail. -/
theorem disturbed_removeSegment (group : IndexGroup) (name : String) (s : Scene) :
    (group.removeSegment name).Upholds disturbed (fun _ _ => True) (fun result s' =>
      RemovalCourse group name s s' result) s := by
  unfold IndexGroup.removeSegment
  cases hparse : group.parse name with
  | error cause => exact .unread cause hparse rfl
  | ok segment =>
    have hview := (upholds_disturbed_view group s).permit fun _ _ _ => trivial
    refine upholds_bind.mpr (hview.imp fun result s₁ h => ?_)
    obtain ⟨hquiet, rfl | ⟨cause, rfl⟩⟩ := h
    · exact upholds_bind.mpr
        (disturbed_removeSegment_of_parse (s.engine.viewOf_group group) hparse hquiet)
    · exact .refused _ segment hparse hquiet

/-- **Which index a removal deletes**, on every engine and whichever calls fail. -/
theorem upholds_deletion (group : IndexGroup) (name : String) (s : Scene) :
    (group.removeSegment name).Upholds disturbed (fun _ _ => True) (fun result s' =>
      DeletionEnd group name s s' result) s := by
  refine (disturbed_removeSegment group name s).imp fun result s' h => ?_
  cases h with
  | unread cause _ heq => exact .kept _ nofun (heq ▸ .refl _)
  | refused cause _ _ hquiet => exact .kept _ nofun hquiet.same
  | kept n _ _ hresult hunmoved => exact .kept _ hresult hunmoved.same
  | deleted n hnumber hindex hfree hgone => exact .deleted n hnumber hindex hfree hgone.indices

/-! ## When nothing comes in the way -/

/-- An index of the group is deleted if it exists. -/
theorem answered_delete {n : UInt64} :
    (view.delete (view.segment n)).Upholds answered (fun _ _ => True) (fun result _ =>
      result.2 = .ok (s.engine.hasIndex (view.group.nameOf n))) s := by
  unfold GroupView.delete
  have hmember : view.requireMember (view.segment n) = .ok n :=
    GroupView.requireMember_eq_ok_iff.mpr rfl
  simp only [hmember]
  refine upholds_ask.mpr ⟨trivial, fun reply e₁ h₁ => ?_⟩
  obtain rfl := answered_deleteIndex h₁
  have hname : (view.segment n).name = view.group.nameOf n := rfl
  simp only [hname]
  cases s.engine.hasIndex (view.group.nameOf n) with
  | false => rfl
  | true => rfl

/-- **When a removal succeeds.**  If every call is answered, the index with the number that the name
stands for is deleted, unless the alias is on it or it does not exist. -/
theorem answered_removeSegment {n : UInt64} (hnumber : group.numberOf? name = some n) :
    (group.removeSegment name).Upholds answered (fun _ _ => True) (fun result _ =>
      result = if (s.engine.targetsOf group.aliasName).min? = some (group.nameOf n) then
          .error (.writeTarget (group.nameOf n))
        else .ok (s.engine.hasIndex (group.nameOf n))) s := by
  unfold IndexGroup.removeSegment
  simp only [IndexGroup.parse_of_numberOf? hnumber]
  refine upholds_bind.mpr ((answered_view group s).imp fun result s₁ h => ?_)
  obtain ⟨⟨hsame₁, -⟩, rfl⟩ := h
  have hgroup := s.engine.viewOf_group group
  generalize s.engine.viewOf group = view at hgroup
  subst hgroup
  refine upholds_bind.mpr (upholds_ask.mpr ⟨trivial, fun reply e₂ h₂ => ?_⟩)
  obtain ⟨hsame₂, rfl⟩ := answered_read rfl h₂
  simp only [Engine.respond, hsame₁.targetsOf]
  have hname : (Segment.ordinary view.group.fullName n).name = view.group.nameOf n := rfl
  by_cases htarget : (s.engine.targetsOf view.group.aliasName).min? = some (view.group.nameOf n)
  · simp only [hname, htarget, if_true, upholds_pure]
  simp only [hname, htarget, if_false]
  have hindex : e₂.hasIndex (view.group.nameOf n) = s.engine.hasIndex (view.group.nameOf n) := by
    rw [hsame₂.hasIndex, hsame₁.hasIndex]
  refine upholds_bind.mpr ((answered_delete (n := n)).imp fun result s₃ h₃ => ?_)
  obtain ⟨shrunk, answer⟩ := result
  obtain rfl : answer = .ok (e₂.hasIndex (view.group.nameOf n)) := h₃
  rw [hindex]
  cases s.engine.hasIndex (view.group.nameOf n) with
  | false => rfl
  | true => exact upholds_bind.mpr (((upholds_offerRebuild (fun _ => trivial)
      (fun _ _ => trivial)).restrict fun _ _ _ _ => disturbed_of_answered).imp fun _ _ _ => rfl)

/-- While the group's alias is bound to nothing, an index is removed if it exists. -/
theorem removeSegment_of_unbound {n : UInt64} (hnumber : group.numberOf? name = some n)
    (hfree : s.engine.targetsOf group.aliasName = ∅) (havailable : s.engine.unavailable = false)
    (desk : Scene → Job → Except Error Unit) :
    ((group.removeSegment name).run (Scene.handler desk) s).2 =
      .ok (s.engine.hasIndex (group.nameOf n)) := by
  have hrun := (answered_removeSegment hnumber).run_answered havailable desk
  rw [hfree, Std.ExtTreeSet.min?_empty, if_neg nofun] at hrun
  exact hrun

/-! ## Keeping to the name -/

/-- A removal kept to the name that it was given: it deleted the index with that name or none, and
reported success only if that index was there and is gone. -/
structure Scene.KeepsTo (name : String) (s s' : Scene) (result : Except Error Bool) : Prop where
  /-- The indices are those that there were, or those without the one that was named. -/
  indices : (∀ other, s'.engine.hasIndex other = s.engine.hasIndex other) ∨
    (s.engine.hasIndex name = true ∧ ∀ other, s'.engine.hasIndex other = true ↔
      other ≠ name ∧ s.engine.hasIndex other = true)
  /-- Success means that the index was there and is gone. -/
  gone : result = .ok true → s.engine.hasIndex name = true ∧ s'.engine.hasIndex name = false

theorem Scene.KeepsTo.of_same (hresult : result ≠ .ok true) (h : s.engine.Same s'.engine) :
    s.KeepsTo name s' result :=
  ⟨Or.inl h.hasIndex, fun hok => absurd hok hresult⟩

/-- What is left after the index `n` of the group was deleted. -/
theorem hasIndex_of_deleted {n : UInt64}
    (h : s'.engine.indices = s.engine.indices.erase (group.nameOf n)) (other : String) :
    s'.engine.hasIndex other = true ↔ other ≠ group.nameOf n ∧ s.engine.hasIndex other = true := by
  have herased := @Engine.hasIndex_erase s.engine (group.nameOf n) other s.engine.aliases
  rw [Engine.hasIndex, h]
  exact herased

/-- A deletion keeps to the group's own name of the index. -/
theorem Scene.KeepsTo.of_deleted {n : UInt64}
    (hindex : s.engine.hasIndex (group.nameOf n) = true)
    (h : s'.engine.indices = s.engine.indices.erase (group.nameOf n)) :
    s.KeepsTo (group.nameOf n) s' (.ok true) := by
  have hleft := hasIndex_of_deleted h
  have hgone : s'.engine.hasIndex (group.nameOf n) = false := by
    rw [Bool.eq_false_iff]
    intro hstill
    exact ((hleft _).mp hstill).1 rfl
  exact ⟨Or.inr ⟨hindex, hleft⟩, fun _ => ⟨hindex, hgone⟩⟩

/-- If a deletion keeps to a name, that name is the group's own name of the index. -/
theorem Scene.KeepsTo.eq_of_deleted {n : UInt64} (hkeeps : s.KeepsTo name s' result)
    (hindex : s.engine.hasIndex (group.nameOf n) = true)
    (h : s'.engine.indices = s.engine.indices.erase (group.nameOf n)) : name = group.nameOf n := by
  have hgone : ¬ s'.engine.hasIndex (group.nameOf n) = true :=
    fun hstill => ((hasIndex_of_deleted h _).mp hstill).1 rfl
  rcases hkeeps.indices with hsame | ⟨-, hleft⟩
  · rw [hsame] at hgone
    exact absurd hindex hgone
  · exact Decidable.byContradiction fun hne => hgone ((hleft _).mpr ⟨Ne.symm hne, hindex⟩)

/-- **A removal keeps to the name that it was given exactly if it does not succeed, or the name is
one that the group itself writes.** -/
theorem Scene.keepsTo_iff
    (h : Leads disturbed (group.removeSegment name, s) (.done result, s')) :
    s.KeepsTo name s' result ↔ (result = .ok true → ∃ n, name = group.nameOf n) := by
  have hend : DeletionEnd group name s s' result := (upholds_deletion group name s).steps h
  cases hend with
  | kept _ hresult hsame =>
    exact ⟨fun _ hok => absurd hok hresult, fun _ => .of_same hresult hsame⟩
  | deleted n hnumber hindex hfree hindices =>
    constructor
    · intro hkeeps _
      exact ⟨n, hkeeps.eq_of_deleted hindex hindices⟩
    · intro hwritten
      obtain ⟨k, rfl⟩ := hwritten rfl
      -- the number that is read from a name of the group is the one it was written with
      obtain rfl : k = n := Option.some.inj ((group.numberOf?_nameOf k).symm.trans hnumber)
      exact .of_deleted hindex hindices

/-- What a removal does on an engine with two names for number 7. -/
theorem Scene.keepsTo_iff_of_own_name :
    let group : IndexGroup := ⟨"graylog", "internal"⟩
    let s : Scene := { engine := Engine.ofIndices ["graylog_internal_7", "graylog_internal_07"] }
    let after := (group.removeSegment "graylog_internal_7").run (handler fun _ _ => .ok ()) s
    after.2 = .ok true ∧ s.KeepsTo "graylog_internal_7" after.1 after.2 := by
  intro group s after
  have hleads : Leads disturbed (group.removeSegment "graylog_internal_7", s)
      (.done after.2, after.1) := leads_run_disturbed _ s _
  have hread : group.numberOf? "graylog_internal_7" = some 7 :=
    IndexGroup.numberOf?_eq_some_iff.mpr ⟨['7'], by decide, by decide, by decide⟩
  have hindex : s.engine.hasIndex (group.nameOf 7) = true := by decide +kernel
  have hok : after.2 = .ok true := hindex ▸ removeSegment_of_unbound hread rfl rfl _
  exact ⟨hok, (keepsTo_iff hleads).mpr fun _ => ⟨7, by decide +kernel⟩⟩

/-- Asked for an index whose name has a leading zero, a removal reports success, has deleted another
index, and the one that was named is still there. -/
theorem Scene.not_keepsTo_padded_name :
    let group : IndexGroup := ⟨"graylog", "internal"⟩
    let s : Scene := { engine := Engine.ofIndices ["graylog_internal_7", "graylog_internal_07"] }
    let after := (group.removeSegment "graylog_internal_07").run (handler fun _ _ => .ok ()) s
    after.2 = .ok true ∧ after.1.engine.hasIndex "graylog_internal_7" = false ∧
      after.1.engine.hasIndex "graylog_internal_07" = true ∧
      ¬ s.KeepsTo "graylog_internal_07" after.1 after.2 := by
  intro group s after
  have hread : group.numberOf? "graylog_internal_07" = some 7 :=
    IndexGroup.numberOf?_eq_some_iff.mpr ⟨['0', '7'], by decide, by decide, by decide⟩
  have hindex : s.engine.hasIndex (group.nameOf 7) = true := by decide +kernel
  have hok : after.2 = .ok true := hindex ▸ removeSegment_of_unbound hread rfl rfl _
  have hend : DeletionEnd group "graylog_internal_07" s after.1 after.2 :=
    ((upholds_deletion group "graylog_internal_07" s).restrict
      fun _ _ _ _ => disturbed_of_faultless).run rfl rfl _
  rw [hok] at hend ⊢
  cases hend with
  | kept _ hresult => exact absurd rfl hresult
  | deleted n hnumber hindex hfree hindices =>
    obtain rfl : n = 7 := Option.some.inj (hnumber.symm.trans hread)
    have hleft := hasIndex_of_deleted hindices
    have hother : group.nameOf 7 = "graylog_internal_7" := by decide +kernel
    rw [hother] at hleft
    have hgone : after.1.engine.hasIndex "graylog_internal_7" = false := by
      rw [Bool.eq_false_iff]
      exact fun hstill => ((hleft _).mp hstill).1 rfl
    have hstill : after.1.engine.hasIndex "graylog_internal_07" = true :=
      (hleft _).mpr ⟨by decide, by decide +kernel⟩
    refine ⟨rfl, hgone, hstill, fun hkeeps => ?_⟩
    have hnamed := (hkeeps.gone rfl).2
    rw [hstill] at hnamed
    cases hnamed

end Rollover
