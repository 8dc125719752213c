import Rollover.Operation
import Rollover.Proofs.Names
import Rollover.Proofs.Scene

/-!
# What a view shows

An operation begins with a view of its group.  `Engine.viewOf` is that view as a function of what
the engine holds, and `upholds_view` says that taking a view yields it or fails, and changes
nothing either way.  So everything an operation knows can be said of the engine:

* the view holds the numbers of the group's indices (`mem_viewOf_numbers`);
* its target is the number of the first target of the alias, if that is an index of the group
  (`viewOf_target_eq_some_iff`);
* the next number is above all numbers, the latest is the highest of them (`lt_of_viewOf_next?`,
  `latest?_eq_some_iff`).
-/

namespace Rollover

namespace Engine

variable {e e' : Engine} {group : IndexGroup} {name : String} {m n : UInt64}

theorem mem_listing_iff : (∃ stats, (name, stats) ∈ e.listing) ↔ e.hasIndex name = true := by
  rw [hasIndex_iff]
  constructor
  · rintro ⟨stats, h⟩
    obtain ⟨⟨key, state⟩, hmem, heq⟩ := List.mem_map.mp h
    obtain ⟨rfl, -⟩ := Prod.mk.inj heq
    exact ⟨state, Std.ExtTreeMap.mem_toList_iff_getElem?_eq_some.mp hmem⟩
  · rintro ⟨state, h⟩
    exact ⟨state.stats, List.mem_map.mpr
      ⟨(name, state), Std.ExtTreeMap.mem_toList_iff_getElem?_eq_some.mpr h, rfl⟩⟩

/-- The group has an index with a number. -/
def HasNumber (e : Engine) (group : IndexGroup) (n : UInt64) : Prop :=
  ∃ name, e.hasIndex name = true ∧ group.numberOf? name = some n

/-- The indices of the group have the names that it gives them. -/
def Canonical (e : Engine) (group : IndexGroup) : Prop :=
  ∀ name n, e.hasIndex name = true → group.numberOf? name = some n → name = group.nameOf n

/-- The group's alias is on an index of the group. -/
def WritesTo (e : Engine) (group : IndexGroup) (target : String) (n : UInt64) : Prop :=
  target ∈ e.targetsOf group.aliasName ∧ group.numberOf? target = some n

/-- A number of the group stands for one name. -/
theorem Canonical.hasNumber_iff (h : e.Canonical group) :
    e.HasNumber group n ↔ e.hasIndex (group.nameOf n) = true := by
  constructor
  · rintro ⟨name, hindex, hnumber⟩
    rw [← h name n hindex hnumber]
    exact hindex
  · exact fun hindex => ⟨_, hindex, group.numberOf?_nameOf n⟩

theorem Same.hasNumber_iff (h : e.Same e') : e'.HasNumber group n ↔ e.HasNumber group n := by
  simp only [HasNumber, h.hasIndex]

theorem writesTo_congr (h : e'.aliases = e.aliases) :
    e'.WritesTo group name n ↔ e.WritesTo group name n := by
  simp only [WritesTo, targetsOf_congr h]

/-- Groups with one full name write to the same indices. -/
theorem WritesTo.congr_group {other : IndexGroup} (h : group.fullName = other.fullName)
    (hwrites : e.WritesTo group name n) : e.WritesTo other name n := by
  obtain ⟨htarget, hnumber⟩ := hwrites
  rw [IndexGroup.aliasName_congr h] at htarget
  rw [IndexGroup.numberOf?_congr h] at hnumber
  exact ⟨htarget, hnumber⟩

/-- The name of an index that has a higher number than all others is free. -/
theorem hasIndex_nameOf_of_above (habove : ∀ m, e.HasNumber group m → m < n) :
    e.hasIndex (group.nameOf n) = false := by
  rw [Bool.eq_false_iff]
  intro hindex
  have hlt := habove n ⟨_, hindex, group.numberOf?_nameOf n⟩
  exact UInt64.lt_irrefl n hlt

/-- New indices of a group do not take the name of its alias. -/
theorem hasIndex_aliasName_of_gained (hcollision : e.hasIndex group.aliasName = false)
    (hgained : ∀ name, e'.hasIndex name = true →
      (∃ n, name = group.nameOf n) ∨ e.hasIndex name = true) :
    e'.hasIndex group.aliasName = false := by
  rw [Bool.eq_false_iff]
  intro hindex
  rcases hgained _ hindex with ⟨n, hn⟩ | hold
  · exact IndexGroup.nameOf_ne_aliasName group group n hn.symm
  · rw [hcollision] at hold
    cases hold

/-- The view that an operation gets of a group. -/
def viewOf (e : Engine) (group : IndexGroup) : GroupView :=
  let view := GroupView.ofListing group e.listing
  if view.collision then view
  else { view with target := (e.targetsOf group.aliasName).min?.bind view.held? }

end Engine

attribute [ext] GroupView

namespace GroupView

variable {view : GroupView} {name : String} {m n : UInt64}

theorem held?_eq_some_iff :
    view.held? name = some n ↔ view.group.numberOf? name = some n ∧ n ∈ view.numbers := by
  unfold held?
  cases view.group.numberOf? name with
  | none => simp
  | some k =>
    by_cases hk : view.numbers.contains k = true
    · simp only [hk, if_true, Option.some.injEq]
      exact ⟨fun h => ⟨h, h ▸ hk⟩, fun h => h.1⟩
    · simp only [hk, if_false, Option.some.injEq, reduceCtorEq, false_iff]
      rintro ⟨rfl, h⟩
      exact hk h

/-- The latest number is the highest of the view. -/
theorem latest?_eq_some_iff :
    view.latest? = some n ↔ n ∈ view.numbers ∧ ∀ m ∈ view.numbers, m ≤ n := by
  simp only [latest?, Std.ExtTreeSet.max?_eq_some_iff_mem_and_forall,
    Std.LawfulOrderOrd.isLE_compare]

theorem latest?_eq_none_iff : view.latest? = none ↔ ∀ m, m ∉ view.numbers := by
  rw [latest?, Std.ExtTreeSet.max?_eq_none_iff]
  constructor
  · intro h m
    rw [h]
    exact Std.ExtTreeSet.not_mem_empty
  · intro h
    exact Std.ExtTreeSet.ext_mem fun m => ⟨fun hm => absurd hm (h m),
      fun hm => absurd hm Std.ExtTreeSet.not_mem_empty⟩

/-- The next number is above all numbers of the view. -/
theorem lt_of_next? (h : view.next? = some n) (hm : m ∈ view.numbers) : m < n := by
  unfold next? at h
  split at h
  · next hlatest => exact absurd hm (latest?_eq_none_iff.mp hlatest m)
  · next k hlatest =>
    split at h
    · next hk =>
      obtain rfl := Option.some.inj h
      have hle := (latest?_eq_some_iff.mp hlatest).2 m hm
      rw [UInt64.lt_iff_toNat_lt, UInt64.toNat_add]
      rw [UInt64.le_iff_toNat_le] at hle
      have hone : (1 : UInt64).toNat = 1 := rfl
      rw [hone, Nat.mod_eq_of_lt hk]
      omega
    · exact absurd h (by simp)

/-- A member's segment is the one with its number. -/
theorem requireMember_eq_ok_iff {segment : Segment} :
    view.requireMember segment = .ok n ↔ segment = view.segment n := by
  unfold requireMember IndexGroup.memberNumber? GroupView.segment
  cases segment with
  | ordinary base number =>
    by_cases hbase : base = view.group.fullName
    · simp [hbase]
    · simp [hbase]
  | writeAlias base => simp

@[simp] theorem group_insert (view : GroupView) (n : UInt64) : (view.insert n).group = view.group :=
  rfl

end GroupView

namespace Engine

variable {e e' : Engine} {group : IndexGroup} {name : String} {m n : UInt64}

@[simp] theorem viewOf_group (e : Engine) (group : IndexGroup) :
    (e.viewOf group).group = group := by
  unfold viewOf
  dsimp only
  split <;> rfl

theorem viewOf_numbers (e : Engine) (group : IndexGroup) :
    (e.viewOf group).numbers = (GroupView.ofListing group e.listing).numbers := by
  unfold viewOf
  dsimp only
  split <;> rfl

theorem mem_viewOf_numbers : n ∈ (e.viewOf group).numbers ↔ e.HasNumber group n := by
  rw [viewOf_numbers, GroupView.ofListing, Std.ExtTreeSet.mem_ofList, List.contains_iff_mem,
    List.mem_filterMap]
  constructor
  · rintro ⟨⟨name, stats⟩, hmem, hnumber⟩
    exact ⟨name, mem_listing_iff.mp ⟨stats, hmem⟩, hnumber⟩
  · rintro ⟨name, hindex, hnumber⟩
    obtain ⟨stats, hmem⟩ := mem_listing_iff.mpr hindex
    exact ⟨(name, stats), hmem, hnumber⟩

theorem viewOf_collision (e : Engine) (group : IndexGroup) :
    (e.viewOf group).collision = e.hasIndex group.aliasName := by
  have hview : (e.viewOf group).collision = (GroupView.ofListing group e.listing).collision := by
    unfold viewOf
    dsimp only
    split <;> rfl
  rw [hview, GroupView.ofListing, Bool.eq_iff_iff, List.any_eq_true, ← mem_listing_iff]
  constructor
  · rintro ⟨⟨name, stats⟩, hmem, hname⟩
    exact ⟨stats, by rwa [← beq_iff_eq.mp hname]⟩
  · rintro ⟨stats, hmem⟩
    exact ⟨_, hmem, by simp⟩

/-- The view is on an index when no index has the alias's name and the alias's first target is that
index. -/
theorem viewOf_target_eq_some_iff :
    (e.viewOf group).target = some n ↔ e.hasIndex group.aliasName = false ∧
      ∃ target, (e.targetsOf group.aliasName).min? = some target ∧
        group.numberOf? target = some n ∧ e.HasNumber group n := by
  rw [← viewOf_collision, ← mem_viewOf_numbers, viewOf_numbers]
  unfold viewOf
  dsimp only
  by_cases hcollision : (GroupView.ofListing group e.listing).collision = true
  · simp [hcollision, show (GroupView.ofListing group e.listing).target = none from rfl]
  · rw [if_neg hcollision, Option.bind_eq_some_iff]
    simp only [GroupView.held?_eq_some_iff, show (GroupView.ofListing group e.listing).group = group
      from rfl, Bool.not_eq_true _ ▸ hcollision, true_and]

/-- The number of the index of the group that the group's alias is on. -/
def writeNumber? (e : Engine) (group : IndexGroup) : Option UInt64 :=
  (e.targetsOf group.aliasName).min?.bind (e.viewOf group).held?

theorem writeNumber?_eq_some_iff : e.writeNumber? group = some n ↔
    ∃ target, (e.targetsOf group.aliasName).min? = some target ∧
      group.numberOf? target = some n ∧ e.HasNumber group n := by
  simp only [writeNumber?, Option.bind_eq_some_iff, GroupView.held?_eq_some_iff, viewOf_group,
    mem_viewOf_numbers]

theorem writeNumber?_congr {other : IndexGroup} (h : group.fullName = other.fullName) :
    e.writeNumber? group = e.writeNumber? other := by
  ext n
  simp only [writeNumber?_eq_some_iff, HasNumber, IndexGroup.aliasName_congr h,
    IndexGroup.numberOf?_congr h]

/-- The target that a view shows, if no index has the alias's name. -/
theorem viewOf_target (h : e.hasIndex group.aliasName = false) :
    (e.viewOf group).target = e.writeNumber? group := by
  ext n
  rw [viewOf_target_eq_some_iff, writeNumber?_eq_some_iff]
  exact and_iff_right h

/-- The latest number is the highest of the group. -/
theorem viewOf_latest?_eq_some_iff : (e.viewOf group).latest? = some n ↔
    e.HasNumber group n ∧ ∀ m, e.HasNumber group m → m ≤ n := by
  simp only [GroupView.latest?_eq_some_iff, mem_viewOf_numbers]

theorem viewOf_latest?_eq_none_iff :
    (e.viewOf group).latest? = none ↔ ∀ m, ¬ e.HasNumber group m := by
  simp only [GroupView.latest?_eq_none_iff, mem_viewOf_numbers]

/-- The next number is above all numbers of the group. -/
theorem lt_of_viewOf_next? (hnext : (e.viewOf group).next? = some n) (hm : e.HasNumber group m) :
    m < n :=
  GroupView.lt_of_next? hnext (mem_viewOf_numbers.mpr hm)

/-- A group without a latest number is not written to. -/
theorem writeNumber?_of_empty (hempty : (e.viewOf group).latest? = none) :
    e.writeNumber? group = none := by
  rw [Option.eq_none_iff_forall_ne_some]
  intro m hm
  obtain ⟨-, -, -, hnumber⟩ := writeNumber?_eq_some_iff.mp hm
  exact viewOf_latest?_eq_none_iff.mp hempty m hnumber

/-- Engines that hold the same show the same. -/
theorem Same.viewOf (h : e.Same e') (group : IndexGroup) : e'.viewOf group = e.viewOf group := by
  rw [Engine.viewOf, h.listing, h.targetsOf, Engine.viewOf]

end Engine

open Program

/-- Taking a view shows what the engine holds, or fails where calls can fail. -/
theorem upholds_view {env : Environment} {failing : Prop} {guard : Scene → Effect → Prop}
    (henv : ∀ (e : Engine) (request : EngineCall) (reply : request.Reply) (e' : Engine),
      request.isMutation = false → env e (.call request) reply e' →
        e.Same e' ∧ (reply = (e.respond request).2 ∨ (failing ∧ ∃ cause, reply = .error cause)))
    (hguard : ∀ s effect, effect.isRead = true → guard s effect) (group : IndexGroup) (s : Scene) :
    group.view.Upholds env guard (fun result s' => s.Quiet s' ∧
      (result = .ok (s.engine.viewOf group) ∨
        (failing ∧ ∃ cause, result = .error (.engineUnavailable cause)))) s := by
  unfold IndexGroup.view
  refine upholds_ask.mpr ⟨hguard _ _ rfl, fun reply e₁ h₁ => ?_⟩
  obtain ⟨hsame₁, hreply⟩ := henv _ _ _ _ rfl h₁
  have hquiet₁ : s.Quiet (s.next _ reply e₁) := Scene.Quiet.next rfl hsame₁
  obtain ⟨hfailing, cause, rfl⟩ | rfl := hreply.symm
  · exact ⟨hquiet₁, Or.inr ⟨hfailing, cause, rfl⟩⟩
  simp only [Engine.respond]
  by_cases hcollision : (GroupView.ofListing group s.engine.listing).collision = true
  · simp only [hcollision, if_true, upholds_pure]
    exact ⟨hquiet₁, Or.inl (by simp [Engine.viewOf, hcollision])⟩
  simp only [hcollision]
  refine upholds_ask.mpr ⟨hguard _ _ rfl, fun reply e₂ h₂ => ?_⟩
  obtain ⟨hsame₂, hreply⟩ := henv _ _ _ _ rfl h₂
  simp only [Engine.respond, Scene.engine_next, hsame₁.targetsOf] at hreply
  have hquiet₂ : s.Quiet ((s.next _ _ e₁).next _ reply e₂) :=
    hquiet₁.trans (Scene.Quiet.next rfl hsame₂)
  obtain ⟨hfailing, cause, rfl⟩ | rfl := hreply.symm
  · exact ⟨hquiet₂, Or.inr ⟨hfailing, cause, rfl⟩⟩
  cases hempty : (s.engine.targetsOf group.aliasName).isEmpty with
  | true =>
    rw [hempty] at hquiet₂
    refine ⟨hquiet₂, Or.inl ?_⟩
    rw [Engine.viewOf, if_neg hcollision, Std.ExtTreeSet.isEmpty_iff.mp hempty,
      Std.ExtTreeSet.min?_empty]
    rfl
  | false =>
    refine upholds_ask.mpr ⟨hguard _ _ rfl, fun reply e₃ h₃ => ?_⟩
    obtain ⟨hsame₃, hreply⟩ := henv _ _ _ _ rfl h₃
    simp only [Engine.respond, Scene.engine_next, hsame₂.targetsOf, hsame₁.targetsOf] at hreply
    have hquiet₃ : s.Quiet (((s.next _ _ e₁).next _ _ e₂).next _ reply e₃) :=
      hquiet₂.trans (Scene.Quiet.next rfl hsame₃)
    rw [hempty] at hquiet₃
    obtain ⟨hfailing, cause, rfl⟩ | rfl := hreply.symm
    · exact ⟨hquiet₃, Or.inr ⟨hfailing, cause, rfl⟩⟩
    · exact ⟨hquiet₃, Or.inl (by simp [Engine.viewOf, hcollision])⟩

/-- A view of a group is taken, if calls are answered, by effects that ask only. -/
theorem answered_view_of {guard : Scene → Effect → Prop}
    (hguard : ∀ s effect, effect.isRead = true → guard s effect) (group : IndexGroup) (s : Scene) :
    group.view.Upholds Environment.answered guard (fun result s' =>
      s.Quiet s' ∧ result = .ok (s.engine.viewOf group)) s := by
  have henv : ∀ (e : Engine) (request : EngineCall) (reply : request.Reply) (e' : Engine),
      request.isMutation = false → Environment.answered e (.call request) reply e' →
        e.Same e' ∧ (reply = (e.respond request).2 ∨
          (False ∧ ∃ cause, reply = .error cause)) := by
    intro e request reply e' hread h
    rw [false_and, or_false]
    exact Environment.answered_read hread h
  refine (upholds_view henv hguard group s).imp fun result s' h => ?_
  rw [false_and, or_false] at h
  exact h

theorem answered_view (group : IndexGroup) (s : Scene) :
    group.view.Upholds Environment.answered (fun _ _ => True) (fun result s' =>
      s.Quiet s' ∧ result = .ok (s.engine.viewOf group)) s :=
  answered_view_of (fun _ _ _ => trivial) group s

end Rollover
