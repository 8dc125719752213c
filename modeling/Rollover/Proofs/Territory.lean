import Rollover.Proofs.Sound

/-!
# What belongs to a group

All groups share one engine, with one table of indices and one table of aliases.  What belongs to a
group is a matter of names: the name of its alias, and all names that it reads as an index
(`IndexGroup.Owns`).  No name belongs to two groups with different full names
(`IndexGroup.Owns.fullName_eq`), however much the one looks like the other.

Two engines are *alike* for a group if they have the same under all names that belong to it
(`Engine.Alike`).  Such engines show the group the same view (`Engine.Alike.viewOf`).

An effect *stays in* a group's territory if it asks only, or changes something under a name that
belongs to the group (`Effect.StaysIn`).  Whatever comes of it, the engine is alike for all other
groups before and after (`Effect.StaysIn.alike`).
-/

namespace Rollover

open Environment

/-- A name belongs to a group if it is that of the group's alias, or is read as one of its indices.
-/
def IndexGroup.Owns (group : IndexGroup) (name : String) : Prop :=
  name = group.aliasName ∨ ∃ n, group.numberOf? name = some n

namespace IndexGroup

variable {group other : IndexGroup} {name : String}

theorem owns_aliasName (group : IndexGroup) : group.Owns group.aliasName := Or.inl rfl

theorem owns_of_numberOf? {n : UInt64} (h : group.numberOf? name = some n) : group.Owns name :=
  Or.inr ⟨n, h⟩

theorem owns_nameOf (group : IndexGroup) (n : UInt64) : group.Owns (group.nameOf n) :=
  owns_of_numberOf? (group.numberOf?_nameOf n)

/-- **A name belongs to groups of one full name at most.** -/
theorem Owns.fullName_eq (h : group.Owns name) (h' : other.Owns name) :
    group.fullName = other.fullName := by
  rcases h with rfl | ⟨m, hm⟩
  · rcases h' with heq | ⟨n, hn⟩
    · exact aliasName_inj.mp heq
    · rw [numberOf?_aliasName] at hn
      cases hn
  · rcases h' with rfl | ⟨n, hn⟩
    · rw [numberOf?_aliasName] at hm
      cases hm
    · exact (numberOf?_unique hm hn).1

end IndexGroup

namespace Engine

/-- The view of a group depends on which of the group's names are taken, and on what its alias is
on. -/
theorem viewOf_congr {e e' : Engine} {group : IndexGroup}
    (hindex : ∀ name, group.Owns name → e'.hasIndex name = e.hasIndex name)
    (htargets : e'.targetsOf group.aliasName = e.targetsOf group.aliasName) :
    e'.viewOf group = e.viewOf group := by
  have hnumber : ∀ n, e'.HasNumber group n ↔ e.HasNumber group n := by
    intro n
    refine exists_congr fun name => and_congr_left fun hnumber => ?_
    rw [hindex name (IndexGroup.owns_of_numberOf? hnumber)]
  ext1
  · rw [viewOf_group, viewOf_group]
  · refine Std.ExtTreeSet.ext_mem fun n => ?_
    rw [mem_viewOf_numbers, mem_viewOf_numbers, hnumber]
  · ext n
    simp only [viewOf_target_eq_some_iff, hindex _ group.owns_aliasName, htargets, hnumber]
  · rw [viewOf_collision, viewOf_collision, hindex _ group.owns_aliasName]

/-- Two engines have the same under the names that belong to a group, and are switched alike. -/
structure Alike (e : Engine) (group : IndexGroup) (e' : Engine) : Prop where
  indices : ∀ name, group.Owns name → e'.indices[name]? = e.indices[name]?
  aliases : ∀ name, group.Owns name → e'.aliases[name]? = e.aliases[name]?
  unavailable : e'.unavailable = e.unavailable
  refusesCreates : e'.refusesCreates = e.refusesCreates

namespace Alike

variable {e e' e'' : Engine} {group other : IndexGroup} {name : String} {n : UInt64}

protected theorem refl (e : Engine) (group : IndexGroup) : e.Alike group e :=
  ⟨fun _ _ => rfl, fun _ _ => rfl, rfl, rfl⟩

protected theorem trans (h : e.Alike group e') (h' : e'.Alike group e'') : e.Alike group e'' where
  indices name hname := (h'.indices name hname).trans (h.indices name hname)
  aliases name hname := (h'.aliases name hname).trans (h.aliases name hname)
  unavailable := h'.unavailable.trans h.unavailable
  refusesCreates := h'.refusesCreates.trans h.refusesCreates

/-- What was changed under one name makes no difference to a group that the name does not belong
to. -/
theorem of_change (hname : ¬ group.Owns name)
    (hindices : e'.indices = e.indices ∨ ∃ state, e'.indices = e.indices.insert name state)
    (haliases : e'.aliases = e.aliases ∨ ∃ state, e'.aliases = e.aliases.insert name state)
    (hswitches : e'.unavailable = e.unavailable ∧ e'.refusesCreates = e.refusesCreates) :
    e.Alike group e' := by
  have hne : ∀ other, group.Owns other → compare name other ≠ .eq := by
    intro other hother heq
    rw [Std.LawfulEqOrd.compare_eq_iff_eq.mp heq] at hname
    exact hname hother
  refine ⟨fun other hother => ?_, fun other hother => ?_, hswitches.1, hswitches.2⟩
  · rcases hindices with heq | ⟨state, heq⟩
    · rw [heq]
    · rw [heq, Std.ExtTreeMap.getElem?_insert, if_neg (hne other hother)]
  · rcases haliases with heq | ⟨state, heq⟩
    · rw [heq]
    · rw [heq, Std.ExtTreeMap.getElem?_insert, if_neg (hne other hother)]

/-! ### What a group sees -/

theorem hasIndex (h : e.Alike group e') (hname : group.Owns name) :
    e'.hasIndex name = e.hasIndex name := by
  rw [Bool.eq_iff_iff, hasIndex_iff, hasIndex_iff, h.indices name hname]

theorem aliasState (h : e.Alike group e') :
    e'.aliasState group.aliasName = e.aliasState group.aliasName := by
  rw [Engine.aliasState, h.aliases _ group.owns_aliasName, Engine.aliasState]

theorem targetsOf (h : e.Alike group e') :
    e'.targetsOf group.aliasName = e.targetsOf group.aliasName := by
  rw [Engine.targetsOf, h.aliasState, Engine.targetsOf]

/-- **Engines that are alike for a group show it the same view.** -/
theorem viewOf (h : e.Alike group e') : e'.viewOf group = e.viewOf group :=
  viewOf_congr (fun _ hname => h.hasIndex hname) h.targetsOf

end Alike
end Engine

/-! ## Staying in a territory -/

/-- A job is about a group if it reads the group's ranges again, or merges an index of it. -/
def Job.isOf (group : IndexGroup) : Job → Bool
  | .rebuildRanges other => other.fullName = group.fullName
  | .optimize index _ => (group.numberOf? index).isSome

@[simp] theorem Job.isOf_rebuildRanges (group : IndexGroup) :
    (Job.rebuildRanges group).isOf group = true := by
  simp [isOf]

@[simp] theorem Job.isOf_optimize (group : IndexGroup) (n : UInt64) (maxSegments : UInt32) :
    (Job.optimize (group.nameOf n) maxSegments).isOf group = true := by
  simp [isOf]

/-- A job is about groups of one full name at most. -/
theorem Job.fullName_eq {group other : IndexGroup} {job : Job} (h : job.isOf group = true)
    (h' : job.isOf other = true) : group.fullName = other.fullName := by
  cases job with
  | rebuildRanges third =>
    simp only [isOf, decide_eq_true_eq] at h h'
    rw [← h, ← h']
  | optimize index maxSegments =>
    obtain ⟨m, hm⟩ := Option.isSome_iff_exists.mp h
    obtain ⟨n, hn⟩ := Option.isSome_iff_exists.mp h'
    exact (IndexGroup.numberOf?_unique hm hn).1

/-- An effect asks only, or what it changes has a name that belongs to the group, or it hands over a
job about the group. -/
inductive Effect.StaysIn (group : IndexGroup) : Effect → Prop
  | ask (request : EngineCall) (h : request.isMutation = false) : StaysIn group (.call request)
  | createIndex (n : UInt64) : StaysIn group (.call (.createIndex (group.nameOf n)))
  | flush (n : UInt64) : StaysIn group (.call (.flush (group.nameOf n)))
  | setReadOnly (n : UInt64) : StaysIn group (.call (.setReadOnly (group.nameOf n)))
  | moveAlias (add : String) (remove : Option String) :
    StaysIn group (.call (.moveAlias group.aliasName add remove))
  | submit (job : Job) (h : job.isOf group = true) : StaysIn group (.submit job)
  | record (entry : Activity) : StaysIn group (.record entry)

/-- **An effect that stays in one group's territory leaves the others' as they are.** -/
theorem Effect.StaysIn.alike {group other : IndexGroup} {e e' : Engine} {effect : Effect}
    {reply : effect.Reply} (h : effect.StaysIn group) (hne : group.fullName ≠ other.fullName)
    (hdisturbed : disturbed e effect reply e') : e.Alike other e' := by
  have hswitches := disturbed_switches hdisturbed
  have hforeign : ∀ name, group.Owns name → ¬ other.Owns name := fun name hname hother =>
    hne (hname.fullName_eq hother)
  have hsame : e.Same e' → e.Alike other e' := fun hsame =>
    .of_change (hforeign _ group.owns_aliasName) (Or.inl hsame.indices) (Or.inl hsame.aliases)
      hswitches
  cases h with
  | ask request hread => exact hsame (disturbed_read hread hdisturbed).1
  | createIndex n =>
    rcases disturbed_createIndex hdisturbed with ⟨h, -⟩ | ⟨-, -, h⟩
    · exact hsame h
    · exact .of_change (hforeign _ (group.owns_nameOf n)) (Or.inr ⟨_, h.indices⟩)
        (Or.inl h.aliases) hswitches
  | flush n =>
    rcases disturbed_flush hdisturbed with ⟨h, -⟩ | ⟨-, state, -, h⟩
    · exact hsame h
    · exact .of_change (hforeign _ (group.owns_nameOf n)) (Or.inr ⟨_, h.indices⟩)
        (Or.inl h.aliases) hswitches
  | setReadOnly n =>
    rcases disturbed_setReadOnly hdisturbed with ⟨h, -⟩ | ⟨-, state, -, h⟩
    · exact hsame h
    · exact .of_change (hforeign _ (group.owns_nameOf n)) (Or.inr ⟨_, h.indices⟩)
        (Or.inl h.aliases) hswitches
  | moveAlias add remove =>
    rcases disturbed_moveAlias hdisturbed with ⟨h, -⟩ | ⟨-, -, h⟩
    · exact hsame h
    · exact .of_change (hforeign _ group.owns_aliasName) (Or.inl h.indices)
        (Or.inr ⟨_, h.aliases⟩) hswitches
  | submit job hjob =>
    obtain rfl : e' = e := hdisturbed
    exact .refl _ _
  | record entry =>
    obtain rfl : e' = e := hdisturbed
    exact .refl _ _

/-- An effect that stays in a group's territory creates indices of the group only. -/
theorem Effect.StaysIn.gained {group : IndexGroup} {e e' : Engine} {effect : Effect}
    {reply : effect.Reply} (h : effect.StaysIn group) (hdisturbed : disturbed e effect reply e')
    {name : String} (hindex : e'.hasIndex name = true) :
    (∃ n, name = group.nameOf n) ∨ e.hasIndex name = true := by
  have hsame : e.Same e' → (∃ n, name = group.nameOf n) ∨ e.hasIndex name = true := fun hsame =>
    Or.inr (hsame.hasIndex name ▸ hindex)
  cases h with
  | ask request hread => exact hsame (disturbed_read hread hdisturbed).1
  | createIndex n =>
    rcases disturbed_createIndex hdisturbed with ⟨h, -⟩ | ⟨-, -, h⟩
    · exact hsame h
    · rw [h.hasIndex, Engine.hasIndex_insert] at hindex
      exact hindex.imp_left fun hname => ⟨n, hname⟩
  | flush n =>
    rcases disturbed_flush hdisturbed with ⟨h, -⟩ | ⟨-, state, -, h⟩
    · exact hsame h
    · rw [h.hasIndex, Engine.hasIndex_insert] at hindex
      exact hindex.imp_left fun hname => ⟨n, hname⟩
  | setReadOnly n =>
    rcases disturbed_setReadOnly hdisturbed with ⟨h, -⟩ | ⟨-, state, -, h⟩
    · exact hsame h
    · rw [h.hasIndex, Engine.hasIndex_insert] at hindex
      exact hindex.imp_left fun hname => ⟨n, hname⟩
  | moveAlias add remove =>
    rcases disturbed_moveAlias hdisturbed with ⟨h, -⟩ | ⟨-, -, h⟩
    · exact hsame h
    · exact Or.inr (h.hasIndex name ▸ hindex)
  | submit job hjob =>
    obtain rfl : e' = e := hdisturbed
    exact Or.inr hindex
  | record entry =>
    obtain rfl : e' = e := hdisturbed
    exact Or.inr hindex

end Rollover
