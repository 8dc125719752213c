import Rollover.Proofs.Territory

/-!
# What a group holds

Seen from one group, an engine is a small thing: a state for each of the group's indices, by number,
and a binding of the group's alias (`Holding`).  An engine *shows* a holding if that is what it has
under the names that belong to the group (`Engine.Shows`), and engines that are alike for the group
show the same (`Engine.Shows.of_alike`).

This file says what the calls of an operation do to a holding.  The calls are answered, but between
any two of them others may be at work on the same engine; all that is asked of them is that they
leave alone what belongs to the group.  That is the environment `Environment.amid`.  The lemmas have
the same form throughout: if the engine shows a holding, then the reply is such and such, and
afterwards the engine shows the holding with this change.
-/

namespace Rollover

open Environment

/-- What an engine has of a group. -/
@[ext]
structure Holding where
  /-- The index with a number. -/
  index : UInt64 → Option IndexState
  /-- The group's alias. -/
  binding : AliasState

namespace Holding

/-- The holding with a new state of one index. -/
def insert (holding : Holding) (n : UInt64) (state : IndexState) : Holding :=
  { holding with index := fun m => if m = n then some state else holding.index m }

/-- The holding with the alias on one index alone. -/
def bindTo (holding : Holding) (name : String) : Holding :=
  { holding with binding := holding.binding.retarget (Std.ExtTreeSet.ofList [name]) }

@[simp] theorem binding_insert (holding : Holding) (n : UInt64) (state : IndexState) :
    (holding.insert n state).binding = holding.binding := rfl

@[simp] theorem index_bindTo (holding : Holding) (name : String) :
    (holding.bindTo name).index = holding.index := rfl

theorem index_insert (holding : Holding) (n : UInt64) (state : IndexState) (m : UInt64) :
    (holding.insert n state).index m = if m = n then some state else holding.index m := rfl

@[simp] theorem index_insert_self (holding : Holding) (n : UInt64) (state : IndexState) :
    (holding.insert n state).index n = some state :=
  if_pos rfl

theorem index_insert_of_ne (holding : Holding) {m n : UInt64} (state : IndexState) (h : m ≠ n) :
    (holding.insert n state).index m = holding.index m :=
  if_neg h

end Holding

namespace Engine

/-- The engine has a holding of a group, and nothing else under the group's names. -/
structure Shows (e : Engine) (group : IndexGroup) (holding : Holding) : Prop where
  /-- The indices have the names that the group gives them. -/
  index : ∀ name n, group.numberOf? name = some n →
    e.indices[name]? = if name = group.nameOf n then holding.index n else none
  /-- No index has the name of the alias. -/
  noCollision : e.indices[group.aliasName]? = none
  /-- The alias is as the holding says. -/
  binding : e.aliasState group.aliasName = holding.binding
  /-- No alias has the name of an index. -/
  unclaimed : ∀ n, e.aliases[group.nameOf n]? = none

namespace Shows

variable {e e' : Engine} {group : IndexGroup} {holding : Holding} {n : UInt64} {state : IndexState}

/-- What belongs to a group is all that it is shown. -/
theorem of_alike (h : e.Shows group holding) (halike : e.Alike group e') :
    e'.Shows group holding where
  index name n hnumber := by
    rw [halike.indices name (IndexGroup.owns_of_numberOf? hnumber), h.index name n hnumber]
  noCollision := by rw [halike.indices _ group.owns_aliasName, h.noCollision]
  binding := by rw [halike.aliasState, h.binding]
  unclaimed n := by rw [halike.aliases _ (group.owns_nameOf n), h.unclaimed]

theorem of_same (h : e.Shows group holding) (hsame : e.Same e') : e'.Shows group holding where
  index name n hnumber := by rw [hsame.indices, h.index name n hnumber]
  noCollision := by rw [hsame.indices, h.noCollision]
  binding := by rw [hsame.aliasState, h.binding]
  unclaimed n := by rw [hsame.aliases, h.unclaimed]

theorem getElem? (h : e.Shows group holding) (n : UInt64) :
    e.indices[group.nameOf n]? = holding.index n := by
  rw [h.index _ n (group.numberOf?_nameOf n), if_pos rfl]

theorem hasIndex_iff (h : e.Shows group holding) :
    e.hasIndex (group.nameOf n) = true ↔ (holding.index n).isSome = true := by
  rw [Engine.hasIndex_iff, h.getElem?, Option.isSome_iff_exists]

theorem hasIndex_aliasName (h : e.Shows group holding) : e.hasIndex group.aliasName = false := by
  rw [Bool.eq_false_iff, ne_eq, Engine.hasIndex_iff, h.noCollision]
  rintro ⟨state, hstate⟩
  cases hstate

theorem contains_nameOf (h : e.Shows group holding) (n : UInt64) :
    e.aliases.contains (group.nameOf n) = false := by
  rw [Std.ExtTreeMap.contains_eq_isSome_getElem?, h.unclaimed, Option.isSome_none]

/-- The group has the numbers of the indices that the holding has. -/
theorem hasNumber_iff (h : e.Shows group holding) :
    e.HasNumber group n ↔ (holding.index n).isSome = true := by
  constructor
  · rintro ⟨name, hindex, hnumber⟩
    obtain ⟨state, hstate⟩ := Engine.hasIndex_iff.mp hindex
    rw [h.index name n hnumber] at hstate
    split at hstate
    · rw [hstate, Option.isSome_some]
    · cases hstate
  · intro hsome
    exact ⟨group.nameOf n, h.hasIndex_iff.mpr hsome, group.numberOf?_nameOf n⟩

theorem targetsOf (h : e.Shows group holding) :
    e.targetsOf group.aliasName = holding.binding.targets := by
  rw [Engine.targetsOf, h.binding]

/-! ### Changes -/

theorem insert (h : e.Shows group holding)
    (hsame : Engine.Same { e with indices := e.indices.insert (group.nameOf n) state } e') :
    e'.Shows group (holding.insert n state) where
  index name m hnumber := by
    rw [hsame.indices, Std.ExtTreeMap.getElem?_insert, Holding.index_insert]
    by_cases hname : name = group.nameOf n
    · subst hname
      obtain rfl : n = m := Option.some.inj ((group.numberOf?_nameOf n).symm.trans hnumber)
      rw [if_pos (Std.LawfulEqOrd.compare_eq_iff_eq.mpr rfl), if_pos rfl, if_pos rfl]
    · rw [if_neg (mt Std.LawfulEqOrd.compare_eq_iff_eq.mp (Ne.symm hname)), h.index name m hnumber]
      by_cases hm : m = n
      · rw [hm, if_neg hname, if_neg hname]
      · rw [if_neg hm]
  noCollision := by
    rw [hsame.indices, Std.ExtTreeMap.getElem?_insert, if_neg, h.noCollision]
    rw [Std.LawfulEqOrd.compare_eq_iff_eq]
    exact IndexGroup.nameOf_ne_aliasName group group n
  binding := by
    rw [hsame.aliasState]
    exact h.binding
  unclaimed m := by
    rw [hsame.aliases]
    exact h.unclaimed m

theorem bindTo (h : e.Shows group holding) {name : String}
    (hsame : Engine.Same { e with
      aliases := e.aliases.insert group.aliasName
        (holding.binding.retarget (Std.ExtTreeSet.ofList [name])) } e') :
    e'.Shows group (holding.bindTo name) where
  index other m hnumber := by
    rw [hsame.indices]
    exact h.index other m hnumber
  noCollision := by
    rw [hsame.indices]
    exact h.noCollision
  binding := by
    rw [hsame.aliasState, aliasState_insert, if_pos rfl]
    rfl
  unclaimed m := by
    rw [hsame.aliases, Std.ExtTreeMap.getElem?_insert, if_neg, h.unclaimed]
    rw [Std.LawfulEqOrd.compare_eq_iff_eq]
    exact (IndexGroup.nameOf_ne_aliasName group group m).symm

end Shows
end Engine

/-- A view of a group shows the indices of a holding. -/
structure GroupView.Mirrors (view : GroupView) (group : IndexGroup) (holding : Holding) :
    Prop where
  group : view.group = group
  collision : view.collision = false
  mem_numbers_iff : ∀ n, n ∈ view.numbers ↔ (holding.index n).isSome = true

/-- The listing of an engine shows the indices of the holding. -/
theorem Engine.Shows.mirrors_ofListing {e : Engine} {group : IndexGroup} {holding : Holding}
    (h : e.Shows group holding) : (GroupView.ofListing group e.listing).Mirrors group holding where
  group := rfl
  collision := by
    rw [Bool.eq_false_iff, ne_eq, GroupView.ofListing, List.any_eq_true]
    rintro ⟨⟨name, stats⟩, hmem, hname⟩
    obtain rfl : name = group.aliasName := beq_iff_eq.mp hname
    have hindex := Engine.mem_listing_iff.mp ⟨stats, hmem⟩
    rw [h.hasIndex_aliasName] at hindex
    cases hindex
  mem_numbers_iff n := by
    rw [← Engine.viewOf_numbers, Engine.mem_viewOf_numbers, h.hasNumber_iff]

/-! ## Among others -/

/-- Every call reaches the engine, which is available and creates indices; but before it does,
others may have changed what does not belong to the group. -/
def Environment.amid (group : IndexGroup) : Environment :=
  fun e effect reply e' => ∃ met, e.Alike group met ∧ faultless met effect reply e'

namespace Engine.Shows

variable {e e' : Engine} {group : IndexGroup} {holding : Holding} {n : UInt64} {state : IndexState}

theorem amid_submit {job : Job} {reply : Except Error Unit} (h : e.Shows group holding)
    (hamid : amid group e (.submit job) reply e') : e'.Shows group holding := by
  obtain ⟨met, halike, hfaultless⟩ := hamid
  obtain rfl : e' = met := hfaultless.1
  exact h.of_alike halike

theorem amid_record {entry : Activity} {reply : Unit} (h : e.Shows group holding)
    (hamid : amid group e (.record entry) reply e') : e'.Shows group holding := by
  obtain ⟨met, halike, hfaultless⟩ := hamid
  obtain rfl : e' = met := hfaultless.1
  exact h.of_alike halike

/-- A call that asks for information is answered by an engine that shows the same holding. -/
theorem amid_read {request : EngineCall} {reply : request.Reply} (h : e.Shows group holding)
    (hread : request.isMutation = false) (hamid : amid group e (.call request) reply e') :
    e'.Shows group holding ∧
      ∃ met : Engine, met.Shows group holding ∧ reply = (met.respond request).2 := by
  obtain ⟨met, halike, hfaultless⟩ := hamid
  obtain ⟨hsame, hreply⟩ := answered_read hread (answered_of_faultless hfaultless)
  have hmet := h.of_alike halike
  exact ⟨hmet.of_same hsame, met, hmet, hreply⟩

/-- The alias is on the first target that the holding has. -/
theorem amid_aliasTarget {reply : (EngineCall.aliasTarget group.aliasName).Reply}
    (h : e.Shows group holding)
    (hamid : amid group e (.call (.aliasTarget group.aliasName)) reply e') :
    e'.Shows group holding ∧ reply = .ok holding.binding.targets.min? := by
  obtain ⟨hshows, met, hmet, rfl⟩ := h.amid_read rfl hamid
  exact ⟨hshows, by rw [Engine.respond, hmet.targetsOf]⟩

/-- The alias is bound if the holding has a target. -/
theorem amid_aliasExists {reply : (EngineCall.aliasExists group.aliasName).Reply}
    (h : e.Shows group holding)
    (hamid : amid group e (.call (.aliasExists group.aliasName)) reply e') :
    e'.Shows group holding ∧ reply = .ok !holding.binding.targets.isEmpty := by
  obtain ⟨hshows, met, hmet, rfl⟩ := h.amid_read rfl hamid
  exact ⟨hshows, by rw [Engine.respond, hmet.targetsOf]⟩

/-- An index is created, if there is none with the number. -/
theorem amid_createIndex {reply : (EngineCall.createIndex (group.nameOf n)).Reply}
    (h : e.Shows group holding) (hfree : holding.index n = none)
    (hamid : amid group e (.call (.createIndex (group.nameOf n))) reply e') :
    reply = .ok true ∧ e'.Shows group (holding.insert n {}) := by
  obtain ⟨met, halike, hfaultless⟩ := hamid
  have hmet := h.of_alike halike
  have hnone : met.hasIndex (group.nameOf n) = false := by
    rw [Bool.eq_false_iff, ne_eq, hmet.hasIndex_iff, hfree]
    exact nofun
  have hsteady : steady false met (.call (.createIndex (group.nameOf n))) reply e' := hfaultless
  rcases steady_createIndex hnone hsteady with
    ⟨-, -, hrefuses | hclaimed⟩ | ⟨rfl, -, hsame⟩
  · cases hrefuses
  · rw [hmet.contains_nameOf] at hclaimed
    cases hclaimed
  · exact ⟨rfl, hmet.insert hsame⟩

/-- The alias moves from what it is on to an index that exists. -/
theorem amid_moveAlias
    {reply : (EngineCall.moveAlias group.aliasName (group.nameOf n)
      holding.binding.targets.min?).Reply}
    (h : e.Shows group holding) (hindex : (holding.index n).isSome = true)
    (hsize : holding.binding.targets.size ≤ 1)
    (hamid : amid group e
      (.call (.moveAlias group.aliasName (group.nameOf n) holding.binding.targets.min?)) reply e') :
    reply = .ok () ∧ e'.Shows group (holding.bindTo (group.nameOf n)) := by
  obtain ⟨met, halike, hfaultless⟩ := hamid
  have hmet := h.of_alike halike
  obtain ⟨rfl, hsame⟩ := answered_moveAlias hmet.hasIndex_aliasName (hmet.hasIndex_iff.mpr hindex)
    (answered_of_faultless hfaultless)
  have hmoved := movedTargets_of_size_le_one (hmet.targetsOf ▸ hsize) (group.nameOf n)
  rw [hmet.targetsOf] at hmoved
  rw [hmoved, hmet.binding] at hsame
  exact ⟨rfl, hmet.bindTo hsame⟩

/-- An index is flushed, unless its flush counter is full. -/
theorem amid_flush {reply : (EngineCall.flush (group.nameOf n)).Reply}
    (h : e.Shows group holding) (hstate : holding.index n = some state)
    (hroom : state.flushes.toNat + 1 < UInt32.size)
    (hamid : amid group e (.call (.flush (group.nameOf n))) reply e') :
    reply = .ok .flushed ∧
      e'.Shows group (holding.insert n { state with flushes := state.flushes + 1 }) := by
  obtain ⟨met, halike, hfaultless⟩ := hamid
  have hmet := h.of_alike halike
  have hfound : met.indices[group.nameOf n]? = some state := (hmet.getElem? n).trans hstate
  rcases answered_flush hfound (answered_of_faultless hfaultless) with
    ⟨-, -, state', hstate', hfull⟩ | ⟨rfl, hsame⟩
  · obtain rfl := Option.some.inj (hfound.symm.trans hstate')
    exact absurd hroom hfull
  · exact ⟨rfl, hmet.insert hsame⟩

/-- An index stops accepting writes. -/
theorem amid_setReadOnly {reply : (EngineCall.setReadOnly (group.nameOf n)).Reply}
    (h : e.Shows group holding) (hstate : holding.index n = some state)
    (hamid : amid group e (.call (.setReadOnly (group.nameOf n))) reply e') :
    reply = .ok () ∧ e'.Shows group
      (holding.insert n { state with stats := { state.stats with readOnly := true } }) := by
  obtain ⟨met, halike, hfaultless⟩ := hamid
  have hmet := h.of_alike halike
  have hfound : met.indices[group.nameOf n]? = some state := (hmet.getElem? n).trans hstate
  obtain ⟨rfl, hsame⟩ := answered_setReadOnly hfound (answered_of_faultless hfaultless)
  exact ⟨rfl, hmet.insert hsame⟩

end Engine.Shows
end Rollover
