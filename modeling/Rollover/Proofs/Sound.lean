import Rollover.Proofs.View

/-!
# Sound engines

An engine is *sound* if its aliases are as they should be: none has more than one target, every
target exists, and an index of a group is written to through that group's alias only.

Since an alias has a target or it has none, its first target is all of them (`min?_eq_some_iff`),
and an alias that is moved away from its first target is on the new index alone
(`Engine.movedTargets_of_size_le_one`).

After that comes how the two tables of an engine change: what is in them after an index was
inserted, after one was erased, and after an alias was set.  The engine at the end, with one index
and an alias on it, is sound.
-/

namespace Rollover

/-! ## Sets of names -/

section Sets

variable {targets : Std.ExtTreeSet String} {name other : String}

theorem mem_ofList_singleton : other ∈ Std.ExtTreeSet.ofList [name] ↔ other = name := by
  rw [Std.ExtTreeSet.mem_ofList, List.contains_iff_mem, List.mem_singleton]

theorem size_ofList_singleton (name : String) : (Std.ExtTreeSet.ofList [name]).size = 1 := by
  simp [Std.ExtTreeSet.ofList_singleton, Std.ExtTreeSet.size_insert]

theorem toList_ofList_singleton (name : String) :
    (Std.ExtTreeSet.ofList [name]).toList = [name] := by
  have hlength : (Std.ExtTreeSet.ofList [name]).toList.length = 1 := by
    rw [Std.ExtTreeSet.length_toList, size_ofList_singleton]
  obtain ⟨only, honly⟩ := List.length_eq_one_iff.mp hlength
  have hmem : only ∈ Std.ExtTreeSet.ofList [name] := by
    rw [← Std.ExtTreeSet.mem_toList, honly]
    exact List.mem_singleton_self only
  rw [honly, mem_ofList_singleton.mp hmem]

theorem eq_of_size_le_one (hsize : targets.size ≤ 1) (h : name ∈ targets) (h' : other ∈ targets) :
    name = other := by
  rw [← Std.ExtTreeSet.length_toList] at hsize
  rw [← Std.ExtTreeSet.mem_toList] at h h'
  match htargets : targets.toList, hsize with
  | [], _ => simp [htargets] at h
  | [only], _ =>
    rw [htargets, List.mem_singleton] at h h'
    exact h.trans h'.symm

/-- The first of at most one is that one. -/
theorem min?_eq_some_iff (hsize : targets.size ≤ 1) :
    targets.min? = some name ↔ name ∈ targets := by
  refine ⟨Std.ExtTreeSet.min?_mem, fun h => ?_⟩
  obtain ⟨first, hfirst⟩ := Option.isSome_iff_exists.mp (Std.ExtTreeSet.isSome_min?_of_mem h)
  rw [hfirst, eq_of_size_le_one hsize (Std.ExtTreeSet.min?_mem hfirst) h]

end Sets

/-! ## Sound engines -/

namespace Engine

/-- The aliases of an engine are as they should be. -/
structure Sound (e : Engine) : Prop where
  /-- No alias has more than one target. -/
  size_le_one : ∀ aliasName, (e.targetsOf aliasName).size ≤ 1
  /-- Every target is an index. -/
  hasIndex : ∀ aliasName target, target ∈ e.targetsOf aliasName → e.hasIndex target = true
  /-- An alias on an index of a group is that group's alias. -/
  own : ∀ aliasName target (group : IndexGroup) n, target ∈ e.targetsOf aliasName →
    group.numberOf? target = some n → aliasName = group.aliasName

/-- An alias has one target at most, and that exists. -/
def Neat (e : Engine) (aliasName : String) : Prop :=
  (e.targetsOf aliasName).size ≤ 1 ∧
    ∀ target, target ∈ e.targetsOf aliasName → e.hasIndex target = true

variable {e e' : Engine} {aliasName target : String}

theorem Same.sound (h : e.Same e') (hs : e.Sound) : e'.Sound := by
  constructor
  · intro aliasName
    rw [h.targetsOf]
    exact hs.size_le_one aliasName
  · intro aliasName target
    rw [h.targetsOf, h.hasIndex]
    exact hs.hasIndex aliasName target
  · intro aliasName target group n
    rw [h.targetsOf]
    exact hs.own aliasName target group n

/-- The number that an alias with at most one target writes to, if that target exists. -/
theorem writeNumber?_eq_some_iff_writesTo {group : IndexGroup} {n : UInt64}
    (hsize : (e.targetsOf group.aliasName).size ≤ 1)
    (hindex : ∀ target, target ∈ e.targetsOf group.aliasName → e.hasIndex target = true) :
    e.writeNumber? group = some n ↔ ∃ target, e.WritesTo group target n := by
  simp only [Engine.writeNumber?_eq_some_iff, min?_eq_some_iff hsize, Engine.WritesTo]
  constructor
  · rintro ⟨target, htarget, hnumber, -⟩
    exact ⟨target, htarget, hnumber⟩
  · rintro ⟨target, htarget, hnumber⟩
    exact ⟨target, htarget, hnumber, target, hindex target htarget, hnumber⟩

/-- The group's alias is on the index with the number that it is seen on. -/
theorem Canonical.writeNumber?_eq_some_iff {group : IndexGroup} {n : UInt64}
    (h : e.Canonical group) (hneat : e.Neat group.aliasName) :
    e.writeNumber? group = some n ↔ group.nameOf n ∈ e.targetsOf group.aliasName := by
  rw [writeNumber?_eq_some_iff_writesTo hneat.1 hneat.2]
  constructor
  · rintro ⟨target, hmem, hnumber⟩
    rw [← h target n (hneat.2 target hmem) hnumber]
    exact hmem
  · exact fun hmem => ⟨_, hmem, group.numberOf?_nameOf n⟩

theorem Sound.writeNumber?_eq_some_iff (hs : e.Sound) {group : IndexGroup} {n : UInt64} :
    e.writeNumber? group = some n ↔ ∃ target, e.WritesTo group target n :=
  writeNumber?_eq_some_iff_writesTo (hs.size_le_one _) (hs.hasIndex _)

/-- The number that a sound alias writes to is one number. -/
theorem Sound.writesTo_unique (hs : e.Sound) {group : IndexGroup} {m n : UInt64}
    {target other : String} (h : e.WritesTo group target m) (h' : e.WritesTo group other n) :
    target = other ∧ m = n := by
  have heq := eq_of_size_le_one (hs.size_le_one _) h.1 h'.1
  subst heq
  exact ⟨rfl, Option.some.inj (h.2.symm.trans h'.2)⟩

/-- What an alias is on after it has left its first target. -/
theorem mem_movedTargets_min? {add other : String} :
    other ∈ e.movedTargets aliasName add (e.targetsOf aliasName).min? ↔
      other = add ∨
        (other ∈ e.targetsOf aliasName ∧ (e.targetsOf aliasName).min? ≠ some other) := by
  unfold movedTargets
  cases hfirst : (e.targetsOf aliasName).min? with
  | none =>
    simp only [Std.ExtTreeSet.min?_eq_none_iff.mp hfirst, Std.ExtTreeSet.mem_insert,
      Std.LawfulEqOrd.compare_eq_iff_eq, Std.ExtTreeSet.not_mem_empty, false_and]
    exact or_congr eq_comm Iff.rfl
  | some first =>
    simp only [Std.ExtTreeSet.mem_insert, Std.ExtTreeSet.mem_erase,
      Std.LawfulEqOrd.compare_eq_iff_eq, ne_eq, Option.some.injEq]
    exact or_congr eq_comm and_comm

/-- An alias that drops what it is on is on the new index alone. -/
theorem movedTargets_of_size_le_one (hsize : (e.targetsOf aliasName).size ≤ 1) (add : String) :
    e.movedTargets aliasName add (e.targetsOf aliasName).min? = Std.ExtTreeSet.ofList [add] := by
  refine Std.ExtTreeSet.ext_mem fun name => ?_
  rw [mem_movedTargets_min?, mem_ofList_singleton]
  constructor
  · rintro (rfl | ⟨hmem, hfirst⟩)
    · rfl
    · exact absurd ((min?_eq_some_iff hsize).mpr hmem) hfirst
  · exact Or.inl

/-! ## Changes to the tables -/

theorem aliasState_insert (e : Engine) (aliasName other : String) (state : AliasState) :
    Engine.aliasState { e with aliases := e.aliases.insert aliasName state } other =
      if other = aliasName then state else e.aliasState other := by
  rw [Engine.aliasState, Engine.aliasState, Std.ExtTreeMap.getElem?_insert]
  by_cases h : other = aliasName
  · subst h
    simp
  · rw [if_neg h, if_neg (fun hc => h (Std.LawfulEqOrd.compare_eq_iff_eq.mp hc).symm)]

theorem aliasState_forget (e : Engine) (name other : String) :
    Engine.aliasState { e with
        indices := e.indices.erase name
        aliases := e.aliases.map fun _ state => state.forget name } other =
      (e.aliasState other).forget name := by
  rw [Engine.aliasState, Engine.aliasState, Std.ExtTreeMap.getElem?_map]
  cases e.aliases[other]? with
  | none =>
    show ({} : AliasState) = AliasState.forget {} name
    rw [AliasState.forget, if_neg Std.ExtTreeSet.not_mem_empty]
  | some state => rfl

theorem hasIndex_insert {name other : String} {state : IndexState} :
    Engine.hasIndex { e with indices := e.indices.insert name state } other = true ↔
      other = name ∨ e.hasIndex other = true := by
  rw [Engine.hasIndex, Std.ExtTreeMap.contains_insert, Bool.or_eq_true, beq_iff_eq,
    Std.LawfulEqOrd.compare_eq_iff_eq, Engine.hasIndex]
  exact or_congr eq_comm Iff.rfl

/-- An index that changes stays an index, and no other is added. -/
theorem hasIndex_update {name : String} {state : IndexState} (hindex : e.hasIndex name = true)
    (other : String) :
    Engine.hasIndex { e with indices := e.indices.insert name state } other = e.hasIndex other := by
  rw [Bool.eq_iff_iff, hasIndex_insert, or_iff_right_iff_imp]
  rintro rfl
  exact hindex

theorem hasIndex_erase {name other : String} {aliases : Std.ExtTreeMap String AliasState} :
    Engine.hasIndex { e with indices := e.indices.erase name, aliases := aliases } other = true ↔
      other ≠ name ∧ e.hasIndex other = true := by
  rw [Engine.hasIndex, Std.ExtTreeMap.contains_erase, Bool.and_eq_true, bne_iff_ne, ne_eq,
    Std.LawfulEqOrd.compare_eq_iff_eq, Engine.hasIndex]
  exact and_congr ⟨fun h h' => h h'.symm, fun h h' => h h'.symm⟩ Iff.rfl

/-! ## Engines with given indices -/

theorem getElem?_ofIndices (names : List String) (name : String) :
    (ofIndices names).indices[name]? = if name ∈ names then some ({} : IndexState) else none := by
  have hfold : ∀ e : Engine, (names.foldl (fun e name => e.insertIndex name {}) e).indices[name]? =
      if name ∈ names then some ({} : IndexState) else e.indices[name]? := by
    induction names with
    | nil => exact fun e => rfl
    | cons first names ih =>
      intro e
      rw [List.foldl_cons, ih, insertIndex, Std.ExtTreeMap.getElem?_insert]
      simp only [Std.LawfulEqOrd.compare_eq_iff_eq, List.mem_cons]
      by_cases hmem : name ∈ names
      · simp [hmem]
      · by_cases hfirst : first = name
        · simp [hfirst]
        · simp [hmem, hfirst, Ne.symm hfirst]
  rw [ofIndices, hfold]
  rfl

theorem hasIndex_ofIndices {names : List String} {name : String} :
    (ofIndices names).hasIndex name = true ↔ name ∈ names := by
  rw [hasIndex_iff, getElem?_ofIndices]
  by_cases h : name ∈ names
  · simp [h]
  · simp [h]

/-- Its indices are new. -/
theorem eq_of_getElem?_ofIndices {names : List String} {name : String} {state : IndexState}
    (h : (ofIndices names).indices[name]? = some state) : state = {} := by
  rw [getElem?_ofIndices] at h
  split at h
  · exact (Option.some.inj h).symm
  · cases h

/-! ## An engine in use -/

/-- An engine with one index of a group, and the group's alias on it. -/
def serving (group : IndexGroup) (n : UInt64) : Engine :=
  (ofIndices [group.nameOf n]).bindAlias group.aliasName (group.nameOf n)

theorem getElem?_serving (group : IndexGroup) (n : UInt64) (name : String) :
    (serving group n).indices[name]? =
      if group.nameOf n = name then some ({} : IndexState) else none := by
  show (ofIndices [group.nameOf n]).indices[name]? = _
  rw [getElem?_ofIndices]
  simp only [List.mem_singleton, eq_comm]

theorem hasIndex_serving (group : IndexGroup) (n : UInt64) (name : String) :
    (serving group n).hasIndex name = true ↔ name = group.nameOf n := by
  rw [hasIndex_iff, getElem?_serving]
  by_cases h : group.nameOf n = name
  · simp [h]
  · simp [h, Ne.symm h]

theorem aliasState_serving (group : IndexGroup) (n : UInt64) (aliasName : String) :
    (serving group n).aliasState aliasName =
      if aliasName = group.aliasName then
        { targets := Std.ExtTreeSet.ofList [group.nameOf n], history := [[group.nameOf n]] }
      else {} := by
  have hempty : ∀ other, (ofIndices [group.nameOf n]).aliasState other = {} := by
    intro other
    show (∅ : Std.ExtTreeMap String AliasState)[other]?.getD ({} : AliasState) = {}
    rw [Std.ExtTreeMap.getElem?_empty, Option.getD_none]
  rw [serving, bindAlias, aliasState_insert, hempty, hempty, AliasState.retarget,
    toList_ofList_singleton]
  rfl

theorem containsAlias_serving (group : IndexGroup) (n : UInt64) (name : String) :
    (serving group n).aliases.contains name = true ↔ name = group.aliasName := by
  show (Std.ExtTreeMap.insert ∅ group.aliasName _).contains name = true ↔ _
  rw [Std.ExtTreeMap.contains_insert, Std.ExtTreeMap.contains_empty, Bool.or_false, beq_iff_eq,
    Std.LawfulEqOrd.compare_eq_iff_eq]
  exact eq_comm

theorem targetsOf_serving (group : IndexGroup) (n : UInt64) (aliasName target : String) :
    target ∈ (serving group n).targetsOf aliasName ↔
      aliasName = group.aliasName ∧ target = group.nameOf n := by
  rw [targetsOf, aliasState_serving]
  by_cases h : aliasName = group.aliasName
  · rw [if_pos h, mem_ofList_singleton, and_iff_right h]
  · rw [if_neg h]
    exact ⟨fun hmem => absurd hmem Std.ExtTreeSet.not_mem_empty, fun hand => absurd hand.1 h⟩

/-- The name of its alias is no index's. -/
theorem hasIndex_aliasName_serving (group : IndexGroup) (n : UInt64) :
    (serving group n).hasIndex group.aliasName = false := by
  rw [Bool.eq_false_iff]
  intro hindex
  exact IndexGroup.nameOf_ne_aliasName group group n ((hasIndex_serving ..).mp hindex).symm

/-- The names of the group's indices are no alias's. -/
theorem containsAlias_nameOf_serving (group : IndexGroup) (m n : UInt64) :
    (serving group n).aliases.contains (group.nameOf m) = false := by
  rw [Bool.eq_false_iff]
  intro hclaimed
  exact IndexGroup.nameOf_ne_aliasName group group m ((containsAlias_serving ..).mp hclaimed)

/-- Its index was never flushed. -/
theorem not_full_serving (group : IndexGroup) (n : UInt64) (name : String) :
    ¬ (serving group n).Full name := by
  rintro ⟨state, hstate, hfull⟩
  rw [getElem?_serving] at hstate
  split at hstate
  · obtain rfl := Option.some.inj hstate
    exact hfull (by decide)
  · cases hstate

/-- The index that it has is the only one of the group. -/
theorem hasNumber_serving {group : IndexGroup} {m n : UInt64} :
    (serving group n).HasNumber group m ↔ m = n := by
  simp only [HasNumber, hasIndex_serving, exists_eq_left, IndexGroup.numberOf?_nameOf,
    Option.some.injEq]
  exact eq_comm

/-- Its index has the name that the group gives it. -/
theorem canonical_serving {group other : IndexGroup} {n m : UInt64} {name : String}
    (hindex : (serving group n).hasIndex name = true) (hnumber : other.numberOf? name = some m) :
    name = other.nameOf m := by
  obtain rfl := (hasIndex_serving ..).mp hindex
  obtain ⟨hfull, rfl⟩ := IndexGroup.numberOf?_unique hnumber (group.numberOf?_nameOf n)
  exact (IndexGroup.nameOf_congr hfull m).symm

theorem sound_serving (group : IndexGroup) (n : UInt64) : (serving group n).Sound := by
  constructor
  · intro aliasName
    rw [targetsOf, aliasState_serving]
    split
    · exact Nat.le_of_eq (size_ofList_singleton _)
    · exact Nat.zero_le 1
  · intro aliasName target h
    rw [hasIndex_serving]
    exact ((targetsOf_serving ..).mp h).2
  · intro aliasName target other m h hnumber
    obtain ⟨rfl, rfl⟩ := (targetsOf_serving ..).mp h
    have hfull := (IndexGroup.numberOf?_unique hnumber (group.numberOf?_nameOf n)).1
    exact (IndexGroup.aliasName_congr hfull).symm

end Engine

end Rollover
