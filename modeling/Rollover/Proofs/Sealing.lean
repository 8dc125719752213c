import Rollover.Proofs.Service

/-!
# Indices are sealed behind the alias

An index that was sealed refuses writes, so an alias must never be on one.  It is not enough that an
index is sealed when its alias has left it.  The alias could come back: a repair takes it to the
latest index of its group, whatever that is.

What rules this out is order.  In a *tidy* engine the sealed indices of a group all have lower
numbers than the one that the alias is on (`Engine.Tidy`).  Aliases go forward only, so this stays
true of the indices that are sealed already; and an index is sealed right after its alias has gone
on to a higher number, so it becomes true of that one (`Engine.Tidy.next`).

The same order makes sealing a thing that happens once.  An index is flushed right after its alias
has left it, for a higher number, and to leave it again the alias would have to go back
(`Scene.Evolves.not_flushed_before`).  Setting it read-only follows the flush and handing it over
follows that, each directly, so those happen once as well.
-/

namespace Rollover

namespace Engine

/-- There is such an index, and it refuses writes. -/
def ReadOnly (e : Engine) (name : String) : Prop :=
  ∃ state, e.indices[name]? = some state ∧ state.stats.readOnly = true

/-- Names and aliases are in order, and what is sealed lies behind the aliases. -/
structure Tidy (e : Engine) : Prop where
  /-- The indices of groups have the names that groups give them. -/
  canonical : ∀ (group : IndexGroup) name n, e.hasIndex name = true →
    group.numberOf? name = some n → name = group.nameOf n
  /-- No alias has more than one target. -/
  size_le_one : ∀ aliasName, (e.targetsOf aliasName).size ≤ 1
  /-- Every target is an index. -/
  hasIndex : ∀ aliasName target, target ∈ e.targetsOf aliasName → e.hasIndex target = true
  /-- An alias is on an index of its own group. -/
  own : ∀ aliasName target, target ∈ e.targetsOf aliasName →
    ∃ (group : IndexGroup) (n : UInt64), aliasName = group.aliasName ∧
      group.numberOf? target = some n
  /-- An index that refuses writes has a lower number than the one its group's alias is on. -/
  behind : ∀ (group : IndexGroup) name m, e.ReadOnly name → group.numberOf? name = some m →
    ∃ target n, e.WritesTo group target n ∧ m < n

variable {e e' : Engine} {past : List Moment}

theorem Tidy.sound (h : e.Tidy) : e.Sound := by
  refine ⟨h.size_le_one, h.hasIndex, fun aliasName target group n htarget hnumber => ?_⟩
  obtain ⟨other, m, rfl, hother⟩ := h.own aliasName target htarget
  exact IndexGroup.aliasName_congr (IndexGroup.numberOf?_unique hother hnumber).1

/-- How an effect can change one index. -/
inductive IndexChange (e : Engine) (effect : Effect) (name : String) : Option IndexState → Prop
  /-- It is as it was, or it is gone. -/
  | kept (state : Option IndexState) (h : ∀ s, state = some s → e.indices[name]? = some s) :
    IndexChange e effect name state
  /-- It is new, and has a name that a group gives. -/
  | created (group : IndexGroup) (n : UInt64) (h : name = group.nameOf n) :
    IndexChange e effect name (some {})
  /-- It was flushed. -/
  | flushed (state : IndexState) (flushes : UInt32) (h : e.indices[name]? = some state)
      (heffect : effect = .call (.flush name)) :
    IndexChange e effect name (some { state with flushes := flushes })
  /-- It was set read-only. -/
  | sealed (state : IndexState) (stats : IndexStats) (h : e.indices[name]? = some state)
      (heffect : effect = .call (.setReadOnly name)) :
    IndexChange e effect name (some { state with stats := stats })

theorem IndexChange.of_same (h : e.Same e') (effect : Effect) (name : String) :
    e.IndexChange effect name e'.indices[name]? :=
  .kept _ fun s hs => by rw [← hs, h.indices]

/-- An index that was inserted has changed in some way, and no other index has. -/
theorem IndexChange.of_insert {effect : Effect} {name other : String} {state : IndexState}
    (h : Engine.Same { e with indices := e.indices.insert name state } e')
    (hname : e.IndexChange effect name (some state)) :
    e.IndexChange effect other e'.indices[other]? := by
  rw [h.indices, Std.ExtTreeMap.getElem?_insert]
  by_cases heq : name = other
  · subst heq
    simpa using hname
  · simp only [Std.LawfulEqOrd.compare_eq_iff_eq, if_neg heq]
    exact .kept _ fun _ => id

/-- **What a warranted effect can do to an index.** -/
theorem indexChange {effect : Effect} {reply : effect.Reply}
    (hwarrants : Scene.Warrants ⟨e, past⟩ effect)
    (h : Environment.disturbed e effect reply e') (name : String) :
    e.IndexChange effect name e'.indices[name]? := by
  cases effect with
  | submit job => exact .of_same (h ▸ .refl e) _ _
  | record entry => exact .of_same (h ▸ .refl e) _ _
  | call request =>
    cases request with
    | listIndices | aliasExists | aliasTarget =>
      exact .of_same (Environment.disturbed_read rfl h).1 _ _
    | createIndex created =>
      obtain ⟨group, n, hname, -⟩ := hwarrants
      rcases Environment.disturbed_createIndex h with ⟨hsame, -⟩ | ⟨-, -, hsame⟩
      · exact .of_same hsame _ _
      · exact .of_insert hsame (.created group n hname)
    | deleteIndex deleted =>
      rcases Environment.disturbed_deleteIndex h with ⟨hsame, -⟩ | ⟨-, -, hsame⟩
      · exact .of_same hsame _ _
      · refine .kept _ fun s hs => ?_
        rw [hsame.indices, Std.ExtTreeMap.getElem?_erase] at hs
        split at hs
        · cases hs
        · exact hs
    | flush flushed =>
      rcases Environment.disturbed_flush h with ⟨hsame, -⟩ | ⟨-, state, hstate, hsame⟩
      · exact .of_same hsame _ _
      · exact .of_insert hsame (.flushed state _ hstate rfl)
    | setReadOnly frozen =>
      rcases Environment.disturbed_setReadOnly h with ⟨hsame, -⟩ | ⟨-, state, hstate, hsame⟩
      · exact .of_same hsame _ _
      · exact .of_insert hsame (.sealed state _ hstate rfl)
    | optimize name maxSegments => exact hwarrants.elim
    | moveAlias aliasName add remove =>
      rcases Environment.disturbed_moveAlias h with ⟨hsame, -⟩ | ⟨-, -, hsame⟩
      · exact .of_same hsame _ _
      · exact .kept _ fun s hs => by rw [← hs, hsame.indices]

/-- An engine in use is tidy. -/
theorem tidy_serving (group : IndexGroup) (n : UInt64) : (serving group n).Tidy := by
  have hs := sound_serving group n
  refine ⟨fun _ _ _ => canonical_serving, hs.size_le_one, hs.hasIndex,
    fun aliasName target htarget => ?_, fun other name m hreadOnly _ => ?_⟩
  · obtain ⟨rfl, rfl⟩ := (targetsOf_serving ..).mp htarget
    exact ⟨group, n, rfl, group.numberOf?_nameOf n⟩
  · obtain ⟨state, hstate, hreadOnly⟩ := hreadOnly
    rw [getElem?_serving] at hstate
    split at hstate
    · cases hstate
      cases hreadOnly
    · cases hstate

namespace Tidy

/-- An index keeps a canonical name, and a new one gets one. -/
theorem canonical_next {effect : Effect} (h : e.Tidy)
    (hchange : ∀ name, e.IndexChange effect name e'.indices[name]?) (group : IndexGroup)
    (name : String) (n : UInt64) (hindex : e'.hasIndex name = true)
    (hnumber : group.numberOf? name = some n) : name = group.nameOf n := by
  obtain ⟨state, hstate⟩ := hasIndex_iff.mp hindex
  have hcase := hchange name
  rw [hstate] at hcase
  cases hcase with
  | kept _ hkept => exact h.canonical group name n (hasIndex_iff.mpr ⟨_, hkept _ rfl⟩) hnumber
  | created other m hname =>
    subst hname
    obtain ⟨hfull, rfl⟩ := IndexGroup.numberOf?_unique hnumber (other.numberOf?_nameOf m)
    exact (IndexGroup.nameOf_congr hfull n).symm
  | flushed old _ hold => exact h.canonical group name n (hasIndex_iff.mpr ⟨_, hold⟩) hnumber
  | sealed old _ hold => exact h.canonical group name n (hasIndex_iff.mpr ⟨_, hold⟩) hnumber

/-- An index that refuses writes did so before, or it has just been sealed behind its alias. -/
theorem behind_next {effect : Effect} (h : e.Tidy) (hwarrants : Scene.Warrants ⟨e, past⟩ effect)
    (hdevelops : e.Develops e') (hchange : ∀ name, e.IndexChange effect name e'.indices[name]?)
    (group : IndexGroup) (name : String) (m : UInt64) (hreadOnly : e'.ReadOnly name)
    (hnumber : group.numberOf? name = some m) :
    ∃ target n, e'.WritesTo group target n ∧ m < n := by
  obtain ⟨state, hstate, hreadOnly⟩ := hreadOnly
  refine hdevelops.above ?_
  have hcase := hchange name
  rw [hstate] at hcase
  cases hcase with
  | kept _ hkept => exact h.behind group name m ⟨_, hkept _ rfl, hreadOnly⟩ hnumber
  | created => cases hreadOnly
  | flushed old _ hold => exact h.behind group name m ⟨_, hold, hreadOnly⟩ hnumber
  | sealed old _ hold heffect =>
    subst heffect
    obtain ⟨-, -, -, other, k, n, -, -, -, rfl, hlt, hwrites, -⟩ := hwarrants
    obtain ⟨hfull, rfl⟩ := IndexGroup.numberOf?_unique hnumber (other.numberOf?_nameOf k)
    exact ⟨other.nameOf n, n, hwrites.congr_group hfull.symm, hlt⟩

/-- **A warranted effect leaves a tidy engine tidy.** -/
theorem next {effect : Effect} {reply : effect.Reply} (h : e.Tidy)
    (hwarrants : Scene.Warrants ⟨e, past⟩ effect)
    (hhappens : Environment.disturbed e effect reply e') : e'.Tidy := by
  have hdevelops := h.sound.develops hwarrants hhappens
  have hchange := indexChange hwarrants hhappens
  have hs' := hdevelops.sound h.sound
  refine ⟨h.canonical_next hchange, hs'.size_le_one, hs'.hasIndex, fun aliasName target => ?_,
    h.behind_next hwarrants hdevelops hchange⟩
  intro htarget
  rcases hdevelops.targetsOf aliasName with heq | ⟨group, n, rfl, -, heq⟩
  · exact h.own aliasName target (heq ▸ htarget)
  · rw [heq, mem_ofList_singleton] at htarget
    exact ⟨group, n, rfl, htarget ▸ group.numberOf?_nameOf n⟩

end Tidy
end Engine

namespace Scene

variable {s s' : Scene} {name : String} {maxSegments : UInt32}

theorem Evolves.tidy (h : s.Evolves s') (ht : s.engine.Tidy) : s'.engine.Tidy := by
  induction h with
  | refl => exact ht
  | tail _ hchange ih =>
    cases hchange with
    | effect hwarrants hhappens => exact ih.next hwarrants hhappens
    | switch =>
      exact ⟨ih.canonical, ih.size_le_one, ih.hasIndex, ih.own, ih.behind⟩

end Scene

/-! ## Once only -/

/-- Whether an effect hands an index over to be merged. -/
def Effect.merges (name : String) : Effect → Bool
  | .submit (.optimize other _) => other == name
  | .submit (.rebuildRanges _) | .call _ | .record _ => false

/-- Whether an effect is a step of sealing an index. -/
def Effect.seals (name : String) (effect : Effect) : Bool :=
  effect = .call (.flush name) || effect = .call (.setReadOnly name) || effect.merges name

theorem Effect.merges_iff {name : String} {effect : Effect} :
    effect.merges name = true ↔ ∃ maxSegments, effect = .submit (.optimize name maxSegments) := by
  cases effect with
  | call | record => simp [merges]
  | submit job =>
    cases job with
    | rebuildRanges => simp [merges]
    | optimize other maxSegments => simp [merges]

theorem Effect.seals_iff {name : String} {effect : Effect} :
    effect.seals name = true ↔ effect = .call (.flush name) ∨ effect = .call (.setReadOnly name) ∨
      ∃ maxSegments, effect = .submit (.optimize name maxSegments) := by
  rw [seals, Bool.or_eq_true, Bool.or_eq_true, decide_eq_true_iff, decide_eq_true_iff, merges_iff,
    or_assoc]

/-- What does not occur before an occurrence of it occurs once. -/
theorem countP_le_one {p : Moment → Bool} {past : List Moment}
    (h : ∀ newer m older, past = newer ++ m :: older → p m = true → ∀ m' ∈ older, ¬ p m' = true) :
    past.countP p ≤ 1 := by
  induction past with
  | nil => exact Nat.zero_le 1
  | cons m past ih =>
    by_cases hm : p m = true
    · have hnone : past.countP p = 0 :=
        List.countP_eq_zero.mpr fun m' hm' => h [] m past rfl hm m' hm'
      exact Nat.le_of_eq (by rw [List.countP_cons_of_pos hm, hnone])
    · rw [List.countP_cons_of_neg hm]
      refine ih fun newer m' older hpast => h (m :: newer) m' older ?_
      rw [hpast, List.cons_append]

namespace Scene

variable {s s' : Scene} {name : String}

/-- An index that was flushed lies behind its alias from then on. -/
theorem Evolves.above_flushed (h : s.Evolves s') (hs : s.engine.Sound) (hpast : s.past = [])
    {group : IndexGroup} {m : UInt64} {moment : Moment} (hmem : moment ∈ s'.past)
    (heffect : moment.effect = .call (.flush (group.nameOf m))) :
    ∃ target n, s'.engine.WritesTo group target n ∧ m < n := by
  obtain ⟨newer, older, heq⟩ := List.append_of_mem hmem
  obtain ⟨hbefore, hwarrants, hafter⟩ := h.visited hpast heq
  rw [heffect] at hwarrants
  obtain ⟨other, k, n, -, -, -, hname, hlt, hwrites, -⟩ := hwarrants
  have hnumber := other.numberOf?_nameOf k
  rw [← hname] at hnumber
  obtain ⟨hfull, rfl⟩ := IndexGroup.numberOf?_unique (group.numberOf?_nameOf m) hnumber
  exact hafter.above (hbefore.sound hs) ⟨_, n, hwrites.congr_group hfull.symm, hlt⟩

/-- An index whose alias has just left it was not flushed before. -/
theorem Evolves.not_flushed_before (h : s.Evolves s') (hs : s.engine.Sound) (hpast : s.past = [])
    (hleft : HasLeft s'.engine s'.past name) :
    ∀ moment ∈ s'.past, moment.effect ≠ .call (.flush name) := by
  obtain ⟨group, m, n, target, before, older, rfl, -, -, hwrites, heq⟩ := hleft
  intro moment hmem heffect
  rw [heq] at hmem
  rcases List.mem_cons.mp hmem with rfl | hmem
  · cases heffect
  · -- before the alias left it, it would have been behind the alias already
    obtain ⟨hbefore, -, -⟩ := h.visited hpast (heq.trans (List.nil_append _).symm)
    obtain ⟨target', k, hwrites', hlt⟩ := hbefore.above_flushed hs hpast hmem heffect
    obtain ⟨-, rfl⟩ := (hbefore.sound hs).writesTo_unique hwrites hwrites'
    exact UInt64.lt_irrefl m hlt

/-- What was set read-only or handed over had been flushed before. -/
theorem Evolves.flushed_of_seals (h : s.Evolves s') (hpast : s.past = []) {moment : Moment}
    (hmem : moment ∈ s'.past) (hseals : moment.effect.seals name = true) :
    ∃ moment' ∈ s'.past, moment'.effect = .call (.flush name) := by
  obtain ⟨newer, older, heq⟩ := List.append_of_mem hmem
  obtain ⟨-, hwarrants, -⟩ := h.visited hpast heq
  rcases Effect.seals_iff.mp hseals with heffect | heffect | ⟨maxSegments, heffect⟩
  · exact ⟨moment, hmem, heffect⟩
  · rw [heffect] at hwarrants
    obtain ⟨e, older', rfl, -⟩ := hwarrants
    exact ⟨⟨e, .call (.flush name), .ok .flushed⟩, by rw [heq]; simp, rfl⟩
  · rw [heffect] at hwarrants
    obtain ⟨e, e', older', rfl, -⟩ := hwarrants
    exact ⟨⟨e, .call (.flush name), .ok .flushed⟩, by rw [heq]; simp, rfl⟩

/-- No step of sealing an index was taken before it was flushed. -/
theorem Evolves.not_sealed_before_flush (h : s.Evolves s') (hs : s.engine.Sound)
    (hpast : s.past = []) {newer older : List Moment} {flush : Moment}
    (heq : s'.past = newer ++ flush :: older) (hflush : flush.effect = .call (.flush name)) :
    ∀ moment ∈ older, ¬ moment.effect.seals name = true := by
  intro moment hmem hseals
  obtain ⟨hbefore, hwarrants, -⟩ := h.visited hpast heq
  rw [hflush] at hwarrants
  obtain ⟨moment', hmem', heffect⟩ := hbefore.flushed_of_seals hpast hmem hseals
  exact hbefore.not_flushed_before hs hpast hwarrants moment' hmem' heffect

theorem Evolves.count_flush (h : s.Evolves s') (hs : s.engine.Sound) (hpast : s.past = [])
    (name : String) : (s'.past.countP fun m => m.effect = .call (.flush name)) ≤ 1 := by
  refine countP_le_one fun newer m older heq hm m' hm' hsame => ?_
  refine h.not_sealed_before_flush hs hpast heq (of_decide_eq_true hm) m' hm' ?_
  exact Effect.seals_iff.mpr (Or.inl (of_decide_eq_true hsame))

theorem Evolves.count_setReadOnly (h : s.Evolves s') (hs : s.engine.Sound) (hpast : s.past = [])
    (name : String) : (s'.past.countP fun m => m.effect = .call (.setReadOnly name)) ≤ 1 := by
  refine countP_le_one fun newer m older heq hm m' hm' hsame => ?_
  obtain ⟨hbefore, hwarrants, -⟩ := h.visited hpast heq
  rw [of_decide_eq_true hm] at hwarrants
  obtain ⟨e, older', rfl, -⟩ := hwarrants
  have hsame' := of_decide_eq_true hsame
  rcases List.mem_cons.mp hm' with rfl | hm'
  · cases hsame'
  · refine hbefore.not_sealed_before_flush hs hpast (List.nil_append _).symm rfl m' hm' ?_
    exact Effect.seals_iff.mpr (Or.inr (Or.inl hsame'))

theorem Evolves.count_merges (h : s.Evolves s') (hs : s.engine.Sound) (hpast : s.past = [])
    (name : String) : (s'.past.countP fun m => m.effect.merges name) ≤ 1 := by
  refine countP_le_one fun newer m older heq hm m' hm' hsame => ?_
  obtain ⟨hbefore, hwarrants, -⟩ := h.visited hpast heq
  obtain ⟨maxSegments, hmerges⟩ := Effect.merges_iff.mp hm
  rw [hmerges] at hwarrants
  obtain ⟨e, e', older', rfl, -⟩ := hwarrants
  rcases List.mem_cons.mp hm' with rfl | hm'
  · cases hsame
  rcases List.mem_cons.mp hm' with rfl | hm'
  · cases hsame
  · refine hbefore.not_sealed_before_flush hs hpast (List.singleton_append).symm rfl m' hm' ?_
    exact Effect.seals_iff.mpr (Or.inr (Or.inr (Effect.merges_iff.mp hsame)))

/-- The alias of a group was on one of its indices, and is on a higher number now. -/
def LeftBehind (e : Engine) (past : List Moment) (name : String) : Prop :=
  ∃ (group : IndexGroup) (m n : UInt64), name = group.nameOf m ∧ m < n ∧
    e.WritesTo group (group.nameOf n) n ∧ name ∉ e.targetsOf group.aliasName ∧
      ∃ moment ∈ past, moment.engine.WritesTo group name m

/-- Steps of sealing are warranted by what the alias has just done. -/
theorem Warrants.hasLeft {effect : Effect} (h : s.Warrants effect)
    (hseals : effect.seals name = true) :
    ∃ newer older, s.past = newer ++ older ∧ HasLeft s.engine older name := by
  rcases Effect.seals_iff.mp hseals with rfl | rfl | ⟨maxSegments, rfl⟩
  · exact ⟨[], s.past, rfl, h⟩
  · obtain ⟨e, older, heq, hleft⟩ := h
    exact ⟨[_], older, heq, hleft⟩
  · obtain ⟨e, e', older, heq, hleft⟩ := h
    exact ⟨[_, _], older, heq, hleft⟩

/-- **The steps of sealing an index are taken behind its alias.** -/
theorem Evolves.leftBehind (h : s.Evolves s') (ht : s.engine.Tidy) (hpast : s.past = [])
    {newer older : List Moment} {moment : Moment} (heq : s'.past = newer ++ moment :: older)
    (hseals : moment.effect.seals name = true) : LeftBehind moment.engine older name := by
  obtain ⟨hbefore, hwarrants, -⟩ := h.visited hpast heq
  obtain ⟨later, earlier, hsplit, group, m, n, target, before, oldest, rfl, hlt, hwrites, hwrites',
    rfl⟩ := hwarrants.hasLeft hseals
  have holder : older = later ++ ⟨before, .call (.moveAlias group.aliasName (group.nameOf n)
    (some target)), .ok ()⟩ :: oldest := hsplit
  refine ⟨group, m, n, rfl, hlt, hwrites, fun hmem => ?_, ⟨before, _, _⟩,
    holder ▸ List.mem_append_right later List.mem_cons_self, ?_⟩
  · obtain ⟨-, rfl⟩ := (hbefore.sound ht.sound).writesTo_unique
      ⟨hmem, group.numberOf?_nameOf m⟩ hwrites
    exact UInt64.lt_irrefl m hlt
  · obtain ⟨hvisited, -, -⟩ := hbefore.visited hpast hsplit
    have htidy := hvisited.tidy ht
    have hindex := htidy.hasIndex _ _ hwrites'.1
    rw [← htidy.canonical group target m hindex hwrites'.2]
    exact hwrites'

end Scene

namespace Service

/-- What a run says about the sealing of indices. -/
structure SealsBehind (S : Service) : Prop where
  /-- The index that an alias is on accepts writes. -/
  target : ∀ aliasName target, target ∈ S.scene.engine.targetsOf aliasName →
    ¬ S.scene.engine.ReadOnly target
  /-- An index that refuses writes has a lower number than the one its group's alias is on. -/
  behind : ∀ (group : IndexGroup) name m, S.scene.engine.ReadOnly name →
    group.numberOf? name = some m → ∃ target n, S.scene.engine.WritesTo group target n ∧ m < n
  /-- Where an index is flushed, set read-only or handed over, its alias was on it and has left
  it. -/
  left : ∀ newer moment older name, S.scene.past = newer ++ moment :: older →
    moment.effect.seals name = true → Scene.LeftBehind moment.engine older name
  /-- Each of this is done once for an index at most. -/
  flush : ∀ name, (S.scene.past.countP fun m => m.effect = .call (.flush name)) ≤ 1
  setReadOnly : ∀ name, (S.scene.past.countP fun m => m.effect = .call (.setReadOnly name)) ≤ 1
  merges : ∀ name, (S.scene.past.countP fun m => m.effect.merges name) ≤ 1
  /-- An index is handed over right after it was flushed and set read-only. -/
  inTurn : ∀ newer moment older name, S.scene.past = newer ++ moment :: older →
    moment.effect.merges name = true → ∃ e e' oldest,
      older = ⟨e', .call (.setReadOnly name), .ok ()⟩ :: ⟨e, .call (.flush name), .ok .flushed⟩ ::
        oldest

/-- **The index that is written to is never sealed, and sealing happens once.** -/
theorem sealed_behind {maxSegments : UInt32} {e : Engine} {S : Service} (ht : e.Tidy)
    (h : Reaches maxSegments (idle e) S) : S.SealsBehind := by
  have hevolves : Scene.Evolves { engine := e } S.scene := h.evolves (regular_idle ht.sound)
  have htidy : S.scene.engine.Tidy := hevolves.tidy ht
  constructor
  · intro aliasName target htarget hreadOnly
    obtain ⟨group, n, rfl, hnumber⟩ := htidy.own aliasName target htarget
    obtain ⟨other, k, hwrites, hlt⟩ := htidy.behind group target n hreadOnly hnumber
    obtain ⟨-, rfl⟩ := htidy.sound.writesTo_unique ⟨htarget, hnumber⟩ hwrites
    exact UInt64.lt_irrefl n hlt
  · exact htidy.behind
  · intro newer moment older name heq hseals
    exact hevolves.leftBehind ht rfl heq hseals
  · exact hevolves.count_flush ht.sound rfl
  · exact hevolves.count_setReadOnly ht.sound rfl
  · exact hevolves.count_merges ht.sound rfl
  · intro newer moment older name heq hmerges
    obtain ⟨-, hwarrants, -⟩ := hevolves.visited rfl heq
    obtain ⟨maxSegments, heffect⟩ := Effect.merges_iff.mp hmerges
    rw [heffect] at hwarrants
    obtain ⟨e₁, e₂, oldest, holder, -⟩ := hwarrants
    exact ⟨e₁, e₂, oldest, holder⟩

/-- A rotation of a group in use seals what it leaves. -/
theorem sealed_behind_of_rotation :
    let group : IndexGroup := ⟨"graylog", "internal"⟩
    ((idle (Engine.serving group 0)).after 1 (fun _ _ => .ok ()) (.rotate group)).SealsBehind := by
  intro group
  exact sealed_behind (Engine.tidy_serving group 0) (performs_after _ rfl _ (.rotate group)).reaches

end Service
end Rollover
