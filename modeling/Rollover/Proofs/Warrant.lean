import Rollover.Proofs.Sound
import Rollover.Proofs.View

/-!
# Warranted effects

Operations keep an engine sound because they never do just anything.  `Scene.Warrants` lists what
may be done in a scene: an index is created above all others of its group, an alias moves away from
whatever it is on and only to a higher number, the index that an alias is on is not deleted, and an
index is sealed right after its alias has left it, one step after the other.  These conditions speak
of the scene alone, not of the operation that is under way.

`Engine.Sound.develops` says what a warranted effect can do to the aliases: each of them stays where
it is, or goes as a whole to an index of its group with a higher number, and no target is lost.
That much (`Engine.Develops`) keeps an engine sound.

A scene *evolves* by warranted effects, and by switching the engine off and on.  What is true of all
scenes on the way follows by induction, and since each of them is in the past of the next, so does
what is true of all pairs of them (`Scene.Evolves.visited`).
-/

namespace Rollover

/-! ## Warranted effects -/

namespace Scene

/-- An alias was on an index of its group, and has just moved on to a higher number. -/
def HasLeft (e : Engine) (past : List Moment) (name : String) : Prop :=
  ∃ (group : IndexGroup) (m n : UInt64) (target : String) (before : Engine) (older : List Moment),
    name = group.nameOf m ∧ m < n ∧ e.WritesTo group (group.nameOf n) n ∧
      before.WritesTo group target m ∧
      past = ⟨before, .call (.moveAlias group.aliasName (group.nameOf n) (some target)), .ok ()⟩ ::
        older

/-- What may be done in a scene. -/
def Warrants (s : Scene) : Effect → Prop
  | .call (.createIndex name) => ∃ (group : IndexGroup) (n : UInt64),
      name = group.nameOf n ∧ ∀ m, s.engine.HasNumber group m → m < n
  | .call (.deleteIndex name) => ∃ (group : IndexGroup) (n : UInt64),
      name = group.nameOf n ∧ name ∉ s.engine.targetsOf group.aliasName
  | .call (.moveAlias aliasName add remove) => ∃ (group : IndexGroup) (n : UInt64),
      aliasName = group.aliasName ∧ add = group.nameOf n ∧
        remove = (s.engine.targetsOf aliasName).min? ∧
        ∀ target m, s.engine.WritesTo group target m → m < n
  | .call (.flush name) => HasLeft s.engine s.past name
  | .call (.setReadOnly name) => ∃ (e : Engine) (older : List Moment),
      s.past = ⟨e, .call (.flush name), .ok .flushed⟩ :: older ∧ HasLeft s.engine older name
  | .submit (.optimize name _) => ∃ (e e' : Engine) (older : List Moment),
      s.past = ⟨e', .call (.setReadOnly name), .ok ()⟩ :: ⟨e, .call (.flush name), .ok .flushed⟩ ::
        older ∧ HasLeft s.engine older name
  | .call (.optimize _ _) => False
  | .call .listIndices | .call (.aliasExists _) | .call (.aliasTarget _)
  | .submit (.rebuildRanges _) | .record _ => True

theorem HasLeft.congr {e e' : Engine} {past : List Moment} {name : String}
    (h : HasLeft e past name) (haliases : e'.aliases = e.aliases) : HasLeft e' past name := by
  obtain ⟨group, m, n, target, before, older, hname, hlt, hwrites, hrest⟩ := h
  exact ⟨group, m, n, target, before, older, hname, hlt,
    (Engine.writesTo_congr haliases).mpr hwrites, hrest⟩

theorem warrants_of_isRead {s : Scene} {effect : Effect} (h : effect.isRead = true) :
    s.Warrants effect := by
  cases effect with
  | call request => cases request <;> trivial
  | submit | record => simp [Effect.isRead] at h

end Scene

namespace Engine

variable {e e' : Engine} {aliasName target : String}

/-- The alias went to the index `n` of its group, as a whole and from a lower number. -/
structure Forwarded (e e' : Engine) (group : IndexGroup) (n : UInt64) : Prop where
  aliasState : e'.aliasState group.aliasName =
    (e.aliasState group.aliasName).retarget (Std.ExtTreeSet.ofList [group.nameOf n])
  hasIndex : e'.hasIndex (group.nameOf n) = true
  lt : ∀ target m, e.WritesTo group target m → m < n

/-- What may become of the aliases at once: each stays where it is or goes forward, and no target is
lost. -/
structure Develops (e e' : Engine) : Prop where
  moves : ∀ aliasName, e'.aliasState aliasName = e.aliasState aliasName ∨
    ∃ (group : IndexGroup) (n : UInt64), aliasName = group.aliasName ∧ e.Forwarded e' group n
  keeps : ∀ aliasName target, target ∈ e.targetsOf aliasName → e'.hasIndex target = true

theorem Sound.develops_of_same (hs : e.Sound) (h : e.Same e') : e.Develops e' where
  moves aliasName := Or.inl (h.aliasState aliasName)
  keeps aliasName target htarget := by
    rw [h.hasIndex]
    exact hs.hasIndex aliasName target htarget

/-- An index that changes or is new makes no difference to the aliases. -/
theorem Sound.develops_of_insert (hs : e.Sound) {name : String} {state : IndexState}
    (h : Engine.Same { e with indices := e.indices.insert name state } e') : e.Develops e' where
  moves aliasName := Or.inl (h.aliasState aliasName)
  keeps aliasName target htarget := by
    rw [h.hasIndex, hasIndex_insert]
    exact Or.inr (hs.hasIndex aliasName target htarget)

/-- No alias is on an index that its group's alias is not on. -/
theorem Sound.notMem_targetsOf (hs : e.Sound) {group : IndexGroup} {n : UInt64}
    (hfree : group.nameOf n ∉ e.targetsOf group.aliasName) (aliasName : String) :
    group.nameOf n ∉ e.targetsOf aliasName := by
  intro hmem
  have hown := hs.own aliasName _ group n hmem (group.numberOf?_nameOf n)
  exact hfree (hown ▸ hmem)

/-- So no alias notices when it is deleted. -/
theorem Sound.aliasState_of_delete (hs : e.Sound) {group : IndexGroup} {n : UInt64}
    (hfree : group.nameOf n ∉ e.targetsOf group.aliasName)
    (h : Engine.Same { e with
      indices := e.indices.erase (group.nameOf n)
      aliases := e.aliases.map fun _ state => state.forget (group.nameOf n) } e')
    (aliasName : String) : e'.aliasState aliasName = e.aliasState aliasName := by
  rw [h.aliasState, aliasState_forget, AliasState.forget]
  exact if_neg (hs.notMem_targetsOf hfree aliasName)

theorem Sound.develops_of_delete (hs : e.Sound) {group : IndexGroup} {n : UInt64}
    (hfree : group.nameOf n ∉ e.targetsOf group.aliasName)
    (h : Engine.Same { e with
      indices := e.indices.erase (group.nameOf n)
      aliases := e.aliases.map fun _ state => state.forget (group.nameOf n) } e') :
    e.Develops e' where
  moves aliasName := Or.inl (hs.aliasState_of_delete hfree h aliasName)
  keeps aliasName target htarget := by
    rw [h.hasIndex, hasIndex_erase]
    exact ⟨fun heq => hs.notMem_targetsOf hfree aliasName (heq ▸ htarget),
      hs.hasIndex aliasName target htarget⟩

/-- An alias can move away from what it is on to a higher number. -/
theorem Sound.develops_of_move (hs : e.Sound) {group : IndexGroup} {n : UInt64}
    (hlt : ∀ target m, e.WritesTo group target m → m < n)
    (hindex : e.hasIndex (group.nameOf n) = true)
    (h : Engine.Same { e with
      aliases := e.aliases.insert group.aliasName
        ((e.aliasState group.aliasName).retarget (e.movedTargets group.aliasName (group.nameOf n)
          (e.targetsOf group.aliasName).min?)) } e') : e.Develops e' := by
  have hstate : ∀ aliasName, e'.aliasState aliasName = if aliasName = group.aliasName then
      (e.aliasState group.aliasName).retarget (Std.ExtTreeSet.ofList [group.nameOf n])
      else e.aliasState aliasName := by
    intro aliasName
    rw [h.aliasState, aliasState_insert, movedTargets_of_size_le_one (hs.size_le_one _)]
  have hindices : ∀ name, e'.hasIndex name = e.hasIndex name := h.hasIndex
  constructor
  · intro aliasName
    by_cases heq : aliasName = group.aliasName
    · refine Or.inr ⟨group, n, heq, ?_, ?_, hlt⟩
      · rw [hstate, if_pos rfl]
      · rw [hindices, hindex]
    · exact Or.inl (by rw [hstate, if_neg heq])
  · intro aliasName target htarget
    rw [hindices]
    exact hs.hasIndex aliasName target htarget

/-- **A warranted effect loses no target and moves aliases forward only.** -/
theorem Sound.develops (hs : e.Sound) {past : List Moment} {effect : Effect} {reply : effect.Reply}
    (hwarrants : Scene.Warrants ⟨e, past⟩ effect)
    (h : Environment.disturbed e effect reply e') : e.Develops e' := by
  cases effect with
  | submit job => exact hs.develops_of_same (h ▸ .refl e)
  | record entry => exact hs.develops_of_same (h ▸ .refl e)
  | call request =>
    cases request with
    | listIndices | aliasExists | aliasTarget =>
      exact hs.develops_of_same (Environment.disturbed_read rfl h).1
    | createIndex name =>
      rcases Environment.disturbed_createIndex h with ⟨hsame, -⟩ | ⟨-, -, hsame⟩
      · exact hs.develops_of_same hsame
      · exact hs.develops_of_insert hsame
    | deleteIndex name =>
      obtain ⟨group, n, rfl, hfree⟩ := hwarrants
      rcases Environment.disturbed_deleteIndex h with ⟨hsame, -⟩ | ⟨-, -, hsame⟩
      · exact hs.develops_of_same hsame
      · exact hs.develops_of_delete hfree hsame
    | flush name =>
      rcases Environment.disturbed_flush h with ⟨hsame, -⟩ | ⟨-, state, -, hsame⟩
      · exact hs.develops_of_same hsame
      · exact hs.develops_of_insert hsame
    | setReadOnly name =>
      rcases Environment.disturbed_setReadOnly h with ⟨hsame, -⟩ | ⟨-, state, -, hsame⟩
      · exact hs.develops_of_same hsame
      · exact hs.develops_of_insert hsame
    | optimize name maxSegments => exact hwarrants.elim
    | moveAlias aliasName add remove =>
      obtain ⟨group, n, rfl, rfl, rfl, hlt⟩ := hwarrants
      rcases Environment.disturbed_moveAlias h with ⟨hsame, -⟩ | ⟨-, hindex, hsame⟩
      · exact hs.develops_of_same hsame
      · exact hs.develops_of_move hlt hindex hsame

namespace Develops

theorem targetsOf (h : e.Develops e') (aliasName : String) :
    e'.targetsOf aliasName = e.targetsOf aliasName ∨
      ∃ (group : IndexGroup) (n : UInt64), aliasName = group.aliasName ∧
        e.Forwarded e' group n ∧
        e'.targetsOf aliasName = Std.ExtTreeSet.ofList [group.nameOf n] := by
  rcases h.moves aliasName with hstate | ⟨group, n, rfl, hforward⟩
  · exact Or.inl (by rw [Engine.targetsOf, hstate, Engine.targetsOf])
  · refine Or.inr ⟨group, n, rfl, hforward, ?_⟩
    rw [Engine.targetsOf, hforward.aliasState, AliasState.targets_retarget]

/-- **A sound engine stays sound.** -/
theorem sound (h : e.Develops e') (hs : e.Sound) : e'.Sound := by
  constructor
  · intro aliasName
    rcases h.targetsOf aliasName with heq | ⟨group, n, -, -, heq⟩
    · rw [heq]
      exact hs.size_le_one aliasName
    · exact Nat.le_of_eq (by rw [heq, size_ofList_singleton])
  · intro aliasName target htarget
    rcases h.targetsOf aliasName with heq | ⟨group, n, -, hforward, heq⟩
    · rw [heq] at htarget
      exact h.keeps aliasName target htarget
    · rw [heq, mem_ofList_singleton] at htarget
      rw [htarget]
      exact hforward.hasIndex
  · intro aliasName target other k htarget hnumber
    rcases h.targetsOf aliasName with heq | ⟨group, n, rfl, -, heq⟩
    · rw [heq] at htarget
      exact hs.own aliasName target other k htarget hnumber
    · rw [heq, mem_ofList_singleton] at htarget
      subst htarget
      have hname := (IndexGroup.numberOf?_unique hnumber (group.numberOf?_nameOf n)).1
      exact (IndexGroup.aliasName_congr hname).symm

/-- The alias of a group that is on an index of the group stays there, or goes to a higher
number. -/
theorem writesTo (h : e.Develops e') {group : IndexGroup} {m : UInt64}
    (hwrites : e.WritesTo group target m) :
    e'.WritesTo group target m ∨ ∃ n, m < n ∧ e'.WritesTo group (group.nameOf n) n := by
  obtain ⟨htarget, hnumber⟩ := hwrites
  rcases h.targetsOf group.aliasName with heq | ⟨other, n, hname, hforward, heq⟩
  · exact Or.inl ⟨heq ▸ htarget, hnumber⟩
  · have hfull := IndexGroup.aliasName_inj.mp hname
    have hlt : m < n :=
      hforward.lt target m (Engine.WritesTo.congr_group hfull ⟨htarget, hnumber⟩)
    refine Or.inr ⟨n, hlt, ?_, group.numberOf?_nameOf n⟩
    rw [heq, mem_ofList_singleton, IndexGroup.nameOf_congr hfull]

/-- The alias of a group that is on an index with a higher number than `m` stays on such a one. -/
theorem above (h : e.Develops e') {group : IndexGroup} {m : UInt64}
    (hwrites : ∃ target n, e.WritesTo group target n ∧ m < n) :
    ∃ target n, e'.WritesTo group target n ∧ m < n := by
  obtain ⟨target, n, hwrites, hlt⟩ := hwrites
  rcases h.writesTo hwrites with h | ⟨k, hlt', h⟩
  · exact ⟨target, n, h, hlt⟩
  · exact ⟨_, k, h, UInt64.lt_trans hlt hlt'⟩

end Develops
end Engine

/-! ## Evolution -/

namespace Scene

/-- The scene with the engine's switches set anew. -/
def switch (s : Scene) (unavailable refusesCreates : Bool) : Scene :=
  { s with engine :=
      { s.engine with unavailable := unavailable, refusesCreates := refusesCreates } }

theorem same_switch (s : Scene) (unavailable refusesCreates : Bool) :
    s.engine.Same (s.switch unavailable refusesCreates).engine := ⟨rfl, rfl⟩

/-- A warranted effect takes place, or the engine's switches are set. -/
inductive Change : Scene → Scene → Prop
  | effect {s : Scene} {effect : Effect} {reply : effect.Reply} {engine : Engine}
      (warrants : s.Warrants effect)
      (happens : Environment.disturbed s.engine effect reply engine) :
      Change s (s.next effect reply engine)
  | switch (s : Scene) (unavailable refusesCreates : Bool) :
      Change s (s.switch unavailable refusesCreates)

/-- A scene comes of another by changes. -/
abbrev Evolves : Scene → Scene → Prop :=
  Relation.ReflTransGen Change

variable {s s' s'' : Scene}

theorem Change.develops (h : Change s s') (hs : s.engine.Sound) : s.engine.Develops s'.engine := by
  cases h with
  | effect hwarrants hhappens => exact hs.develops hwarrants hhappens
  | switch unavailable refusesCreates => exact hs.develops_of_same (s.same_switch _ _)

namespace Evolves

theorem sound (h : Evolves s s') (hs : s.engine.Sound) : s'.engine.Sound := by
  induction h with
  | refl => exact hs
  | tail _ hchange ih => exact (hchange.develops ih).sound ih

/-- The past only grows. -/
theorem past (h : Evolves s s') : s.past <:+ s'.past := by
  induction h with
  | refl => exact List.suffix_rfl
  | tail _ hchange ih =>
    cases hchange with
    | effect => exact ih.trans (List.suffix_cons _ _)
    | switch => exact ih

/-- The alias of a group that is on an index with a higher number than `m` stays on such ones. -/
theorem above (h : Evolves s s') (hs : s.engine.Sound) {group : IndexGroup} {m : UInt64}
    (hwrites : ∃ target n, s.engine.WritesTo group target n ∧ m < n) :
    ∃ target n, s'.engine.WritesTo group target n ∧ m < n := by
  induction h with
  | refl => exact hwrites
  | tail hevolves hchange ih => exact (hchange.develops (Evolves.sound hevolves hs)).above ih

/-- **Write targets go forward.**  An alias that is on an index of its group stays on one, and the
next one has a higher number. -/
theorem writesTo (h : Evolves s s') (hs : s.engine.Sound) {group : IndexGroup} {target : String}
    {m : UInt64} (hwrites : s.engine.WritesTo group target m) :
    s'.engine.WritesTo group target m ∨
      ∃ target' n, s'.engine.WritesTo group target' n ∧ m < n := by
  induction h with
  | refl => exact Or.inl hwrites
  | tail hevolves hchange ih =>
    have hdevelops := hchange.develops (Evolves.sound hevolves hs)
    rcases ih with ih | ih
    · rcases hdevelops.writesTo ih with h | ⟨n, hlt, h⟩
      · exact Or.inl h
      · exact Or.inr ⟨_, n, h, hlt⟩
    · exact Or.inr (hdevelops.above ih)

/-- Everything in the past took place in a scene on the way, and was warranted there. -/
theorem visited {newer older : List Moment} {m : Moment} (h : Evolves s s') (hs : s.past = [])
    (hpast : s'.past = newer ++ m :: older) :
    Evolves s ⟨m.engine, older⟩ ∧ Warrants ⟨m.engine, older⟩ m.effect ∧
      Evolves ⟨m.engine, older⟩ s' := by
  induction h generalizing newer with
  | refl => simp [hs] at hpast
  | tail hevolves hchange ih =>
    cases hchange with
    | switch =>
      obtain ⟨hbefore, hwarrants, hafter⟩ := ih hpast
      exact ⟨hbefore, hwarrants, hafter.tail (.switch _ _ _)⟩
    | effect hwarrants hhappens =>
      cases newer with
      | nil =>
        obtain ⟨rfl, rfl⟩ := List.cons.inj hpast
        exact ⟨hevolves, hwarrants, .single (.effect hwarrants hhappens)⟩
      | cons last newer =>
        obtain ⟨-, hpast⟩ := List.cons.inj hpast
        obtain ⟨hbefore, hwarrants', hafter⟩ := ih hpast
        exact ⟨hbefore, hwarrants', hafter.tail (.effect hwarrants hhappens)⟩

end Evolves

/-- What is permitted since a scene: the warranted effects, if the engine was sound there. -/
def Permits (s s' : Scene) (effect : Effect) : Prop :=
  s.engine.Sound → s'.Warrants effect

theorem permits_of_isRead (s s' : Scene) {effect : Effect} (h : effect.isRead = true) :
    s.Permits s' effect :=
  fun _ => warrants_of_isRead h

end Scene

/-- What is permitted all along makes the scene evolve. -/
theorem Program.Upholds.evolves {α : Type} {p : Program α} {goal : α → Scene → Prop}
    {s s' : Scene} (h : p.Upholds Environment.disturbed s.Permits goal s')
    (hevolves : s.engine.Sound → s.Evolves s') :
    p.Upholds Environment.disturbed s.Permits
      (fun result s'' => goal result s'' ∧ (s.engine.Sound → s.Evolves s'')) s' := by
  refine h.carries (P := fun s' => s.engine.Sound → s.Evolves s') ?_ hevolves
  intro s₁ effect reply engine hpermits he hevolves₁ hs
  exact (hevolves₁ hs).tail (.effect (hpermits hs) he)

end Rollover
