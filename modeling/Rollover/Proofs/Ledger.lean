import Mathlib.Data.List.Chain
import Rollover.Proofs.Sealing

/-!
# What callers are told, and what the log says

Callers of a service learn of rotations by the results of their operations; operators read about
them in the activity log.  The two tell the same story: between operations the log has exactly the
rotations that were reported, in that order (`Service.Reaches.log`).

The rotations of one group moreover form a chain, in which each begins where the one before it
ended (`Service.Reaches.chain`).  There is one way to break it.  A rotation that finds a full flush
counter is cut off after the alias has moved, and nobody is told.  So the statement is that
consecutive rotations fit, unless the flush counter of the index between them was found full.

A counter that is found full has been full from the beginning, because an index is flushed once at
most (`Scene.Evolves.full_of_foundFull`).  Where no counter was, the chain has no gaps
(`Service.Reaches.seamless`).
-/

namespace Rollover

/-! ## Reported rotations -/

/-- A rotation as the activity log shows it. -/
def Rotation.entry (rotation : Rotation) : Option String × String :=
  (rotation.previous.map Segment.name, rotation.next.name)

/-- Whether it moved the alias of a group. -/
def Rotation.isOf (group : IndexGroup) (rotation : Rotation) : Bool :=
  rotation.next.base = group.fullName

/-- The rotations that setting up has led to. -/
def SetUp.rotations : Outcome SetUp → List Rotation
  | .ok (.bootstrapped rotation) => [rotation]
  | .ok .alreadyUp | .ok (.repaired _) | .error _ => []

/-- The rotations that a result reports. -/
def Operation.rotations : (operation : Operation) → operation.Result → List Rotation
  | setUp _, outcome => SetUp.rotations outcome
  | rotate _, outcome => outcome.toOption.toList
  | removeSegment _ _, _ => []
  | setUpEach _, outcomes => outcomes.flatMap fun entry => SetUp.rotations entry.2

namespace Service

/-- The rotations that were reported so far, oldest first. -/
def rotations (S : Service) : List Rotation :=
  S.finished.flatMap fun done => done.operation.rotations done.result

/-- Those that moved the alias of a group. -/
def rotationsOf (S : Service) (group : IndexGroup) : List Rotation :=
  S.rotations.filter (Rotation.isOf group)

end Service

/-! ## The log -/

section Log

variable {group : IndexGroup} {s s' : Scene}

theorem RotationEnd.log {outcome : Outcome Rotation} (h : RotationEnd group s s' outcome) :
    s'.rotations = s.rotations ++ outcome.toOption.toList.map Rotation.entry := by
  cases h with
  | failed cause h => simp [h.rotations, Except.toOption]
  | exhausted hnext h => simp [h.rotations, Except.toOption]
  | cutOff m n e advanced hwrites hrotations => simp [hrotations, Except.toOption]
  | rotated n frozen advanced hrotations =>
    rw [hrotations]
    cases s.engine.writeNumber? group <;> rfl

theorem SetUpEnd.log {outcome : Outcome SetUp} (h : SetUpEnd group s s' outcome) :
    s'.rotations = s.rotations ++ (SetUp.rotations outcome).map Rotation.entry := by
  cases h with
  | failed cause h => simp [h.rotations, SetUp.rotations]
  | alreadyUp hup h => simp [h.still.rotations, SetUp.rotations]
  | repaired n hdown hlatest redirected hrotations => simp [hrotations, SetUp.rotations]
  | bootstrapped rotation hempty h => exact h.log

theorem SetUpsEnd.log {outcomes : List (IndexGroup × Outcome SetUp)}
    (h : SetUpsEnd s s' outcomes) :
    s'.rotations = s.rotations ++
      (outcomes.flatMap fun entry => SetUp.rotations entry.2).map Rotation.entry := by
  induction h with
  | nil => simp
  | cons first evolves rest ih =>
    rw [ih, first.log, List.flatMap_cons, List.map_append, List.append_assoc]

/-- An operation records the rotations that it reports. -/
theorem Operation.Ends.log {operation : Operation} {result : operation.Result}
    (h : operation.Ends s result s') :
    s'.rotations = s.rotations ++ (operation.rotations result).map Rotation.entry := by
  cases operation with
  | setUp group => exact SetUpEnd.log h
  | rotate group => exact RotationEnd.log h
  | removeSegment group name =>
    rw [RemovalEnd.rotations h]
    exact (List.append_nil _).symm
  | setUpEach groups => exact SetUpsEnd.log h.1

end Log

namespace Service

variable {maxSegments : UInt32} {e : Engine} {S : Service}

/-- **Between operations the log shows the reported rotations**, and no others. -/
theorem Reaches.log (h : Reaches maxSegments (idle e) S) (hs : e.Sound) :
    S.settled.rotations = S.rotations.map Rotation.entry := by
  refine h.settled_induction
    (P := fun s finished => s.rotations = (finished.flatMap fun done =>
      done.operation.rotations done.result).map Rotation.entry) hs rfl ?_ ?_
  · intro s s' finished operation result _ _ hends hlog
    rw [hends.log, hlog, List.flatMap_append, List.map_append, List.flatMap_singleton]
  · exact fun _ _ _ _ hlog => hlog

end Service

/-! ## The chain of a group's rotations -/

namespace Scene

/-- The flush counter of an index was found full. -/
def FoundFull (s : Scene) (name : String) : Prop :=
  ∃ e, ⟨e, .call (.flush name), .ok .counterFull⟩ ∈ s.past

/-- The group's alias is on the index that a rotation led to, unless the flush counter of that index
was found full. -/
def Latest (s : Scene) (group : IndexGroup) (rotation : Rotation) : Prop :=
  (∃ n, rotation.next = .ordinary group.fullName n ∧
    s.engine.WritesTo group (group.nameOf n) n) ∨ s.FoundFull rotation.next.name

/-- Each rotation begins where the one before it ended, unless the flush counter of the index
between them was found full, and the last of them led to where the alias is.  -/
structure Chain (s : Scene) (group : IndexGroup) (rotations : List Rotation) : Prop where
  linked : rotations.IsChain fun a b =>
    b.previous = some a.next ∨ s.FoundFull a.next.name
  last : ∀ rotation ∈ rotations.getLast?, s.Latest group rotation

variable {s s' : Scene} {group other : IndexGroup} {rotations : List Rotation}

theorem FoundFull.later {name : String} (h : s.FoundFull name) (hpast : s.past <:+ s'.past) :
    s'.FoundFull name := by
  obtain ⟨e, hmem⟩ := h
  exact ⟨e, hpast.subset hmem⟩

namespace Chain

/-- The chain holds on if the alias has not moved. -/
theorem stay (h : s.Chain group rotations) (hpast : s.past <:+ s'.past)
    (hstate : s'.engine.aliasState group.aliasName = s.engine.aliasState group.aliasName) :
    s'.Chain group rotations := by
  refine ⟨h.linked.imp fun a b hab => hab.imp_right fun hfull => hfull.later hpast, ?_⟩
  intro rotation hlast
  rcases h.last rotation hlast with ⟨n, hnext, htarget, hnumber⟩ | hfull
  · refine Or.inl ⟨n, hnext, ?_, hnumber⟩
    rw [Engine.targetsOf, hstate, ← Engine.targetsOf]
    exact htarget
  · exact Or.inr (hfull.later hpast)

/-- The chain holds on, cut off where it is, if the alias has moved unreported from an index whose
flush counter was found full. -/
theorem cut (h : s.Chain group rotations) (hs : s.engine.Sound) (hpast : s.past <:+ s'.past)
    (hfull : ∀ m, s.engine.writeNumber? group = some m → s'.FoundFull (group.nameOf m)) :
    s'.Chain group rotations := by
  refine ⟨h.linked.imp fun a b hab => hab.imp_right fun hfull => hfull.later hpast, ?_⟩
  intro rotation hlast
  rcases h.last rotation hlast with ⟨n, hnext, hwrites⟩ | hfull'
  · have hnumber := hs.writeNumber?_eq_some_iff.mpr ⟨_, hwrites⟩
    refine Or.inr ?_
    rw [hnext]
    exact hfull n hnumber
  · exact Or.inr (hfull'.later hpast)

/-- The chain grows by a rotation. -/
theorem grow {rotation : Rotation} {n : UInt64} (h : s.Chain group rotations)
    (hs : s.engine.Sound) (hpast : s.past <:+ s'.past)
    (hprevious : rotation.previous =
      (s.engine.writeNumber? group).map (.ordinary group.fullName))
    (hnext : rotation.next = .ordinary group.fullName n)
    (hwrites : s'.engine.WritesTo group (group.nameOf n) n) :
    s'.Chain group (rotations ++ [rotation]) := by
  constructor
  · refine List.isChain_append.mpr ⟨?_, List.isChain_singleton _, ?_⟩
    · exact h.linked.imp fun a b hab => hab.imp_right fun hfull => hfull.later hpast
    · intro a ha b hb
      obtain rfl : rotation = b := by simpa using hb
      rcases h.last a ha with ⟨m, hm, hwritesTo⟩ | hfull
      · refine Or.inl ?_
        rw [hprevious, hs.writeNumber?_eq_some_iff.mpr ⟨_, hwritesTo⟩, hm]
        rfl
      · exact Or.inr (hfull.later hpast)
  · intro last hlast
    obtain rfl : rotation = last := by simpa using hlast
    exact Or.inl ⟨n, hnext, hwrites⟩

/-- A chain has no gaps if no flush counter was found full. -/
theorem seamless (h : s.Chain group rotations) (hnot : ∀ name, ¬ s.FoundFull name) :
    rotations.IsChain fun a b => b.previous = some a.next :=
  h.linked.imp fun _ _ hab => hab.resolve_right (hnot _)

end Chain
end Scene

section Ends

variable {s s' : Scene} {group other : IndexGroup} {rotations : List Rotation}

/-- Redirecting another group's alias is none of the chain's business. -/
theorem Scene.Chain.redirect {n : UInt64} (hchain : s.Chain group rotations)
    (hpast : s.past <:+ s'.past) (hne : ¬ other.fullName = group.fullName)
    (h : s.engine.Redirected other s'.engine n) : s'.Chain group rotations := by
  refine hchain.stay hpast (h.others group.aliasName fun heq => hne ?_)
  exact (IndexGroup.aliasName_inj.mp heq).symm

theorem RotationEnd.chain {outcome : Outcome Rotation} (h : RotationEnd other s s' outcome)
    (hs : s.engine.Sound) (hpast : s.past <:+ s'.past) (hchain : s.Chain group rotations) :
    s'.Chain group (rotations ++
      outcome.toOption.toList.filter (Rotation.isOf group)) := by
  cases h with
  | failed cause h =>
    simpa [Except.toOption] using hchain.stay hpast (Engine.aliasState_congr h.aliases _)
  | exhausted hnext h =>
    simpa [Except.toOption] using hchain.stay hpast (h.same.aliasState _)
  | cutOff m n e advanced hwrites hrotations hfull =>
    have hchain' : s'.Chain group rotations := by
      by_cases heq : other.fullName = group.fullName
      · refine hchain.cut hs hpast fun m' hm' => ?_
        rw [← Engine.writeNumber?_congr heq, hwrites] at hm'
        obtain rfl := Option.some.inj hm'
        exact ⟨e, IndexGroup.nameOf_congr heq m ▸ hfull⟩
      · exact hchain.redirect hpast heq advanced.redirected
    simpa [Except.toOption] using hchain'
  | rotated n frozen advanced hrotations =>
    by_cases heq : other.fullName = group.fullName
    · have hwrites := (advanced.redirected.writesTo hs).congr_group heq
      rw [IndexGroup.nameOf_congr heq] at hwrites
      have hgrow : s'.Chain group (rotations ++ [{
          previous := (s.engine.writeNumber? group).map (.ordinary group.fullName)
          next := .ordinary group.fullName n
          sealed := frozen }]) := hchain.grow hs hpast rfl rfl hwrites
      simpa [Except.toOption, Rotation.isOf, Segment.base, heq, Engine.writeNumber?_congr heq]
        using hgrow
    · simpa [Except.toOption, Rotation.isOf, Segment.base, heq] using
        hchain.redirect hpast heq advanced.redirected

theorem SetUpEnd.chain {outcome : Outcome SetUp} (h : SetUpEnd other s s' outcome)
    (hs : s.engine.Sound) (hpast : s.past <:+ s'.past) (hchain : s.Chain group rotations) :
    s'.Chain group (rotations ++ (SetUp.rotations outcome).filter (Rotation.isOf group)) := by
  cases h with
  | failed cause h =>
    simpa [SetUp.rotations] using hchain.stay hpast (Engine.aliasState_congr h.aliases _)
  | alreadyUp hup h =>
    simpa [SetUp.rotations] using hchain.stay hpast (h.same.aliasState _)
  | repaired n hdown hlatest redirected hrotations =>
    have hchain' : s'.Chain group rotations := by
      by_cases heq : other.fullName = group.fullName
      · -- an alias that is to be repaired is on no index of its group
        refine hchain.cut hs hpast fun m hm => ?_
        rw [← Engine.writeNumber?_congr heq, hdown] at hm
        cases hm
      · exact hchain.redirect hpast heq redirected
    simpa [SetUp.rotations] using hchain'
  | bootstrapped rotation hempty h => exact h.chain hs hpast hchain

theorem SetUpsEnd.chain {outcomes : List (IndexGroup × Outcome SetUp)}
    (h : SetUpsEnd s s' outcomes) (hs : s.engine.Sound) (hchain : s.Chain group rotations) :
    s'.Chain group (rotations ++
      (outcomes.flatMap fun entry => SetUp.rotations entry.2).filter (Rotation.isOf group)) := by
  induction h generalizing rotations with
  | nil s => simpa using hchain
  | cons first evolves rest ih =>
    have hevolves := evolves hs
    have hchain' := ih (hevolves.sound hs) (first.chain hs hevolves.past hchain)
    rw [List.flatMap_cons, List.filter_append, ← List.append_assoc]
    exact hchain'

/-- An operation lets the chain of each group grow by what it reports. -/
theorem Operation.Ends.chain {operation : Operation} {result : operation.Result}
    (h : operation.Ends s result s') (hs : s.engine.Sound) (hpast : s.past <:+ s'.past)
    (hchain : s.Chain group rotations) :
    s'.Chain group (rotations ++
      (operation.rotations result).filter (Rotation.isOf group)) := by
  cases operation with
  | setUp other => exact SetUpEnd.chain h hs hpast hchain
  | rotate other => exact RotationEnd.chain h hs hpast hchain
  | removeSegment other name =>
    simpa [Operation.rotations] using hchain.stay hpast (RemovalEnd.aliasState h hs _)
  | setUpEach groups => exact SetUpsEnd.chain h.1 hs hchain

end Ends

/-! ## Flush counters -/

/-- A counter is full only if it was, or after a flush. -/
theorem Engine.IndexChange.full {e : Engine} {effect : Effect} {name : String} {state : IndexState}
    (h : e.IndexChange effect name (some state))
    (hfull : ¬ state.flushes.toNat + 1 < UInt32.size) :
    e.Full name ∨ effect = .call (.flush name) := by
  cases h with
  | kept _ hkept => exact Or.inl ⟨state, hkept state rfl, hfull⟩
  | created => exact absurd (by decide) hfull
  | flushed _ _ _ heffect => exact Or.inr heffect
  | sealed old _ hold _ => exact Or.inl ⟨old, hold, hfull⟩

namespace Scene.Evolves

variable {s s' : Scene} {name : String}

/-- A counter is full only if it was at the beginning, or if the index was flushed since. -/
theorem full (h : s.Evolves s') (hfull : s'.engine.Full name) :
    s.engine.Full name ∨ ∃ moment ∈ s'.past, moment.effect = .call (.flush name) := by
  induction h with
  | refl => exact Or.inl hfull
  | tail _ hchange ih =>
    cases hchange with
    | switch => exact ih hfull
    | effect hwarrants hhappens =>
      obtain ⟨state, hstate, hfull⟩ := hfull
      have hcase := Engine.indexChange hwarrants hhappens name
      rw [engine_next] at hstate
      rw [hstate] at hcase
      rcases hcase.full hfull with hbefore | heffect
      · rcases ih hbefore with hfirst | ⟨moment, hmem, hflush⟩
        · exact Or.inl hfirst
        · exact Or.inr ⟨moment, List.mem_cons_of_mem _ hmem, hflush⟩
      · exact Or.inr ⟨_, List.mem_cons_self, heffect⟩

/-- **A counter that is found full was full at the beginning.** -/
theorem full_of_foundFull (h : s.Evolves s') (hs : s.engine.Sound) (hpast : s.past = [])
    (hfound : s'.FoundFull name) : s.engine.Full name := by
  induction h with
  | refl =>
    obtain ⟨e, hmem⟩ := hfound
    rw [hpast] at hmem
    cases hmem
  | tail hevolves hchange ih =>
    cases hchange with
    | switch => exact ih hfound
    | effect hwarrants hhappens =>
      obtain ⟨e, hmem⟩ := hfound
      rcases List.mem_cons.mp hmem with heq | hmem
      · cases heq
        rcases Environment.disturbed_flush hhappens with ⟨-, ⟨-, hfull⟩ | ⟨_, herror⟩⟩ | ⟨hok, -⟩
        · -- the index was not flushed before
          rcases full hevolves hfull with hfirst | ⟨moment, hmem, hflush⟩
          · exact hfirst
          · exact absurd hflush (not_flushed_before hevolves hs hpast hwarrants moment hmem)
        · cases herror
        · cases hok
      · exact ih ⟨e, hmem⟩

end Scene.Evolves

namespace Service

variable {maxSegments : UInt32} {e : Engine} {S : Service}

/-- **The rotations of a group form a chain.** -/
theorem Reaches.chain (h : Reaches maxSegments (idle e) S) (hs : e.Sound) (group : IndexGroup) :
    S.settled.Chain group (S.rotationsOf group) := by
  refine h.settled_induction
    (P := fun s finished => s.Chain group ((finished.flatMap fun done =>
      done.operation.rotations done.result).filter (Rotation.isOf group))) hs ?_ ?_ ?_
  · exact ⟨.nil, fun _ h => nomatch h⟩
  · intro s s' finished operation result hs hevolves hends hchain
    rw [List.flatMap_append, List.filter_append, List.flatMap_singleton]
    exact hends.chain hs hevolves.past hchain
  · exact fun s finished _ _ hchain => hchain.stay List.suffix_rfl rfl

/-- **The chain has no gaps**, if no flush counter was full at the beginning. -/
theorem Reaches.seamless (h : Reaches maxSegments (idle e) S) (hs : e.Sound)
    (hroom : ∀ name, ¬ e.Full name) (group : IndexGroup) :
    (S.rotationsOf group).IsChain fun a b => b.previous = some a.next := by
  refine (h.chain hs group).seamless fun name hfound => hroom name ?_
  have hevolves : Scene.Evolves { engine := e } S.scene := h.evolves (regular_idle hs)
  have hpast := (h.regular (regular_idle hs)).settled_evolves.past
  exact hevolves.full_of_foundFull hs rfl (hfound.later hpast)

end Service
end Rollover
