import Rollover.Proofs.Ledger

/-!
# Write targets move forward

The numbers of a group count its rotations, and they are computed from what the group has at the
moment.  Since indices can be removed between two rotations, the highest number of a group can go
down.  Nevertheless no number is ever used twice for writing: the index that the alias is on cannot
be removed, so it stands for all targets before it, and the next number is above it.

`Scene.Evolves.writesTo` is the step of that argument.  Here it is put to use on runs:
`Scene.Evolves.not_created` says that a name that was written to is not created again, and
`Service.write_targets_forward` collects what can be said of the targets of a group, of its
rotations, and of what the activity log shows of them.
-/

namespace Rollover

open Program

namespace Scene

variable {s s' : Scene} {group : IndexGroup} {target : String} {m n : UInt64}

/-- A warranted effect does not create the index that an alias of its group is on, nor one that it
was on before. -/
theorem Warrants.ne_createIndex {effect : Effect} (h : s.Warrants effect) (hs : s.engine.Sound)
    {target' : String} (hnumber : group.numberOf? target = some m)
    (hwrites : s.engine.WritesTo group target' n) (hle : m ≤ n) :
    effect ≠ .call (.createIndex target) := by
  rintro rfl
  obtain ⟨other, k, rfl, habove⟩ := h
  obtain ⟨hfull, rfl⟩ := IndexGroup.numberOf?_unique hnumber (other.numberOf?_nameOf k)
  have hlt : n < m :=
    habove n ⟨target', hs.hasIndex _ _ hwrites.1, (hwrites.congr_group hfull).2⟩
  rw [UInt64.lt_iff_toNat_lt] at hlt
  rw [UInt64.le_iff_toNat_le] at hle
  omega

/-- **A name that was written to is never created again.** -/
theorem Evolves.not_created (h : s.Evolves s') (hs : s.engine.Sound)
    (hwrites : s.engine.WritesTo group target m) :
    ∃ added, s'.past = added ++ s.past ∧
      ∀ moment ∈ added, moment.effect ≠ .call (.createIndex target) := by
  induction h with
  | refl => exact ⟨[], rfl, fun moment h => absurd h List.not_mem_nil⟩
  | tail hevolves hchange ih =>
    obtain ⟨added, hpast, hnot⟩ := ih
    cases hchange with
    | switch => exact ⟨added, hpast, hnot⟩
    | effect hwarrants hhappens =>
      refine ⟨_ :: added, congrArg (List.cons _) hpast, fun moment hmoment => ?_⟩
      rcases List.mem_cons.mp hmoment with rfl | hmoment
      · have hs₁ := Evolves.sound hevolves hs
        rcases Evolves.writesTo hevolves hs hwrites with h | ⟨target', n, h, hlt⟩
        · exact hwarrants.ne_createIndex hs₁ hwrites.2 h (UInt64.le_refl m)
        · exact hwarrants.ne_createIndex hs₁ hwrites.2 h (UInt64.le_of_lt hlt)
      · exact hnot moment hmoment

end Scene

/-- What a reported rotation has done to a group, from one engine to another. -/
structure Rotation.Forwards (rotation : Rotation) (group : IndexGroup) (e e' : Engine)
    (n : UInt64) : Prop where
  /-- It led to the index `n`. -/
  next : rotation.next = .ordinary group.fullName n
  /-- That index was not there before. -/
  fresh : e.hasIndex (group.nameOf n) = false
  /-- It has a higher number than any other. -/
  above : ∀ m, e.HasNumber group m → m < n
  /-- The alias is on it now. -/
  writes : e'.WritesTo group (group.nameOf n) n
  /-- What the alias was on before is reported. -/
  previous : ∀ target m, e.WritesTo group target m →
    rotation.previous = some (.ordinary group.fullName m)

theorem RotationEnd.forwards {group : IndexGroup} {s s' : Scene} {rotation : Rotation}
    (h : RotationEnd group s s' (.ok rotation)) (hs : s.engine.Sound) :
    ∃ n, rotation.Forwards group s.engine s'.engine n := by
  cases h with
  | rotated n frozen advanced hrotations =>
    have habove : ∀ m, s.engine.HasNumber group m → m < n := fun m hm =>
      Engine.lt_of_viewOf_next? advanced.next? hm
    refine ⟨n, rfl, Engine.hasIndex_nameOf_of_above habove, habove, advanced.redirected.writesTo hs,
      fun target m hwrites => ?_⟩
    rw [hs.writeNumber?_eq_some_iff.mpr ⟨target, hwrites⟩]
    rfl

namespace Service

/-- What a run on the engine `e` that has led from `S` to `S'` says about the targets of a group. -/
structure Forward (maxSegments : UInt32) (e : Engine) (group : IndexGroup) (S S' : Service) :
    Prop where
  /-- A group that was written to is still written to. -/
  kept : ∀ target m, S.scene.engine.WritesTo group target m →
    ∃ target' n, S'.scene.engine.WritesTo group target' n
  /-- If its target is another one, it has a higher number. -/
  higher : ∀ target m, S.scene.engine.WritesTo group target m →
    ∀ target' n, S'.scene.engine.WritesTo group target' n →
      (target' = target ∧ n = m) ∨ m < n
  /-- The engine was not asked to create the old target again. -/
  unrepeated : ∀ target m, S.scene.engine.WritesTo group target m →
    ∃ added, S'.scene.past = added ++ S.scene.past ∧
      ∀ moment ∈ added, moment.effect ≠ .call (.createIndex target)
  /-- A rotation from here leads above all indices that there are and all targets that there were.
  -/
  rotation : ∀ rotation S'', Performs maxSegments S' (.rotate group) (.ok rotation) S'' →
    ∃ n, rotation.Forwards group S'.scene.engine S''.scene.engine n ∧
      ∀ target m, S.scene.engine.WritesTo group target m → m < n
  /-- The reported rotations of the group form a chain, -/
  chain : S'.settled.Chain group (S'.rotationsOf group)
  /-- and one without gaps if no flush counter was full at the beginning. -/
  seamless : (∀ name, ¬ e.Full name) →
    (S'.rotationsOf group).IsChain fun a b => b.previous = some a.next
  /-- Between operations the activity log shows the reported rotations. -/
  log : S'.task = none → S'.scene.rotations = S'.rotations.map Rotation.entry

/-- **Write targets move forward**, whatever a service does and wherever its calls are cut off. -/
theorem write_targets_forward {maxSegments : UInt32} {e : Engine} {S S' : Service} (hs : e.Sound)
    (hfirst : Reaches maxSegments (idle e) S) (hthen : Reaches maxSegments S S')
    (group : IndexGroup) : Forward maxSegments e group S S' := by
  have hregular := hfirst.regular (regular_idle hs)
  have hevolves := hthen.evolves hregular
  have hs' : S'.scene.engine.Sound := hevolves.sound hregular.sound
  have hreaches : Reaches maxSegments (idle e) S' := hfirst.trans hthen
  constructor
  · intro target m hwrites
    rcases hevolves.writesTo hregular.sound hwrites with h | ⟨target', n, h, -⟩
    · exact ⟨target, m, h⟩
    · exact ⟨target', n, h⟩
  · intro target m hwrites target' n hwrites'
    rcases hevolves.writesTo hregular.sound hwrites with h | ⟨other, k, h, hlt⟩
    · exact Or.inl (hs'.writesTo_unique hwrites' h)
    · obtain ⟨-, rfl⟩ := hs'.writesTo_unique hwrites' h
      exact Or.inr hlt
  · intro target m hwrites
    exact hevolves.not_created hregular.sound hwrites
  · intro rotation S'' hperforms
    obtain ⟨n, hforwards⟩ := RotationEnd.forwards hperforms.ends hs'
    refine ⟨n, hforwards, fun target m hwrites => ?_⟩
    have habove : ∀ target' k, S'.scene.engine.WritesTo group target' k → k < n :=
      fun target' k h => hforwards.above k ⟨target', hs'.hasIndex _ _ h.1, h.2⟩
    rcases hevolves.writesTo hregular.sound hwrites with h | ⟨target', k, h, hlt⟩
    · exact habove target m h
    · exact UInt64.lt_trans hlt (habove target' k h)
  · exact hreaches.chain hs group
  · exact fun hroom => hreaches.seamless hs hroom group
  · intro hidle
    rw [← settled_of_idle hidle]
    exact hreaches.log hs

/-- After a rotation the target is the one before, or has a higher number. -/
theorem write_targets_forward_of_rotation :
    let group : IndexGroup := ⟨"graylog", "internal"⟩
    let S := idle (Engine.serving group 0)
    let S' := S.after 1 (fun _ _ => .ok ()) (.rotate group)
    S.scene.engine.WritesTo group (group.nameOf 0) 0 ∧
      Forward 1 (Engine.serving group 0) group S S' := by
  intro group S S'
  have hthen : Reaches 1 S S' := (performs_after S rfl _ (.rotate group)).reaches
  have hwrites : (Engine.serving group 0).WritesTo group (group.nameOf 0) 0 :=
    ⟨(Engine.targetsOf_serving ..).mpr ⟨rfl, rfl⟩, group.numberOf?_nameOf 0⟩
  exact ⟨hwrites, write_targets_forward (Engine.sound_serving group 0) .refl hthen group⟩

end Service
end Rollover
