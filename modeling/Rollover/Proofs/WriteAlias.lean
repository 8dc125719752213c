import Rollover.Proofs.Service

/-!
# Write aliases do not get lost

Messages are written through aliases, so at no time may an alias that was bound be unbound or be
bound twice.  In a sound engine neither happens, whatever a service is asked to do and wherever its
calls are cut off (`Service.Reaches.write_alias_kept`): not even between two effects of one
operation, and not in the history of the alias either.

The reason is in one step.  An effect leaves an alias as it is, or retargets it to exactly one index
that exists (`Engine.Develops.soleTarget?`, `Engine.Develops.historyOf`); a run is many such steps.
-/

namespace Rollover

namespace Engine

variable {e e' : Engine} {aliasName target : String}

theorem Sound.soleTarget?_eq_some_iff (hs : e.Sound) :
    e.soleTarget? aliasName = some target ↔ target ∈ e.targetsOf aliasName := by
  have hsize := hs.size_le_one aliasName
  rw [← Std.ExtTreeSet.length_toList] at hsize
  rw [soleTarget?, ← Std.ExtTreeSet.mem_toList]
  match (e.targetsOf aliasName).toList, hsize with
  | [], _ => simp
  | [only], _ => simp [eq_comm]

namespace Develops

/-- An alias that has a target still has one, and it exists. -/
theorem soleTarget? (h : e.Develops e') (hs : e.Sound)
    (htarget : e.soleTarget? aliasName = some target) :
    ∃ target', e'.soleTarget? aliasName = some target' ∧ e'.hasIndex target' = true := by
  rw [hs.soleTarget?_eq_some_iff] at htarget
  have hs' := h.sound hs
  rcases h.targetsOf aliasName with heq | ⟨group, n, -, hforward, heq⟩
  · exact ⟨target, hs'.soleTarget?_eq_some_iff.mpr (heq ▸ htarget), h.keeps _ _ htarget⟩
  · refine ⟨group.nameOf n, hs'.soleTarget?_eq_some_iff.mpr ?_, hforward.hasIndex⟩
    rw [heq, mem_ofList_singleton]

/-- What an effect adds to the history of an alias are single targets. -/
theorem historyOf (h : e.Develops e') (aliasName : String) :
    ∃ added, e'.historyOf aliasName = e.historyOf aliasName ++ added ∧
      ∀ entry ∈ added, entry.length = 1 := by
  rcases h.moves aliasName with hstate | ⟨group, n, rfl, hforward⟩
  · refine ⟨[], ?_, fun entry h => absurd h List.not_mem_nil⟩
    rw [Engine.historyOf, hstate, Engine.historyOf, List.append_nil]
  · refine ⟨[[group.nameOf n]], ?_, ?_⟩
    · rw [Engine.historyOf, hforward.aliasState, AliasState.history_retarget,
        toList_ofList_singleton, Engine.historyOf]
    · rintro entry hentry
      rw [List.mem_singleton.mp hentry]
      rfl

end Develops
end Engine

namespace Scene.Evolves

variable {s s' : Scene} {aliasName target : String}

theorem soleTarget? (h : s.Evolves s') (hs : s.engine.Sound)
    (htarget : s.engine.soleTarget? aliasName = some target) (hindex : s.engine.hasIndex target) :
    ∃ target', s'.engine.soleTarget? aliasName = some target' ∧
      s'.engine.hasIndex target' = true := by
  induction h with
  | refl => exact ⟨target, htarget, hindex⟩
  | tail hevolves hchange ih =>
    obtain ⟨target', htarget', -⟩ := ih
    have hs' := Evolves.sound hevolves hs
    exact (hchange.develops hs').soleTarget? hs' htarget'

theorem historyOf (h : s.Evolves s') (hs : s.engine.Sound) (aliasName : String) :
    ∃ added, s'.engine.historyOf aliasName = s.engine.historyOf aliasName ++ added ∧
      ∀ entry ∈ added, entry.length = 1 := by
  induction h with
  | refl => exact ⟨[], (List.append_nil _).symm, fun entry h => absurd h List.not_mem_nil⟩
  | tail hevolves hchange ih =>
    obtain ⟨added, hadded, hsingle⟩ := ih
    obtain ⟨more, hmore, hsingle'⟩ :=
      (hchange.develops (Evolves.sound hevolves hs)).historyOf aliasName
    refine ⟨added ++ more, by rw [hmore, hadded, List.append_assoc], fun entry hentry => ?_⟩
    rcases List.mem_append.mp hentry with hentry | hentry
    · exact hsingle entry hentry
    · exact hsingle' entry hentry

end Scene.Evolves

namespace Service

/-- **A write alias is never lost.**  In every state of every run no alias has two targets, an alias
that has a target keeps one that exists, and its history grows by single targets only. -/
theorem write_alias_kept {maxSegments : UInt32} {e : Engine} {S S' : Service} (hs : e.Sound)
    (hfirst : Reaches maxSegments (idle e) S) (hthen : Reaches maxSegments S S')
    (aliasName : String) :
    (S'.scene.engine.targetsOf aliasName).size ≤ 1 ∧
      (∀ target, S.scene.engine.soleTarget? aliasName = some target →
        ∃ target', S'.scene.engine.soleTarget? aliasName = some target' ∧
          S'.scene.engine.hasIndex target' = true) ∧
      ∃ added, S'.scene.engine.historyOf aliasName = e.historyOf aliasName ++ added ∧
        ∀ entry ∈ added, entry.length = 1 := by
  have hregular := hfirst.regular (regular_idle hs)
  have hevolves := hthen.evolves hregular
  refine ⟨(hevolves.sound hregular.sound).size_le_one aliasName, fun target htarget => ?_, ?_⟩
  · refine hevolves.soleTarget? hregular.sound htarget (hregular.sound.hasIndex aliasName _ ?_)
    exact hregular.sound.soleTarget?_eq_some_iff.mp htarget
  · exact (Reaches.evolves (hfirst.trans hthen) (regular_idle hs)).historyOf hs aliasName

/-- A rotation of a group in use: the alias was on one index, and still is afterwards. -/
theorem write_alias_kept_of_rotation :
    let group : IndexGroup := ⟨"graylog", "internal"⟩
    let S := idle (Engine.serving group 0)
    let S' := S.after 1 (fun _ _ => .ok ()) (.rotate group)
    S.scene.engine.soleTarget? group.aliasName = some "graylog_internal_0" ∧
      (S'.scene.engine.targetsOf group.aliasName).size ≤ 1 ∧
      ∃ target', S'.scene.engine.soleTarget? group.aliasName = some target' ∧
        S'.scene.engine.hasIndex target' = true := by
  intro group S S'
  have hsole : S.scene.engine.soleTarget? group.aliasName = some "graylog_internal_0" := by
    decide +kernel
  have hthen : Reaches 1 S S' := (performs_after S rfl _ (.rotate group)).reaches
  have hkept := write_alias_kept (Engine.sound_serving group 0) .refl hthen group.aliasName
  exact ⟨hsole, hkept.1, hkept.2.1 _ hsole⟩

end Service
end Rollover
