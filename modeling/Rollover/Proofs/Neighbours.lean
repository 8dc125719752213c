import Rollover.Proofs.BestEffort
import Rollover.Proofs.Installations

/-!
# Groups do not disturb each other

All groups share one engine, and tell what is theirs by name alone.  Names can look confusingly
alike: a full name may be the beginning of another, or the name that another group gives to an
index.  Nevertheless no group ever sees what is done to another with a different full name.

This is said for engines on which anything can go wrong.  In the *erratic* environment any call may
get any reply in place of the engine's, so whatever the faults of an installation are, its programs
are played there (`Installation.leads_run`).  What a group sees of an engine is its view, its
indices with all that is known of them, and the targets and the past of its alias
(`Engine.SameTo`).

* Setting up and rotating a group stay in its territory, so no other group sees anything of it
  (`Program.BestEffort.alike`).
* Removing an index of a group takes it away from every alias that is on it.  Another group sees
  that if its own alias is such a one, and nothing otherwise (`Program.BestEffort.thinned`).
-/

namespace Rollover

open Program Environment

variable {α : Type} {group other : IndexGroup} {e e' e₀ : Engine}

/-! ## Anything can go wrong -/

/-- A call reaches the engine, or gets any reply in the engine's place. -/
def Environment.erratic : Environment
  | e, .call request, reply, e' => (e', reply) = e.perform request ∨ e' = e
  | e, .submit _, _, e' => e' = e
  | e, .record _, _, e' => e' = e

/-- Either nothing has gone wrong, or nothing has happened. -/
theorem Environment.calm_or_eq_of_erratic {effect : Effect} {reply : effect.Reply}
    (h : erratic e effect reply e') : calm e effect reply e' ∨ e' = e := by
  cases effect with
  | call request => exact h
  | submit job => exact Or.inr h
  | record entry => exact Or.inr h

/-- Whatever the faults are, an installation does nothing else. -/
theorem Installation.erratic_handle (installation : Installation) (effect : Effect) :
    erratic installation.engine.engine effect (handler.handle installation effect).2
      (handler.handle installation effect).1.engine.engine := by
  cases effect with
  | call request =>
    show _ ∨ _
    unfold handler Handler.handle FaultyEngine.perform
    dsimp only
    cases Fault.meet request installation.engine.faults with
    | mk faults answer =>
      cases answer with
      | some reply => exact Or.inr rfl
      | none => exact Or.inl rfl
  | submit job => rfl
  | record entry => rfl

/-- So a program that was run on an installation got to its end step by step. -/
theorem Installation.leads_run (installation : Installation) (p : Program α) (past : List Moment) :
    ∃ past', Leads erratic (p, ⟨installation.engine.engine, past⟩)
      (.done (installation.run p).2, ⟨(installation.run p).1.engine.engine, past'⟩) :=
  leads_run_of (fun installation effect (_ : True) =>
    ⟨installation.erratic_handle effect, trivial⟩) trivial p past

/-! ## What a group sees -/

/-- A group sees the same of two engines. -/
structure Engine.SameTo (e : Engine) (group : IndexGroup) (e' : Engine) : Prop where
  /-- The numbers of its indices, where its alias is bound, and whether an index has the alias's
  name. -/
  view : e'.viewOf group = e.viewOf group
  /-- The statistics of its indices, how often they were flushed, and what they were merged down
  to. -/
  indices : ∀ name n, group.numberOf? name = some n → e'.indices[name]? = e.indices[name]?
  /-- The targets of its alias, and all that it was on before. -/
  aliasState : e'.aliasState group.aliasName = e.aliasState group.aliasName

theorem Engine.Alike.sameTo (h : e.Alike group e') : e.SameTo group e' where
  view := h.viewOf
  indices name _ hnumber := h.indices name (IndexGroup.owns_of_numberOf? hnumber)
  aliasState := h.aliasState

/-! ## Staying in a territory -/

/-- Whatever comes of the effect, a group finds its own as it was. -/
def Effect.LeavesAlone (other : IndexGroup) (effect : Effect) : Prop :=
  ∀ (e : Engine) (reply : effect.Reply) (e' : Engine), erratic e effect reply e' → e.Alike other e'

/-- What stays in one group's territory leaves the others alone. -/
theorem Effect.StaysIn.leavesAlone {effect : Effect} (h : effect.StaysIn group)
    (hne : group.fullName ≠ other.fullName) : effect.LeavesAlone other := by
  intro e reply e' herratic
  rcases calm_or_eq_of_erratic herratic with hcalm | rfl
  · exact h.alike hne (disturbed_of_calm hcalm)
  · exact .refl _ _

theorem Effect.leavesAlone_record (entry : Activity) : (Effect.record entry).LeavesAlone other := by
  intro e reply e' herratic
  rw [show e' = e from herratic]
  exact .refl _ _

/-- **A program that leaves a group alone never changes what the group has**, at no point of its
way. -/
theorem Program.BestEffort.alike {goal : α → Prop} {p q : Program α} {s s' : Scene}
    (h : p.BestEffort (Effect.LeavesAlone other) goal) (hleads : Leads erratic (p, s) (q, s')) :
    s.engine.Alike other s'.engine :=
  (h.upholds (Effect.leavesAlone_record _) erratic s).preserves hleads
    (fun _ _ reply engine halone herratic halike => halike.trans (halone _ reply engine herratic))
    (.refl _ _)

/-- A program that tends to a group leaves the others alone. -/
theorem Program.TendsTo.leavesAlone {p : Program α} (h : p.TendsTo group)
    (hne : group.fullName ≠ other.fullName) :
    p.BestEffort (Effect.LeavesAlone other) fun _ => True :=
  h.bestEffort.imp (fun _ hstays => hstays.leavesAlone hne) fun _ h => h

/-- Setting up several groups leaves all others alone. -/
theorem setUpEach_leavesAlone {maxSegments : UInt32} {groups : List IndexGroup}
    (hne : ∀ group ∈ groups, group.fullName ≠ other.fullName) :
    (setUpEach maxSegments groups).BestEffort (Effect.LeavesAlone other) fun _ => True := by
  refine (bestEffort_setUpEach maxSegments groups).imp (fun effect h => ?_) fun _ h => h
  obtain ⟨group, hgroup, hstays⟩ := h
  exact hstays.leavesAlone (hne group hgroup)

/-! ## Deleting indices of another group -/

/-- Some indices are gone that were not the group's own.  If the group's alias was on none of them,
it is as it was. -/
structure Engine.Thinned (e₀ : Engine) (other : IndexGroup) (e : Engine) : Prop where
  indices : ∀ name, other.Owns name → e.indices[name]? = e₀.indices[name]?
  shrunk : ∀ name, e.hasIndex name = true → e₀.hasIndex name = true
  bound : e.aliasState other.aliasName = e₀.aliasState other.aliasName ∨
    ∃ name ∈ e₀.targetsOf other.aliasName, e₀.hasIndex name = true ∧ e.hasIndex name = false

namespace Engine.Thinned

protected theorem refl (e : Engine) (other : IndexGroup) : e.Thinned other e :=
  ⟨fun _ _ => rfl, fun _ h => h, Or.inl rfl⟩

theorem of_same (h : e₀.Thinned other e) (hsame : e.Same e') : e₀.Thinned other e' := by
  obtain ⟨hindices, hshrunk, hbound⟩ := h
  refine ⟨?_, ?_, ?_⟩
  · rwa [hsame.indices]
  · simpa only [hsame.hasIndex] using hshrunk
  · simpa only [hsame.hasIndex, hsame.aliasState] using hbound

/-- Deleting an index that is not the group's own. -/
theorem delete {name : String} (h : e₀.Thinned other e) (hforeign : ¬ other.Owns name)
    (hindex : e.hasIndex name = true) :
    e₀.Thinned other { e with
      indices := e.indices.erase name
      aliases := e.aliases.map fun _ state => state.forget name } := by
  have hgone : ∀ gone, e.hasIndex gone = false ∨ gone = name → Engine.hasIndex { e with
      indices := e.indices.erase name
      aliases := e.aliases.map fun _ state => state.forget name } gone = false := by
    intro gone hor
    rw [Bool.eq_false_iff, ne_eq, hasIndex_erase]
    rintro ⟨hne, hpresent⟩
    rcases hor with habsent | rfl
    · rw [habsent] at hpresent
      cases hpresent
    · exact hne rfl
  refine ⟨fun own hown => ?_, fun left hleft => h.shrunk left (hasIndex_erase.mp hleft).2, ?_⟩
  · have hne : compare name own ≠ .eq := fun heq =>
      hforeign (Std.LawfulEqOrd.compare_eq_iff_eq.mp heq ▸ hown)
    rw [Std.ExtTreeMap.getElem?_erase, if_neg hne, h.indices own hown]
  · rcases h.bound with hsame | ⟨gone, htarget, hold, hnew⟩
    · by_cases htarget : name ∈ e₀.targetsOf other.aliasName
      · exact Or.inr ⟨name, htarget, h.shrunk name hindex, hgone name (Or.inr rfl)⟩
      · rw [Engine.targetsOf, ← hsame] at htarget
        rw [aliasState_forget, AliasState.forget, if_neg htarget]
        exact Or.inl hsame
    · exact Or.inr ⟨gone, htarget, hold, hgone gone (Or.inl hnew)⟩

/-- The group's own indices are all there. -/
theorem hasIndex {name : String} (h : e₀.Thinned other e) (hown : other.Owns name) :
    e.hasIndex name = e₀.hasIndex name := by
  rw [Bool.eq_iff_iff, hasIndex_iff, hasIndex_iff, h.indices name hown]

/-- If the group's alias was on none of the indices that are gone, the group sees no difference. -/
theorem sameTo (h : e₀.Thinned other e) (hbound : ∀ name, e₀.hasIndex name = true →
    e.hasIndex name = false → name ∉ e₀.targetsOf other.aliasName) : e₀.SameTo other e := by
  have haliasState : e.aliasState other.aliasName = e₀.aliasState other.aliasName := by
    rcases h.bound with hsame | ⟨name, htarget, hold, hnew⟩
    · exact hsame
    · exact absurd htarget (hbound name hold hnew)
  refine ⟨viewOf_congr (fun _ hown => h.hasIndex hown) ?_, fun name n hnumber => ?_, haliasState⟩
  · rw [Engine.targetsOf, haliasState, Engine.targetsOf]
  · exact h.indices name (IndexGroup.owns_of_numberOf? hnumber)

end Engine.Thinned

/-- An effect that prunes a group takes away nothing that is another's own, whatever goes wrong. -/
theorem Effect.Prunes.thinned {effect : Effect} {reply : effect.Reply} (h : effect.Prunes group)
    (hne : group.fullName ≠ other.fullName) (herratic : erratic e effect reply e')
    (hthinned : e₀.Thinned other e) : e₀.Thinned other e' := by
  obtain rfl | hcalm := (calm_or_eq_of_erratic herratic).symm
  · exact hthinned
  have hdisturbed := disturbed_of_calm hcalm
  cases h with
  | ask request hread => exact hthinned.of_same (disturbed_read hread hdisturbed).1
  | deleteIndex n =>
    rcases disturbed_deleteIndex hdisturbed with ⟨hsame, -⟩ | ⟨-, hindex, hsame⟩
    · exact hthinned.of_same hsame
    · have hforeign : ¬ other.Owns (group.nameOf n) := fun hown =>
        hne ((group.owns_nameOf n).fullName_eq hown)
      exact (hthinned.delete hforeign hindex).of_same hsame
  | submit job hjob => exact (show e' = e from hdisturbed) ▸ hthinned
  | record entry => exact (show e' = e from hdisturbed) ▸ hthinned

theorem Program.BestEffort.thinned {goal : α → Prop} {p q : Program α} {s s' : Scene}
    (h : p.BestEffort (Effect.Prunes group) goal) (hne : group.fullName ≠ other.fullName)
    (hleads : Leads erratic (p, s) (q, s')) : s.engine.Thinned other s'.engine :=
  (h.upholds (.record _) erratic s).preserves hleads
    (fun _ _ _ _ hprunes herratic hthinned => hprunes.thinned hne herratic hthinned) (.refl _ _)

end Rollover
