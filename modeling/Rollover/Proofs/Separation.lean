import Rollover.Proofs.Neighbours
import Rollover.Proofs.Reading

/-!
# No name belongs to two groups

One full name may go on from another by underscores, digits, or the ending of an alias, so names of
one group may look like names of another.  They are not read as such.  A name is a group's own
exactly if the group can read it (`IndexGroup.owns_iff`), and then what follows its last underscore
is the number or the ending of the alias, and what stands in front is the full name.  So of two
groups with different full names one at most can read a name.

Three things follow (`names_separate`).

* Groups with different full names make different names, and neither of them makes a name that the
  other can read.
* The view of a group comes from the indices whose names it can read: an engine that has only those
  (`Engine.readBy`) shows the same view.  So the views of two groups come from different indices.
* A rotation creates indices with the names that its group gives to them, and no alias has such a
  name.  Whatever goes wrong, it puts no index on the name of an alias.
-/

namespace Rollover

open Program Environment

/-! ## Names that a group can read -/

/-- **A name belongs to a group exactly if the group can read it.** -/
theorem IndexGroup.owns_iff {group : IndexGroup} {name : String} :
    group.Owns name ↔ ∃ segment, group.parse name = .ok segment := by
  constructor
  · rintro (rfl | ⟨n, hn⟩)
    · exact ⟨_, group.parse_aliasName⟩
    · exact ⟨_, parse_of_numberOf? hn⟩
  · rintro ⟨segment, hparse⟩
    cases parse_eq_iff.mp hparse with
    | writeAlias h => exact Or.inl h
    | ordinary text n h hspells =>
      exact owns_of_numberOf? (numberOf?_eq_some_iff.mpr
        ⟨text.toList, Segment.eq_join_iff.mp h, hspells.1, hspells.2⟩)

namespace Engine

variable {e : Engine} {group : IndexGroup} {name : String}

/-- The engine with those of its indices alone whose names a group can read. -/
def readBy (e : Engine) (group : IndexGroup) : Engine :=
  { e with indices := e.indices.filter fun name _ => (group.parse name).isOk }

theorem hasIndex_readBy : (e.readBy group).hasIndex name = true ↔
    e.hasIndex name = true ∧ group.Owns name := by
  rw [hasIndex_iff, hasIndex_iff, IndexGroup.owns_iff]
  simp only [readBy, Std.ExtTreeMap.getElem?_filter', Option.filter_eq_some_iff]
  cases group.parse name with
  | ok segment => simp [Except.isOk, Except.toBool]
  | error cause => simp [Except.isOk, Except.toBool]

/-- Other indices make no difference to the view of a group. -/
theorem viewOf_readBy (e : Engine) (group : IndexGroup) :
    (e.readBy group).viewOf group = e.viewOf group := by
  refine viewOf_congr (fun name hown => ?_) rfl
  rw [Bool.eq_iff_iff, hasIndex_readBy]
  exact and_iff_left hown

end Engine

/-- What taking a view comes to. -/
theorem IndexGroup.run_view (group : IndexGroup) (desk : Scene → Job → Except Error Unit)
    (s : Scene) : (group.view.run (Scene.handler desk) s).2 =
      if s.engine.unavailable = true then
        .error (.engineUnavailable (.unreachable "in-memory engine marked unavailable"))
      else .ok (s.engine.viewOf group) := by
  split
  · next havailable =>
    have hask : (ask .listIndices).run (Scene.handler desk) s =
        (s.next (.call .listIndices) (s.engine.perform .listIndices).2
          (s.engine.perform .listIndices).1, (s.engine.perform .listIndices).2) := rfl
    unfold IndexGroup.view
    rw [run_bind, hask, Engine.perform_of_unavailable havailable]
    rfl
  · next havailable =>
    exact ((answered_view group s).run_answered (Bool.not_eq_true _ ▸ havailable) desk).2

/-! ## Rotations -/

/-- Nothing has to go wrong. -/
theorem Environment.erratic_of_calm {e e' : Engine} {effect : Effect} {reply : effect.Reply}
    (h : calm e effect reply e') : erratic e effect reply e' := by
  cases effect with
  | call request => exact Or.inl h
  | submit job => exact h
  | record entry => exact h

/-- An effect that stays in a group's territory puts no index on the name of an alias, whatever goes
wrong. -/
theorem Effect.StaysIn.hasIndex_aliasName {group other : IndexGroup} {e e' : Engine}
    {effect : Effect} {reply : effect.Reply} (h : effect.StaysIn group)
    (herratic : erratic e effect reply e') (hfree : e.hasIndex other.aliasName = false) :
    e'.hasIndex other.aliasName = false := by
  rcases calm_or_eq_of_erratic herratic with hcalm | rfl
  · rw [Bool.eq_false_iff]
    intro hindex
    rcases h.gained (disturbed_of_calm hcalm) hindex with ⟨n, hn⟩ | hold
    · exact IndexGroup.nameOf_ne_aliasName group other n hn.symm
    · rw [hfree] at hold
      cases hold
  · exact hfree

theorem Program.TendsTo.hasIndex_aliasName {α : Type} {group other : IndexGroup}
    {p rest : Program α} {s s' : Scene} (h : p.TendsTo group)
    (hleads : Leads erratic (p, s) (rest, s'))
    (hfree : s.engine.hasIndex other.aliasName = false) :
    s'.engine.hasIndex other.aliasName = false :=
  (h.bestEffort.upholds (.record _) erratic s).preserves hleads
    (P := fun e => e.hasIndex other.aliasName = false)
    (fun _ _ _ _ hstays herratic hfree => hstays.hasIndex_aliasName herratic hfree) hfree

/-! ## Two groups -/

/-- Two groups have no name in common. -/
structure IndexGroup.Separate (a b : IndexGroup) : Prop where
  parse : ∀ name x y, a.parse name = .ok x → b.parse name ≠ .ok y
  /-- The views of the groups come from different indices. -/
  indices : ∀ (e : Engine) (name : String), (e.readBy a).hasIndex name = true →
    (e.readBy b).hasIndex name = false
  nameOf : ∀ m n, a.nameOf m ≠ b.nameOf n
  nameOf_aliasName : ∀ m, a.nameOf m ≠ b.aliasName
  aliasName_nameOf : ∀ n, a.aliasName ≠ b.nameOf n
  aliasName : a.aliasName ≠ b.aliasName

theorem IndexGroup.separate {a b : IndexGroup} (h : a.fullName ≠ b.fullName) : a.Separate b := by
  have hforeign : ∀ name, a.Owns name → ¬ b.Owns name := fun name ha hb => h (ha.fullName_eq hb)
  refine ⟨fun name x y hx hy => ?_, fun e name hname => ?_, fun m n heq => ?_,
    fun m => nameOf_ne_aliasName a b m, fun n => (nameOf_ne_aliasName b a n).symm,
    fun heq => h (aliasName_inj.mp heq)⟩
  · exact hforeign name (owns_iff.mpr ⟨x, hx⟩) (owns_iff.mpr ⟨y, hy⟩)
  · rw [Bool.eq_false_iff, ne_eq, Engine.hasIndex_readBy, not_and]
    exact fun _ => hforeign name (Engine.hasIndex_readBy.mp hname).2
  · exact hforeign _ (a.owns_nameOf m) (heq ▸ b.owns_nameOf n)

/-- **No name belongs to two groups.**  Groups with different full names have no name in common, and
neither do the indices that their views come from.  No index has the name of its group's alias, and
whatever goes wrong, a rotation puts none on the name of any alias. -/
theorem names_separate :
    (∀ a b : IndexGroup, a.fullName ≠ b.fullName → a.Separate b) ∧
    (∀ (group : IndexGroup) (desk : Scene → Job → Except Error Unit) (s : Scene),
      (group.view.run (Scene.handler desk) { s with engine := s.engine.readBy group }).2 =
        (group.view.run (Scene.handler desk) s).2) ∧
    (∀ (group : IndexGroup) (n : UInt64), group.nameOf n ≠ group.aliasName) ∧
    ∀ (group : IndexGroup) (maxSegments : UInt32) (s : Scene) rest s',
      Leads erratic (group.rotate maxSegments, s) (rest, s') →
        ∀ other : IndexGroup, s.engine.hasIndex other.aliasName = false →
          s'.engine.hasIndex other.aliasName = false := by
  refine ⟨fun a b => IndexGroup.separate, fun group desk s => ?_,
    fun group => IndexGroup.nameOf_ne_aliasName group group,
    fun group maxSegments s rest s' hleads other hfree => ?_⟩
  · rw [IndexGroup.run_view, IndexGroup.run_view, Engine.viewOf_readBy]
    rfl
  · exact (tendsTo_rotate group maxSegments).hasIndex_aliasName hleads hfree

/-- The full name of one group is the alias of the other.  They have no name in common all the same,
and rotating the one leaves the other's alias its name. -/
theorem names_separate_of_lookalikes :
    let group : IndexGroup := ⟨"graylog", "internal"⟩
    let other : IndexGroup := ⟨"graylog", "internal_deflector"⟩
    let s : Scene := { engine := Engine.serving group 3 }
    let after := ((group.rotate 1).run (Scene.handler fun _ _ => .ok ()) s).1
    group.aliasName = other.fullName ∧ group.fullName ≠ other.fullName ∧
      (∀ m n, group.nameOf m ≠ other.nameOf n) ∧
      group.parse other.aliasName ≠ .ok (.writeAlias group.fullName) ∧
      s.engine.hasIndex other.aliasName = false ∧ after.engine.hasIndex other.aliasName = false := by
  intro group other s after
  obtain ⟨hseparate, -, -, hrotate⟩ := names_separate
  have hne : group.fullName ≠ other.fullName := by decide
  have hfree : s.engine.hasIndex other.aliasName = false := by decide +kernel
  have hleads := Leads.mono (leads_run (group.rotate 1) s fun _ _ => .ok ())
    Environment.erratic_of_calm
  refine ⟨by decide, hne, (hseparate group other hne).nameOf, fun h => ?_, hfree,
    hrotate group 1 s _ _ hleads other hfree⟩
  exact (hseparate group other hne).parse _ _ _ h other.parse_aliasName

end Rollover
