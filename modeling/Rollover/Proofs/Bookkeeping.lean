import Rollover.Proofs.Sound

/-!
# How an engine keeps its books

An engine has three things that must fit together: its indices, its aliases, and what it writes down
about both.  Indices and aliases share one space of names, an alias points to indices that exist,
and the history of an alias ends with what the alias is on.  This holds of every engine that came
into being by calls, whatever they asked for and however they ended
(`Engine.after_ofIndices_keeps_books`).

What a call can do to the contents of an engine is said once, with a case for each way
(`Engine.Response`, `Engine.respond_response`).  Everything else is read off the cases: a reply that
declines a call comes with no change (`Engine.Response.eq_of_declined`), names stay apart and
targets exist (`Engine.Response.consistent`), and each alias is as before or retargeted
(`Engine.Response.aliasState`), which is all that its history needs.

The last of these is also true of the changes that are made from outside of the conversation
(`Engine.Deed`).  The others are not: an index that is put into an engine may take the name of an
alias.
-/

namespace Rollover

/-- The replies that decline a call: it fails, or the answer is "no". -/
inductive EngineCall.Declined : (call : EngineCall) → call.Reply → Prop
  | failed (call : EngineCall) (cause : EngineError) : Declined call (.error cause)
  | noAlias (aliasName : String) : Declined (.aliasExists aliasName) (.ok false)
  | notCreated (name : String) : Declined (.createIndex name) (.ok false)
  | notDeleted (name : String) : Declined (.deleteIndex name) (.ok false)

/-! ## Histories -/

namespace AliasState

variable {state state' : AliasState}

/-- The history ends with the targets.  Without a history there are none. -/
def UpToDate (state : AliasState) : Prop :=
  state.targets.toList = state.history.getLast?.getD []

theorem upToDate_empty : ({} : AliasState).UpToDate := rfl

theorem upToDate_retarget (state : AliasState) (targets : Std.ExtTreeSet String) :
    (state.retarget targets).UpToDate := by
  rw [UpToDate, targets_retarget, history_retarget, List.getLast?_concat, Option.getD_some]

/-- The alias is as it was, or its targets have changed. -/
def Moves (state state' : AliasState) : Prop :=
  state' = state ∨ ∃ targets, state' = state.retarget targets

theorem moves_forget (state : AliasState) (name : String) : state.Moves (state.forget name) := by
  rw [forget]
  split
  · exact Or.inr ⟨_, rfl⟩
  · exact Or.inl rfl

theorem Moves.upToDate (h : state.Moves state') (hstate : state.UpToDate) : state'.UpToDate := by
  rcases h with rfl | ⟨targets, rfl⟩
  · exact hstate
  · exact upToDate_retarget state targets

theorem Moves.prefix_history (h : state.Moves state') : state.history <+: state'.history := by
  rcases h with rfl | ⟨targets, rfl⟩
  · exact List.prefix_refl _
  · exact List.prefix_append _ _

end AliasState

namespace Engine

variable {e e' : Engine} {call : EngineCall} {reply : call.Reply}

/-! ## What a call can do -/

/-- What a call can do to an engine that is available. -/
inductive Response (e : Engine) : (call : EngineCall) → call.Reply → Engine → Prop
  /-- Nothing changes. -/
  | same (call : EngineCall) (reply : call.Reply) : Response e call reply e
  /-- An index is created under a name that neither an index nor an alias has. -/
  | created (name : String) (hfree : e.hasIndex name = false)
      (hunclaimed : e.aliases.contains name = false) :
    Response e (.createIndex name) (.ok true) { e with indices := e.indices.insert name {} }
  /-- An index is deleted, and every alias forgets it. -/
  | deleted (name : String) :
    Response e (.deleteIndex name) (.ok true) { e with
      indices := e.indices.erase name
      aliases := e.aliases.map fun _ state => state.forget name }
  /-- An index changes. -/
  | updated (call : EngineCall) (reply : call.Reply) (haccepted : ¬ call.Declined reply)
      (name : String) (state : IndexState) (hindex : e.hasIndex name = true) :
    Response e call reply { e with indices := e.indices.insert name state }
  /-- An alias that has no index's name moves to an index. -/
  | moved (aliasName add : String) (remove : Option String)
      (hcollision : e.hasIndex aliasName = false) (hindex : e.hasIndex add = true) :
    Response e (.moveAlias aliasName add remove) (.ok ()) { e with
      aliases := e.aliases.insert aliasName
        ((e.aliasState aliasName).retarget (e.movedTargets aliasName add remove)) }

/-- **What a call does to an engine** is one of these. -/
theorem respond_response (e : Engine) (call : EngineCall) :
    e.Response call (e.respond call).2 (e.respond call).1 := by
  cases call with
  | listIndices | aliasExists | aliasTarget => exact .same _ _
  | createIndex name =>
    simp only [respond]
    split
    · exact .same _ _
    · next h =>
      simp only [Bool.or_eq_true, not_or, Bool.not_eq_true] at h
      exact .created name h.1.2 h.2
  | deleteIndex name =>
    simp only [respond]
    split
    · exact .deleted name
    · exact .same _ _
  | flush name =>
    simp only [respond]
    split
    · exact .same _ _
    · next state hstate =>
      split
      · exact .updated _ _ (fun h => by cases h) name _ (hasIndex_iff.mpr ⟨state, hstate⟩)
      · exact .same _ _
  | setReadOnly name | optimize name =>
    simp only [respond, updateIndex]
    split
    · exact .same _ _
    · next state hstate =>
      exact .updated _ _ (fun h => by cases h) name _ (hasIndex_iff.mpr ⟨state, hstate⟩)
  | moveAlias aliasName add remove =>
    simp only [respond]
    split
    · exact .same _ _
    · next hcollision =>
      split
      · exact .same _ _
      · next hindex =>
        exact .moved aliasName add remove (by simpa using hcollision) (by simpa using hindex)

/-- The log is written before the engine responds, and not again. -/
theorem Response.log (h : e.Response call reply e') : e'.log = e.log := by
  cases h <;> rfl

/-- A call that is declined changes nothing. -/
theorem Response.eq_of_declined (h : e.Response call reply e') (hdeclined : call.Declined reply) :
    e' = e := by
  cases h with
  | same => rfl
  | updated _ _ haccepted => exact absurd hdeclined haccepted
  | created | deleted | moved => cases hdeclined

theorem mem_movedTargets {aliasName add target : String} {remove : Option String}
    (h : target ∈ e.movedTargets aliasName add remove) :
    target = add ∨ target ∈ e.targetsOf aliasName := by
  cases remove with
  | none =>
    rw [movedTargets, Std.ExtTreeSet.mem_insert, Std.LawfulEqOrd.compare_eq_iff_eq] at h
    exact h.imp_left Eq.symm
  | some old =>
    rw [movedTargets, Std.ExtTreeSet.mem_insert, Std.LawfulEqOrd.compare_eq_iff_eq,
      Std.ExtTreeSet.mem_erase] at h
    exact h.imp Eq.symm And.right

/-- Every alias is as it was, or its targets have changed. -/
theorem Response.aliasState (h : e.Response call reply e') (aliasName : String) :
    (e.aliasState aliasName).Moves (e'.aliasState aliasName) := by
  cases h with
  | same | created | updated => exact Or.inl rfl
  | deleted name =>
    rw [aliasState_forget]
    exact AliasState.moves_forget _ name
  | moved moving add remove =>
    rw [aliasState_insert]
    split
    · next heq =>
      rw [heq]
      exact Or.inr ⟨_, rfl⟩
    · exact Or.inl rfl

/-! ## One space of names -/

/-- The indices and aliases of an engine fit together. -/
structure Consistent (e : Engine) : Prop where
  /-- Every target of an alias is an index. -/
  hasIndex : ∀ aliasName target, target ∈ e.targetsOf aliasName → e.hasIndex target = true
  /-- No index has the name of an alias, be it one without targets. -/
  apart : ∀ aliasName, e.aliases.contains aliasName = true → e.hasIndex aliasName = false

/-- Indices and aliases fit together after every call, if they did before. -/
theorem Response.consistent (h : e.Response call reply e') (he : e.Consistent) :
    e'.Consistent := by
  cases h with
  | same => exact he
  | created name hfree hunclaimed =>
    constructor
    · intro aliasName target htarget
      exact hasIndex_insert.mpr (Or.inr (he.hasIndex aliasName target htarget))
    · intro aliasName halias
      rw [Bool.eq_false_iff, Ne, hasIndex_insert, not_or]
      refine ⟨?_, Bool.eq_false_iff.mp (he.apart aliasName halias)⟩
      rintro rfl
      rw [hunclaimed] at halias
      cases halias
  | deleted name =>
    constructor
    · intro aliasName target htarget
      rw [targetsOf, aliasState_forget, AliasState.targets_forget, Std.ExtTreeSet.mem_erase, Ne,
        Std.LawfulEqOrd.compare_eq_iff_eq] at htarget
      exact hasIndex_erase.mpr
        ⟨fun heq => htarget.1 heq.symm, he.hasIndex aliasName target htarget.2⟩
    · intro aliasName halias
      rw [Std.ExtTreeMap.contains_map] at halias
      rw [Bool.eq_false_iff, Ne, hasIndex_erase, not_and, Bool.not_eq_true]
      exact fun _ => he.apart aliasName halias
  | updated _ _ _ name state hindex =>
    constructor
    · intro aliasName target htarget
      rw [hasIndex_update hindex]
      exact he.hasIndex aliasName target htarget
    · intro aliasName halias
      rw [hasIndex_update hindex]
      exact he.apart aliasName halias
  | moved moving add remove hcollision hindex =>
    constructor
    · intro aliasName target htarget
      rw [targetsOf, aliasState_insert] at htarget
      split at htarget
      · rcases mem_movedTargets htarget with rfl | hold
        · exact hindex
        · exact he.hasIndex moving target hold
      · exact he.hasIndex aliasName target htarget
    · intro aliasName halias
      rw [Std.ExtTreeMap.contains_insert, Bool.or_eq_true, beq_iff_eq,
        Std.LawfulEqOrd.compare_eq_iff_eq] at halias
      rcases halias with rfl | hold
      · exact hcollision
      · exact he.apart aliasName hold

/-! ## What is done to an engine -/

/-- **A call is logged, and then the engine responds to it.**  While it is unavailable it responds
with an error. -/
theorem perform_response (e : Engine) (call : EngineCall) :
    (e.logged call).Response call (e.perform call).2 (e.perform call).1 := by
  cases havailable : e.unavailable with
  | true =>
    rw [perform_of_unavailable havailable]
    exact .same _ _
  | false =>
    rw [perform_of_available havailable]
    exact respond_response _ call

/-- Something that is done to an engine: a call, or a change from outside of the conversation. -/
inductive Deed where
  | call (request : EngineCall)
  | setUnavailable (on : Bool)
  | refuseCreates (on : Bool)
  | clearLog
  | insertIndex (name : String) (stats : IndexStats)
  | bindAlias (aliasName target : String)
  deriving DecidableEq, Repr

namespace Deed

/-- Whether the deed puts an index or an alias into the engine without asking it. -/
def isPreparation : Deed → Bool
  | .insertIndex _ _ | .bindAlias _ _ => true
  | _ => false

/-- What the deed says about whether the engine is unavailable. -/
def outage? : Deed → Option Bool
  | .setUnavailable on => some on
  | _ => none

end Deed

/-- The engine after a deed. -/
def undergo (e : Engine) : Deed → Engine
  | .call request => (e.perform request).1
  | .setUnavailable on => { e with unavailable := on }
  | .refuseCreates on => { e with refusesCreates := on }
  | .clearLog => e.clearLog
  | .insertIndex name stats => e.insertIndex name stats
  | .bindAlias aliasName target => e.bindAlias aliasName target

/-- The engine after a number of deeds. -/
def after (e : Engine) (deeds : List Deed) : Engine :=
  deeds.foldl undergo e

theorem after_cons (e : Engine) (deed : Deed) (deeds : List Deed) :
    e.after (deed :: deeds) = (e.undergo deed).after deeds := rfl

/-- A deed that is no preparation leaves indices and aliases fitting together. -/
theorem undergo_consistent (deed : Deed) (hdeed : deed.isPreparation = false)
    (he : e.Consistent) : (e.undergo deed).Consistent := by
  cases deed with
  | call request => exact (perform_response e request).consistent ⟨he.hasIndex, he.apart⟩
  | setUnavailable | refuseCreates | clearLog => exact ⟨he.hasIndex, he.apart⟩
  | insertIndex | bindAlias => cases hdeed

theorem after_consistent (deeds : List Deed) (hdeeds : ∀ deed ∈ deeds, deed.isPreparation = false)
    (he : e.Consistent) : (e.after deeds).Consistent := by
  induction deeds generalizing e with
  | nil => exact he
  | cons deed deeds ih =>
    rw [List.forall_mem_cons] at hdeeds
    exact ih hdeeds.2 (undergo_consistent deed hdeeds.1 he)

/-- Whatever is done, an alias is as it was or its targets have changed. -/
theorem undergo_aliasState (e : Engine) (deed : Deed) (aliasName : String) :
    (e.aliasState aliasName).Moves ((e.undergo deed).aliasState aliasName) := by
  cases deed with
  | call request => exact (perform_response e request).aliasState aliasName
  | setUnavailable | refuseCreates | clearLog | insertIndex => exact Or.inl rfl
  | bindAlias bound target =>
    rw [undergo, bindAlias, aliasState_insert]
    split
    · next heq =>
      rw [heq]
      exact Or.inr ⟨_, rfl⟩
    · exact Or.inl rfl

theorem after_upToDate (deeds : List Deed) (aliasName : String)
    (he : (e.aliasState aliasName).UpToDate) : ((e.after deeds).aliasState aliasName).UpToDate := by
  induction deeds generalizing e with
  | nil => exact he
  | cons deed deeds ih => exact ih ((undergo_aliasState e deed aliasName).upToDate he)

/-- Histories only grow, and they grow at the end. -/
theorem historyOf_prefix_after (e : Engine) (deeds : List Deed) (aliasName : String) :
    e.historyOf aliasName <+: (e.after deeds).historyOf aliasName := by
  induction deeds generalizing e with
  | nil => exact List.prefix_refl _
  | cons deed deeds ih =>
    exact (undergo_aliasState e deed aliasName).prefix_history.trans (ih (e.undergo deed))

/-- Whether an engine is unavailable is what was last said about it. -/
theorem unavailable_after (e : Engine) (deeds : List Deed) :
    (e.after deeds).unavailable = (deeds.filterMap Deed.outage?).getLast?.getD e.unavailable := by
  induction deeds generalizing e with
  | nil => rfl
  | cons deed deeds ih =>
    rw [after_cons, ih, List.filterMap_cons]
    cases deed with
    | call request =>
      rw [undergo, (e.perform_switches request).1]
      rfl
    | setUnavailable on =>
      rw [Deed.outage?, List.getLast?_cons, Option.getD_some]
      rfl
    | refuseCreates | clearLog | insertIndex | bindAlias => rfl

/-! ## Engines from their beginnings -/

/-- Inserting indices changes nothing else. -/
theorem ofIndices_eq (names : List String) :
    ofIndices names = { indices := (ofIndices names).indices } := by
  have hfold : ∀ e : Engine, names.foldl (fun e name => e.insertIndex name {}) e =
      { e with indices := (names.foldl (fun e name => e.insertIndex name {}) e).indices } := by
    induction names with
    | nil => exact fun e => rfl
    | cons name names ih => exact fun e => ih (e.insertIndex name {})
  exact hfold {}

theorem aliases_ofIndices (names : List String) : (ofIndices names).aliases = ∅ :=
  congrArg Engine.aliases (ofIndices_eq names)

theorem aliasState_ofIndices (names : List String) (aliasName : String) :
    (ofIndices names).aliasState aliasName = {} := by
  rw [aliasState, aliases_ofIndices, Std.ExtTreeMap.getElem?_empty, Option.getD_none]

theorem consistent_ofIndices (names : List String) : (ofIndices names).Consistent := by
  constructor
  · intro aliasName target htarget
    rw [targetsOf, aliasState_ofIndices] at htarget
    exact absurd htarget Std.ExtTreeSet.not_mem_empty
  · intro aliasName halias
    rw [aliases_ofIndices, Std.ExtTreeMap.contains_empty] at halias
    cases halias

/-- **An engine keeps its books.**  Take an engine that began with any indices, and anything that
was done to it since.

* If all of that went through calls, its indices and aliases fit together.
* An alias is on what its history ends with, and on nothing if it has no history.
* Whatever is done next, every history is continued at its end.
* The next call is logged, once; if it is declined, nothing else changes; and while the engine is
  said to be unavailable, it fails for that reason. -/
theorem after_ofIndices_keeps_books (names : List String) (deeds : List Deed) :
    let e := (ofIndices names).after deeds
    ((∀ deed ∈ deeds, deed.isPreparation = false) → e.Consistent) ∧
      (∀ aliasName, (e.targetsOf aliasName).toList = (e.historyOf aliasName).getLast?.getD []) ∧
      (∀ more aliasName, e.historyOf aliasName <+: (e.after more).historyOf aliasName) ∧
      ∀ call, (e.perform call).1.log = e.log.push call ∧
        (call.Declined (e.perform call).2 → (e.perform call).1 = e.logged call) ∧
        ((deeds.filterMap Deed.outage?).getLast? = some true →
          ∃ message, (e.perform call).2 = .error (.unreachable message)) := by
  intro e
  refine ⟨fun hcalls => after_consistent deeds hcalls (consistent_ofIndices names),
    fun aliasName => ?_, fun more aliasName => historyOf_prefix_after e more aliasName,
    fun call => ⟨(perform_response e call).log, (perform_response e call).eq_of_declined,
      fun houtage => ?_⟩⟩
  · refine after_upToDate deeds aliasName ?_
    rw [aliasState_ofIndices]
    exact AliasState.upToDate_empty
  · have hunavailable : e.unavailable = true := by
      rw [unavailable_after, houtage, Option.getD_some]
    rw [perform_of_unavailable hunavailable]
    exact ⟨_, rfl⟩

/-- An alias moves to an index, the index is deleted, and then the engine becomes unavailable.  The
alias has two sets behind it, the second empty, and its name stays taken.  A call for an index of
that name fails. -/
theorem keeps_books_of_emptied_alias :
    let e := (ofIndices ["a", "b"]).after
      [.call (.moveAlias "w" "a" none), .call (.deleteIndex "a"), .setUnavailable true]
    e.Consistent ∧ e.aliases.contains "w" = true ∧ e.historyOf "w" = [["a"], []] ∧
      (e.targetsOf "w").toList = [] ∧
      [["a"], []] <+: (e.after [.bindAlias "w" "b"]).historyOf "w" ∧
      (e.perform (.createIndex "w")).1 = e.logged (.createIndex "w") ∧
      (∃ message, (e.perform (.createIndex "w")).2 = .error (.unreachable message)) := by
  intro e
  obtain ⟨hconsistent, htargets, hgrows, hcall⟩ := after_ofIndices_keeps_books ["a", "b"]
    [.call (.moveAlias "w" "a" none), .call (.deleteIndex "a"), .setUnavailable true]
  obtain ⟨-, hdeclined, hfails⟩ := hcall (.createIndex "w")
  have hhistory : e.historyOf "w" = [["a"], []] := by decide +kernel
  obtain ⟨message, hmessage⟩ := hfails rfl
  refine ⟨hconsistent (by decide), by decide +kernel, hhistory, ?_, ?_, hdeclined ?_, message,
    hmessage⟩
  · rw [htargets "w", hhistory]
    rfl
  · rw [← hhistory]
    exact hgrows [.bindAlias "w" "b"] "w"
  · rw [hmessage]
    exact .failed _ _

end Engine
end Rollover
