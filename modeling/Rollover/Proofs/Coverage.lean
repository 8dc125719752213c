import Rollover.IndexRange
import Rollover.Proofs.Enumeration
import Rollover.Proofs.Listing

/-!
# Where a search has to look

The ranges of a group are a picture of the engine as it was when they were last read.  This file
says of which moment the picture is, and that it is complete.

1. What a single rebuild does is the step.  It lists the indices, and nothing else.  If the listing
   fails the table stays as it is; otherwise the group has one range for each of its indices, and
   no group with another full name has lost or gained any (`RangeTable.rebuild_step`).
2. A table that came into being by rebuilds has for each group the ranges of the last rebuild that
   succeeded for its full name (`Rebuild.lastOf?`), whatever came in between and after.
3. An index is searched if both ends of its range are known and the range meets the span of time.
   If range and span are what they should be, the index is searched exactly if they have a point in
   common (`IndexRange.exists_common_iff`).

`Rebuilds.exact` puts the three together.  The order in which an engine lists its indices makes no
difference to any of this.
-/

namespace Rollover

open Program

/-! ## Overlaps -/

namespace IndexRange

variable {range : IndexRange} {first last earliest latest : UInt64}

/-- A range overlaps with a span of time if both of its ends are known, and neither of the two is
over before the other begins. -/
theorem overlaps_iff : range.overlaps first last = true ↔ ∃ earliest latest,
    range.earliest = some earliest ∧ range.latest = some latest ∧
      earliest ≤ last ∧ first ≤ latest := by
  unfold overlaps
  cases range.earliest with
  | none => simp
  | some earliest =>
    cases range.latest with
    | none => simp
    | some latest => simp

/-- Two spans of time have a point in common if neither is over before the other begins. -/
theorem exists_common_iff (hspan : first ≤ last) (hrange : earliest ≤ latest) :
    earliest ≤ last ∧ first ≤ latest ↔
      ∃ time, (earliest ≤ time ∧ time ≤ latest) ∧ first ≤ time ∧ time ≤ last := by
  constructor
  · rintro ⟨hlast, hfirst⟩
    -- the later one of the two beginnings is in both
    rcases UInt64.le_total first earliest with hle | hle
    · exact ⟨earliest, ⟨UInt64.le_refl _, hrange⟩, hle, hlast⟩
    · exact ⟨first, ⟨hle, hfirst⟩, UInt64.le_refl _, hspan⟩
  · rintro ⟨time, ⟨hearliest, hlatest⟩, hfirst, hlast⟩
    exact ⟨UInt64.le_trans hearliest hlast, UInt64.le_trans hfirst hlatest⟩

end IndexRange

/-! ## The ranges that an engine makes -/

namespace Engine

variable {e : Engine}

/-- An index is listed with its statistics. -/
theorem mem_listing {name : String} {stats : IndexStats} :
    (name, stats) ∈ e.listing ↔ ∃ state, e.indices[name]? = some state ∧ state.stats = stats := by
  rw [listing, List.mem_map]
  constructor
  · rintro ⟨⟨key, state⟩, hmem, heq⟩
    obtain ⟨rfl, rfl⟩ := Prod.mk.inj heq
    exact ⟨state, Std.ExtTreeMap.mem_toList_iff_getElem?_eq_some.mp hmem, rfl⟩
  · rintro ⟨state, hstate, rfl⟩
    exact ⟨(name, state), Std.ExtTreeMap.mem_toList_iff_getElem?_eq_some.mpr hstate, rfl⟩

/-- The ranges are those of the indices that the group reads as its own, one for each, in the order
of their numbers. -/
structure Spans (e : Engine) (group : IndexGroup) (ranges : List IndexRange) : Prop where
  mem_iff : ∀ range, range ∈ ranges ↔ ∃ state, e.indices[range.index]? = some state ∧
    group.parse range.index = .ok (.ordinary group.fullName range.number) ∧
    range.earliest = state.stats.earliest ∧ range.latest = state.stats.latest
  nodup : (ranges.map IndexRange.index).Nodup
  ascending : ranges.Pairwise fun a b => a.number ≤ b.number

end Engine

/-- Other orders of a listing have the same members. -/
theorem IndexGroup.members_perm {listing listing' : Listing} (h : listing.Perm listing')
    (group : IndexGroup) : (group.members listing).Perm (group.members listing') := by
  rw [members, members]
  exact ((List.mergeSort_perm _ _).trans (h.filterMap _)).trans (List.mergeSort_perm _ _).symm

/-- **The ranges of the members are the ranges of the group's indices**, in whatever order these are
listed. -/
theorem Engine.spans_members {e : Engine} {listing : Listing} (h : listing.Perm e.listing)
    (group : IndexGroup) : e.Spans group ((group.members listing).map IndexRange.ofMember) := by
  refine ⟨fun range => ?_, ?_, ?_⟩
  · rw [List.mem_map]
    constructor
    · rintro ⟨member, hmember, rfl⟩
      obtain ⟨hentry, hnumber⟩ := IndexGroup.mem_members.mp hmember
      obtain ⟨state, hstate, hstats⟩ := mem_listing.mp (h.mem_iff.mp hentry)
      refine ⟨state, hstate, IndexGroup.numberOf?_eq_some_iff_parse.mp hnumber, ?_, ?_⟩
      · rw [hstats, IndexRange.ofMember]
      · rw [hstats, IndexRange.ofMember]
    · rintro ⟨state, hstate, hparse, hearliest, hlatest⟩
      refine ⟨⟨range.number, range.index, state.stats⟩, IndexGroup.mem_members.mpr ⟨?_, ?_⟩, ?_⟩
      · exact h.mem_iff.mpr (mem_listing.mpr ⟨state, hstate, rfl⟩)
      · exact IndexGroup.numberOf?_eq_some_iff_parse.mpr hparse
      · rw [IndexRange.ofMember, ← hearliest, ← hlatest]
  · have hnames : ((group.members listing).map IndexRange.ofMember).map IndexRange.index =
        (group.members listing).map Member.name := by
      rw [List.map_map]
      rfl
    rw [hnames, ((IndexGroup.members_perm h group).map Member.name).nodup_iff]
    exact e.memberNames_nodup group
  · rw [List.pairwise_map]
    exact group.members_pairwise listing

/-! ## The ranges in a table -/

namespace RangeTable

variable {table : RangeTable} {e : Engine} {group other : IndexGroup} {members : List Member}

theorem rangesOf_congr (table : RangeTable) (h : group.fullName = other.fullName) :
    table.rangesOf group = table.rangesOf other := by
  rw [rangesOf, h, rangesOf]

theorem rangesOf_replace_self (table : RangeTable) (group : IndexGroup) (members : List Member) :
    (table.replace group members).rangesOf group = members.map IndexRange.ofMember := by
  rw [rangesOf, replace, Std.ExtTreeMap.getD_insert_self]

theorem rangesOf_replace_of_ne (h : other.fullName ≠ group.fullName) :
    (table.replace group members).rangesOf other = table.rangesOf other := by
  rw [rangesOf, replace, Std.ExtTreeMap.getD_insert, if_neg, rangesOf]
  rw [Std.LawfulEqOrd.compare_eq_iff_eq]
  exact Ne.symm h

theorem mem_covering {first last : UInt64} {name : String} :
    name ∈ table.covering group first last ↔
      ∃ range ∈ table.rangesOf group, range.overlaps first last = true ∧ range.index = name := by
  simp only [covering, List.mem_map, List.mem_filter, and_assoc]

/-- The table shows a group as an engine holds it, and shows where a search of the group has to
look. -/
structure Reflects (table : RangeTable) (e : Engine) (group : IndexGroup) : Prop where
  spans : e.Spans group (table.rangesOf group)
  /-- The indices to be searched are some of those that have ranges, in the same order. -/
  sublist_covering : ∀ first last,
    (table.covering group first last).Sublist ((table.rangesOf group).map IndexRange.index)
  mem_covering_iff : ∀ first last name, name ∈ table.covering group first last ↔
    ∃ state n earliest latest, e.indices[name]? = some state ∧
      group.parse name = .ok (.ordinary group.fullName n) ∧
      state.stats.earliest = some earliest ∧ state.stats.latest = some latest ∧
      earliest ≤ last ∧ first ≤ latest
  /-- No index is missed: one that has documents from a span of time is searched. -/
  mem_covering_iff_exists : ∀ first last, first ≤ last →
    ∀ name state n earliest latest, e.indices[name]? = some state →
      group.parse name = .ok (.ordinary group.fullName n) →
      state.stats.earliest = some earliest → state.stats.latest = some latest →
      earliest ≤ latest → (name ∈ table.covering group first last ↔
        ∃ time, (earliest ≤ time ∧ time ≤ latest) ∧ first ≤ time ∧ time ≤ last)

/-- Where a search has to look is settled by the ranges. -/
theorem Reflects.of_spans (h : e.Spans group (table.rangesOf group)) : table.Reflects e group := by
  have hmem : ∀ first last name, name ∈ table.covering group first last ↔
      ∃ state n earliest latest, e.indices[name]? = some state ∧
        group.parse name = .ok (.ordinary group.fullName n) ∧
        state.stats.earliest = some earliest ∧ state.stats.latest = some latest ∧
        earliest ≤ last ∧ first ≤ latest := by
    intro first last name
    rw [mem_covering]
    constructor
    · rintro ⟨range, hrange, hoverlaps, rfl⟩
      obtain ⟨state, hstate, hparse, hearliest, hlatest⟩ := (h.mem_iff range).mp hrange
      obtain ⟨earliest, latest, hearliest', hlatest', hmeet⟩ := IndexRange.overlaps_iff.mp hoverlaps
      exact ⟨state, range.number, earliest, latest, hstate, hparse, hearliest.symm.trans hearliest',
        hlatest.symm.trans hlatest', hmeet⟩
    · rintro ⟨state, n, earliest, latest, hstate, hparse, hearliest, hlatest, hmeet⟩
      refine ⟨⟨name, n, some earliest, some latest⟩, (h.mem_iff _).mpr ?_, ?_, rfl⟩
      · exact ⟨state, hstate, hparse, hearliest.symm, hlatest.symm⟩
      · exact IndexRange.overlaps_iff.mpr ⟨earliest, latest, rfl, rfl, hmeet⟩
  refine ⟨h, fun first last => List.filter_sublist.map _, hmem, ?_⟩
  intro first last hspan name state n earliest latest hstate hparse hearliest hlatest hrange
  rw [hmem, ← IndexRange.exists_common_iff hspan hrange]
  constructor
  · rintro ⟨state', -, earliest', latest', hstate', -, hearliest', hlatest', hmeet⟩
    obtain rfl := Option.some.inj (hstate.symm.trans hstate')
    obtain rfl := Option.some.inj (hearliest.symm.trans hearliest')
    obtain rfl := Option.some.inj (hlatest.symm.trans hlatest')
    exact hmeet
  · exact fun hmeet => ⟨state, n, earliest, latest, hstate, hparse, hearliest, hlatest, hmeet⟩

/-- Groups with one full name are shown by the same ranges. -/
theorem Reflects.congr (hname : group.fullName = other.fullName) (h : table.Reflects e group) :
    table.Reflects e other := by
  refine .of_spans ⟨fun range => ?_, ?_, ?_⟩
  · rw [← table.rangesOf_congr hname, h.spans.mem_iff, IndexGroup.parse_congr hname, hname]
  · rw [← table.rangesOf_congr hname]
    exact h.spans.nodup
  · rw [← table.rangesOf_congr hname]
    exact h.spans.ascending

/-! ## A rebuild -/

/-- What a rebuild of a group makes of a table.  The listing either fails or does not. -/
structure Rebuilt (table : RangeTable) (group : IndexGroup) (s : Scene)
    (failure : Option EngineError) (after : Scene × RangeTable × Except Error Nat) : Prop where
  /-- The engine is asked, and nothing else is done. -/
  quiet : s.Quiet after.1
  failed : ∀ cause, failure = some cause → after.2 = (table, .error (.engineUnavailable cause))
  succeeded : failure = none → after.2.1.Reflects s.engine group ∧
    after.2.2 = .ok (after.2.1.rangesOf group).length
  others : ∀ other, other.fullName ≠ group.fullName →
    after.2.1.rangesOf other = table.rangesOf other

variable {order : Listing → Listing}

/-- How a rebuild goes. -/
theorem upholds_rebuild (lost : EngineCall → Option EngineError) (table : RangeTable)
    (group : IndexGroup) (s : Scene) :
    (table.rebuild group).Upholds (Environment.enquired order lost)
      (fun _ effect => effect.isRead = true) (fun result s' => s.Quiet s' ∧ result =
        match s.engine.failure? lost .listIndices with
        | some cause => (table, .error (.engineUnavailable cause))
        | none => (table.replace group (group.members (order s.engine.listing)),
            .ok (group.members (order s.engine.listing)).length)) s := by
  unfold rebuild IndexGroup.memberStats
  refine upholds_bind.mpr (upholds_ask.mpr ⟨rfl, fun reply e₁ h₁ => ?_⟩)
  have hasked := Environment.asked_of_enquired rfl h₁
  have hreply := h₁.1.trans (s.engine.answer_read rfl order lost)
  cases hfail : s.engine.failure? lost .listIndices with
  | some cause | none =>
    rw [hfail] at hreply
    subst hreply
    exact ⟨hasked.quiet, rfl⟩

/-- **What a rebuild does.** -/
theorem rebuild_step (horder : ∀ listing, (order listing).Perm listing)
    (lost : EngineCall → Option EngineError) (desk : Scene → Job → Except Error Unit)
    (table : RangeTable) (group : IndexGroup) (s : Scene) :
    table.Rebuilt group s (s.engine.failure? lost .listIndices)
      ((table.rebuild group).run (Scene.handlerIn order lost desk) s) := by
  obtain ⟨hquiet, hresult⟩ := (upholds_rebuild lost table group s).run_in desk
  cases hfail : s.engine.failure? lost .listIndices with
  | some cause =>
    rw [hfail] at hresult
    refine ⟨hquiet, ?_, nofun, fun other _ => by rw [hresult]⟩
    rintro _ ⟨⟩
    exact hresult
  | none =>
    rw [hfail] at hresult
    refine ⟨hquiet, nofun, fun _ => ?_, fun other hne => ?_⟩
    · rw [hresult]
      dsimp only
      rw [rangesOf_replace_self, List.length_map]
      refine ⟨.of_spans ?_, rfl⟩
      rw [rangesOf_replace_self]
      exact Engine.spans_members (horder _) group
    · rw [hresult]
      exact rangesOf_replace_of_ne hne

end RangeTable

/-! ## One rebuild after the other -/

/-- A rebuild that was made: of which group, from which engine, and with which result. -/
structure Rebuild where
  group : IndexGroup
  engine : Engine
  result : Except Error Nat

namespace Rebuild

/-- The last successful rebuild of a group with the full name of the given one.  Rebuilds are listed
with the newest first. -/
def lastOf? (group : IndexGroup) (past : List Rebuild) : Option Rebuild :=
  past.find? fun rebuild => rebuild.group.fullName == group.fullName && rebuild.result.isOk

variable {group : IndexGroup} {rebuild : Rebuild} {past : List Rebuild}

theorem lastOf?_cons_of_ok (hname : rebuild.group.fullName = group.fullName)
    (hok : rebuild.result.isOk = true) : lastOf? group (rebuild :: past) = some rebuild := by
  rw [lastOf?, List.find?_cons_of_pos]
  rw [hok, beq_iff_eq.mpr hname]
  rfl

theorem lastOf?_cons_of_error (hfailed : rebuild.result.isOk = false) :
    lastOf? group (rebuild :: past) = lastOf? group past := by
  rw [lastOf?, List.find?_cons_of_neg, lastOf?]
  rw [hfailed, Bool.and_false]
  exact Bool.false_ne_true

theorem lastOf?_cons_of_ne (hname : rebuild.group.fullName ≠ group.fullName) :
    lastOf? group (rebuild :: past) = lastOf? group past := by
  rw [lastOf?, List.find?_cons_of_neg, lastOf?]
  rw [beq_false_of_ne hname, Bool.false_and]
  exact Bool.false_ne_true

end Rebuild

/-- A table came into being by rebuilds, listed with the newest first.  Each finds an engine of its
own, which lists its indices in an order of its own, and may fail. -/
inductive Rebuilds : List Rebuild → RangeTable → Prop
  /-- Nothing was rebuilt yet. -/
  | start : Rebuilds [] ∅
  /-- One group more was rebuilt, or could not be. -/
  | rebuild {past : List Rebuild} {table : RangeTable} (h : Rebuilds past table)
      {order : Listing → Listing} (horder : ∀ listing, (order listing).Perm listing)
      (lost : EngineCall → Option EngineError) (desk : Scene → Job → Except Error Unit)
      (group : IndexGroup) (s : Scene) {after : Scene × RangeTable × Except Error Nat}
      (hafter : (table.rebuild group).run (Scene.handlerIn order lost desk) s = after) :
    Rebuilds (⟨group, s.engine, after.2.2⟩ :: past) after.2.1

namespace Rebuilds

variable {past : List Rebuild} {table : RangeTable}

/-- **A table has the ranges of the last successful rebuild**, and none where there was no such. -/
theorem rangesOf_lastOf? (h : Rebuilds past table) (group : IndexGroup) :
    (Rebuild.lastOf? group past = none → table.rangesOf group = []) ∧
      ∀ rebuild, Rebuild.lastOf? group past = some rebuild →
        table.Reflects rebuild.engine group ∧
          rebuild.result = .ok (table.rangesOf group).length := by
  induction h with
  | start => exact ⟨fun _ => Std.ExtTreeMap.getD_empty, nofun⟩
  | @rebuild past table _ order horder lost desk other s after hafter ih =>
    have hstep := RangeTable.rebuild_step horder lost desk table other s
    rw [hafter] at hstep
    cases hfailure : s.engine.failure? lost .listIndices with
    | some cause =>
      have hfailed := hstep.failed cause hfailure
      rw [Rebuild.lastOf?_cons_of_error (by rw [hfailed]; rfl), hfailed]
      exact ih
    | none =>
      obtain ⟨hreflects, hcount⟩ := hstep.succeeded hfailure
      by_cases hname : other.fullName = group.fullName
      · rw [Rebuild.lastOf?_cons_of_ok hname (by rw [hcount]; rfl)]
        refine ⟨nofun, ?_⟩
        rintro _ ⟨⟩
        rw [← after.2.1.rangesOf_congr hname]
        exact ⟨hreflects.congr hname, hcount⟩
      · rw [Rebuild.lastOf?_cons_of_ne hname]
        have hkept := hstep.others group (Ne.symm hname)
        refine ⟨fun hnone => hkept.trans (ih.1 hnone), fun rebuild hsome => ?_⟩
        obtain ⟨hreflects', hcount'⟩ := ih.2 rebuild hsome
        rw [hkept]
        exact ⟨.of_spans (hkept ▸ hreflects'.spans), hcount'⟩

/-- **Ranges are exact, and no index is missed.**  After any rebuilds of any groups, some of which
may have failed, the ranges of a group are those of the engine at the last successful rebuild of
the group, one for each of its indices, and that rebuild has returned their number; a search is sent
to exactly the indices that may have documents from its span of time.  A further rebuild fails if
the engine cannot be listed, and then it changes nothing; otherwise it succeeds, and changes the
ranges of the group it is about and of no other. -/
theorem exact (h : Rebuilds past table) (group : IndexGroup) :
    (Rebuild.lastOf? group past = none →
      table.rangesOf group = [] ∧ ∀ first last, table.covering group first last = []) ∧
      (∀ rebuild, Rebuild.lastOf? group past = some rebuild →
        table.Reflects rebuild.engine group ∧
          rebuild.result = .ok (table.rangesOf group).length) ∧
      ∀ order : Listing → Listing, (∀ listing, (order listing).Perm listing) →
        ∀ lost desk other s, table.Rebuilt other s (s.engine.failure? lost .listIndices)
          ((table.rebuild other).run (Scene.handlerIn order lost desk) s) := by
  obtain ⟨hnone, hsome⟩ := h.rangesOf_lastOf? group
  refine ⟨fun hlast => ⟨hnone hlast, fun first last => ?_⟩, hsome,
    fun order horder lost desk other s => RangeTable.rebuild_step horder lost desk table other s⟩
  rw [RangeTable.covering, hnone hlast]
  rfl

/-- A group is rebuilt, then another one, and then the first one once more, which fails.  Of its
indices one is empty, and one has a name with a leading zero. -/
theorem exact_of_failed_listing :
    let group : IndexGroup := ⟨"graylog", "internal"⟩
    let audit : IndexGroup := ⟨"graylog", "internal_audit"⟩
    let span : UInt64 → UInt64 → IndexStats := fun earliest latest =>
      { earliest := some earliest, latest := some latest }
    let e := ((Engine.ofIndices ["graylog_internal_8"]).insertIndex "graylog_internal_07"
      (span 100 199)).insertIndex "graylog_internal_audit_1" (span 150 250)
    let handler := Scene.handlerIn List.reverse (fun _ => none) fun _ _ => .ok ()
    let first := ((∅ : RangeTable).rebuild group).run handler { engine := e }
    let second := (first.2.1.rebuild audit).run handler { engine := e }
    let third := (second.2.1.rebuild group).run handler { engine := { e with unavailable := true } }
    let table := third.2.1
    third.2.2.isOk = false ∧ first.2.2 = .ok (table.rangesOf group).length ∧
      "graylog_internal_07" ∈ table.covering group 199 250 ∧
      "graylog_internal_8" ∉ table.covering group 199 250 := by
  intro group audit span e handler first second third table
  have hrebuilds : Rebuilds [⟨group, { e with unavailable := true }, third.2.2⟩,
      ⟨audit, e, second.2.2⟩, ⟨group, e, first.2.2⟩] table :=
    ((Rebuilds.start.rebuild List.reverse_perm _ _ group { engine := e } rfl).rebuild
      List.reverse_perm _ _ audit { engine := e } rfl).rebuild List.reverse_perm _ _ group
        { engine := { e with unavailable := true } } rfl
  have hstep : ∀ (table : RangeTable) (other : IndexGroup) (s : Scene),
      table.Rebuilt other s (s.engine.failure? (fun _ => none) .listIndices)
        ((table.rebuild other).run handler s) :=
    fun table other s => RangeTable.rebuild_step List.reverse_perm _ _ table other s
  have hok : first.2.2.isOk = true := by
    rw [((hstep ∅ group { engine := e }).succeeded rfl).2]
    rfl
  have hfailed : third.2.2.isOk = false := by
    rw [(hstep second.2.1 group { engine := { e with unavailable := true } }).failed _ rfl]
    rfl
  have hlast : Rebuild.lastOf? group [⟨group, { e with unavailable := true }, third.2.2⟩,
      ⟨audit, e, second.2.2⟩, ⟨group, e, first.2.2⟩] = some ⟨group, e, first.2.2⟩ := by
    rw [Rebuild.lastOf?_cons_of_error hfailed, Rebuild.lastOf?_cons_of_ne (by decide)]
    exact Rebuild.lastOf?_cons_of_ok rfl hok
  obtain ⟨-, hreflects, -⟩ := hrebuilds.exact group
  obtain ⟨hreflects, hcount⟩ := hreflects _ hlast
  have hspan : e.indices["graylog_internal_07"]? = some { stats := span 100 199 } := by
    decide +kernel
  have hempty : e.indices["graylog_internal_8"]? = some {} := by decide +kernel
  refine ⟨hfailed, hcount, ?_, ?_⟩
  · exact (hreflects.mem_covering_iff _ _ _).mpr ⟨_, 7, 100, 199, hspan,
      IndexGroup.parse_of_numberOf? (by decide +kernel), rfl, rfl, by decide, by decide⟩
  · rw [hreflects.mem_covering_iff]
    rintro ⟨state, n, earliest, latest, hstate, -, hearliest, -⟩
    rw [← Option.some.inj (hempty.symm.trans hstate)] at hearliest
    cases hearliest

end Rebuilds
end Rollover
