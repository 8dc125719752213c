import Rollover.Proofs.Binding

/-!
# The two lists of a group's indices

A group's indices are listed in two ways.  One takes the numbers from a view and puts the names
together anew; the other takes the names as the engine has them.  Both read every name, and reading
drops leading zeros.

The second list is always what a list of the group's indices should be (`Engine.Lists`,
`Engine.lists_memberNames`): it has every index that the group reads as its own, once, in the order
of the numbers.  The first list is that exactly if the engine is *canonical* for the group, which
means that its indices have the names that the group gives them; and only then are the two lists one
(`listing_iff`).
-/

namespace Rollover

open Program Environment

namespace Engine

variable {e : Engine} {group : IndexGroup} {name : String} {n : UInt64}

/-- The names are those of the indices that the group reads as its own, each once, in the order of
their numbers. -/
structure Lists (e : Engine) (group : IndexGroup) (names : List String) : Prop where
  mem_iff : ∀ name, name ∈ names ↔ e.hasIndex name = true ∧ (group.numberOf? name).isSome = true
  nodup : names.Nodup
  ascending : names.Pairwise fun a b =>
    ∀ m n, group.numberOf? a = some m → group.numberOf? b = some n → m ≤ n

/-- If names stand for different numbers, there is one such list only. -/
theorem Lists.unique {names names' : List String} (hcanonical : e.Canonical group)
    (h : e.Lists group names) (h' : e.Lists group names') : names = names' := by
  have hperm : names.Perm names' := by
    rw [List.perm_ext_iff_of_nodup h.nodup h'.nodup]
    exact fun name => (h.mem_iff name).trans (h'.mem_iff name).symm
  refine hperm.eq_of_pairwise (fun a b ha hb hab hba => ?_) h.ascending h'.ascending
  obtain ⟨hindex, hsome⟩ := (h.mem_iff a).mp ha
  obtain ⟨hindex', hsome'⟩ := (h'.mem_iff b).mp hb
  obtain ⟨m, hm⟩ := Option.isSome_iff_exists.mp hsome
  obtain ⟨n, hn⟩ := Option.isSome_iff_exists.mp hsome'
  have heq : m = n := UInt64.le_antisymm (hab m n hm hn) (hba n m hn hm)
  rw [hcanonical a m hindex hm, hcanonical b n hindex' hn, heq]

/-! ## The names of a view -/

theorem mem_viewOf_names :
    name ∈ (e.viewOf group).names ↔ ∃ n, e.HasNumber group n ∧ name = group.nameOf n := by
  rw [GroupView.names, List.mem_map, GroupView.toList, viewOf_group]
  simp only [Std.ExtTreeSet.mem_toList, mem_viewOf_numbers, eq_comm]

/-- A name is in the view for the number that it has. -/
theorem nameOf_mem_viewOf_names :
    group.nameOf n ∈ (e.viewOf group).names ↔ e.HasNumber group n := by
  rw [mem_viewOf_names]
  constructor
  · rintro ⟨m, hm, heq⟩
    rw [IndexGroup.nameOf_inj.mp heq]
    exact hm
  · exact fun hn => ⟨n, hn, rfl⟩

/-- The numbers of the names ascend. -/
theorem viewOf_names_pairwise (e : Engine) (group : IndexGroup) :
    (e.viewOf group).names.Pairwise fun a b =>
      ∃ m n, a = group.nameOf m ∧ b = group.nameOf n ∧ m < n := by
  rw [GroupView.names, viewOf_group, List.pairwise_map]
  refine Std.ExtTreeSet.ordered_toList.imp fun {m n} hlt => ⟨m, n, rfl, rfl, ?_⟩
  exact compareOfLessAndEq_eq_lt.mp hlt

/-- **The names of a view are a list of the group's indices exactly if these have the names that
the group gives them.** -/
theorem lists_viewOf_names : e.Lists group (e.viewOf group).names ↔ e.Canonical group := by
  constructor
  · intro hlists name n hindex hnumber
    have hmem := (hlists.mem_iff name).mpr ⟨hindex, Option.isSome_iff_exists.mpr ⟨n, hnumber⟩⟩
    obtain ⟨m, -, rfl⟩ := mem_viewOf_names.mp hmem
    rw [Option.some.inj ((group.numberOf?_nameOf m).symm.trans hnumber)]
  · intro hcanonical
    refine ⟨fun name => ?_, ?_, ?_⟩
    · rw [mem_viewOf_names]
      constructor
      · rintro ⟨n, ⟨other, hindex, hnumber⟩, rfl⟩
        rw [hcanonical other n hindex hnumber] at hindex
        exact ⟨hindex, by rw [IndexGroup.numberOf?_nameOf, Option.isSome_some]⟩
      · rintro ⟨hindex, hsome⟩
        obtain ⟨n, hn⟩ := Option.isSome_iff_exists.mp hsome
        exact ⟨n, ⟨name, hindex, hn⟩, hcanonical name n hindex hn⟩
    · rw [List.nodup_iff_pairwise_ne]
      refine (viewOf_names_pairwise e group).imp fun {a b} h => ?_
      obtain ⟨m, n, rfl, rfl, hlt⟩ := h
      rw [ne_eq, IndexGroup.nameOf_inj]
      exact fun heq => UInt64.lt_irrefl n (heq ▸ hlt)
    · refine (viewOf_names_pairwise e group).imp fun {a b} h k l hk hl => ?_
      obtain ⟨m, n, rfl, rfl, hlt⟩ := h
      rw [IndexGroup.numberOf?_nameOf, Option.some.injEq] at hk hl
      subst hk hl
      exact UInt64.le_of_lt hlt

/-! ## The names of the members -/

/-- The listing has every name once. -/
theorem listing_pairwise (e : Engine) : e.listing.Pairwise fun a b => a.1 ≠ b.1 := by
  rw [listing, List.pairwise_map]
  refine Std.ExtTreeMap.distinct_keys_toList.imp fun h heq => h ?_
  exact Std.LawfulEqOrd.compare_eq_iff_eq.mpr heq

end Engine

/-- What a group makes of an entry of a listing. -/
theorem IndexGroup.mem_members {group : IndexGroup} {listing : Listing} {member : Member} :
    member ∈ group.members listing ↔
      (member.name, member.stats) ∈ listing ∧ group.numberOf? member.name = some member.number := by
  rw [members, (List.mergeSort_perm _ _).mem_iff, List.mem_filterMap]
  constructor
  · rintro ⟨⟨name, stats⟩, hentry, hread⟩
    obtain ⟨number, hnumber, rfl⟩ := Option.map_eq_some_iff.mp hread
    exact ⟨hentry, hnumber⟩
  · rintro ⟨hentry, hnumber⟩
    exact ⟨(member.name, member.stats), hentry, by rw [hnumber]; rfl⟩

theorem Member.before_iff {a b : Member} :
    Member.before a b = true ↔ a.number < b.number ∨ (a.number = b.number ∧ a.name ≤ b.name) := by
  simp [Member.before]

/-- Members come in the order of their numbers. -/
theorem IndexGroup.members_pairwise (group : IndexGroup) (listing : Listing) :
    (group.members listing).Pairwise fun a b => a.number ≤ b.number := by
  have htrans : ∀ a b c : Member, Member.before a b = true → Member.before b c = true →
      Member.before a c = true := by
    intro a b c hab hbc
    rw [Member.before_iff] at hab hbc ⊢
    rcases hab with hlt | ⟨heq, hname⟩
    · rcases hbc with hlt' | ⟨heq', -⟩
      · exact Or.inl (UInt64.lt_trans hlt hlt')
      · exact Or.inl (heq' ▸ hlt)
    · rcases hbc with hlt' | ⟨heq', hname'⟩
      · exact Or.inl (heq ▸ hlt')
      · exact Or.inr ⟨heq.trans heq', String.le_trans hname hname'⟩
  have htotal : ∀ a b : Member, (Member.before a b || Member.before b a) = true := by
    intro a b
    have horder : a.number < b.number ∨ a.number = b.number ∨ b.number < a.number := by
      simp only [UInt64.lt_iff_toNat_lt, ← UInt64.toNat_inj]
      omega
    rw [Bool.or_eq_true, Member.before_iff, Member.before_iff]
    rcases horder with hlt | heq | hlt
    · exact Or.inl (Or.inl hlt)
    · rcases String.le_total a.name b.name with hle | hle
      · exact Or.inl (Or.inr ⟨heq, hle⟩)
      · exact Or.inr (Or.inr ⟨heq.symm, hle⟩)
    · exact Or.inr (Or.inl hlt)
  refine (List.pairwise_mergeSort htrans htotal _).imp fun {a b} h => ?_
  rcases Member.before_iff.mp h with hlt | ⟨heq, -⟩
  · exact UInt64.le_of_lt hlt
  · exact UInt64.le_of_eq heq

namespace Engine

variable {e : Engine} {group : IndexGroup} {name : String} {n : UInt64}

/-- No two members have one name. -/
theorem memberNames_nodup (e : Engine) (group : IndexGroup) :
    ((group.members e.listing).map Member.name).Nodup := by
  rw [IndexGroup.members, ((List.mergeSort_perm _ _).map Member.name).nodup_iff,
    List.nodup_iff_pairwise_ne, List.pairwise_map]
  refine e.listing_pairwise.filterMap _ fun a b hne member hmember member' hmember' => ?_
  obtain ⟨-, -, rfl⟩ := Option.map_eq_some_iff.mp hmember
  obtain ⟨-, -, rfl⟩ := Option.map_eq_some_iff.mp hmember'
  exact hne

/-- **The names of the members are always a list of the group's indices.** -/
theorem lists_memberNames (e : Engine) (group : IndexGroup) :
    e.Lists group ((group.members e.listing).map Member.name) := by
  refine ⟨fun name => ?_, memberNames_nodup e group, ?_⟩
  · rw [List.mem_map, ← mem_listing_iff, Option.isSome_iff_exists]
    constructor
    · rintro ⟨member, hmember, rfl⟩
      obtain ⟨hentry, hnumber⟩ := IndexGroup.mem_members.mp hmember
      exact ⟨⟨_, hentry⟩, _, hnumber⟩
    · rintro ⟨⟨stats, hentry⟩, n, hnumber⟩
      exact ⟨⟨n, name, stats⟩, IndexGroup.mem_members.mpr ⟨hentry, hnumber⟩, rfl⟩
  · rw [List.pairwise_map]
    refine (group.members_pairwise e.listing).imp_of_mem fun {a b} ha hb hle m n hm hn => ?_
    rw [(IndexGroup.mem_members.mp ha).2, Option.some.injEq] at hm
    rw [(IndexGroup.mem_members.mp hb).2, Option.some.injEq] at hn
    exact hm ▸ hn ▸ hle

/-- **The two lists are one exactly if the engine is canonical for the group.** -/
theorem names_eq_memberNames_iff :
    (e.viewOf group).names = (group.members e.listing).map Member.name ↔ e.Canonical group := by
  constructor
  · intro heq
    have hlists := lists_memberNames e group
    rw [← heq] at hlists
    exact lists_viewOf_names.mp hlists
  · intro hcanonical
    exact (lists_viewOf_names.mpr hcanonical).unique hcanonical (lists_memberNames e group)

end Engine

/-! ## Asking for the lists -/

variable {group : IndexGroup} {s : Scene}

theorem answered_segmentNames (group : IndexGroup) (s : Scene) :
    group.segmentNames.Upholds answered (fun _ _ => True) (fun result _ =>
      result = .ok (s.engine.viewOf group).names) s := by
  unfold IndexGroup.segmentNames
  refine upholds_bind.mpr ((answered_view group s).imp fun result s' h => ?_)
  obtain ⟨-, rfl⟩ := h
  rfl

theorem answered_memberStats (group : IndexGroup) (s : Scene) :
    group.memberStats.Upholds answered (fun _ _ => True) (fun result _ =>
      result = .ok (group.members s.engine.listing)) s := by
  unfold IndexGroup.memberStats
  refine upholds_ask.mpr ⟨trivial, fun reply e₁ h₁ => ?_⟩
  obtain ⟨-, rfl⟩ := answered_read rfl h₁
  rfl

/-- **What the two lists have to do with the engine.**  Whoever asks an engine that is available
gets both.  The members are the group's indices, always; the names of the view are so exactly if the
engine is canonical for the group, and only then are they the names of the members. -/
theorem listing_iff (group : IndexGroup) (s : Scene) (havailable : s.engine.unavailable = false)
    (desk : Scene → Job → Except Error Unit) :
    ∃ names members, (group.segmentNames.run (Scene.handler desk) s).2 = .ok names ∧
      (group.memberStats.run (Scene.handler desk) s).2 = .ok members ∧
      s.engine.Lists group (members.map Member.name) ∧
      (s.engine.Lists group names ↔ s.engine.Canonical group) ∧
      (names = members.map Member.name ↔ s.engine.Canonical group) :=
  ⟨_, _, (answered_segmentNames group s).run_answered havailable desk,
    (answered_memberStats group s).run_answered havailable desk,
    Engine.lists_memberNames s.engine group, Engine.lists_viewOf_names,
    Engine.names_eq_memberNames_iff⟩

/-- The two lists of a group in use. -/
theorem listing_iff_of_serving :
    let group : IndexGroup := ⟨"graylog", "internal"⟩
    let s : Scene := { engine := Engine.serving group 7 }
    ∃ names members, (group.segmentNames.run (Scene.handler fun _ _ => .ok ()) s).2 = .ok names ∧
      (group.memberStats.run (Scene.handler fun _ _ => .ok ()) s).2 = .ok members ∧
      s.engine.Lists group names ∧ names = members.map Member.name := by
  intro group s
  obtain ⟨names, members, hnames, hmembers, -, hlists, heq⟩ :=
    listing_iff group s rfl fun _ _ => .ok ()
  have hcanonical : s.engine.Canonical group := fun _ _ => Engine.canonical_serving
  exact ⟨names, members, hnames, hmembers, hlists.mpr hcanonical, heq.mpr hcanonical⟩

/-- The one index of a group has a name with a leading zero.  The names of the view have another
name for it, which no index has. -/
theorem not_lists_padded_name :
    let group : IndexGroup := ⟨"graylog", "internal"⟩
    let s : Scene := { engine := Engine.ofIndices ["graylog_internal_07"] }
    ∃ names members, (group.segmentNames.run (Scene.handler fun _ _ => .ok ()) s).2 = .ok names ∧
      (group.memberStats.run (Scene.handler fun _ _ => .ok ()) s).2 = .ok members ∧
      "graylog_internal_7" ∈ names ∧ s.engine.hasIndex "graylog_internal_7" = false ∧
      ¬ s.engine.Lists group names ∧ names ≠ members.map Member.name := by
  intro group s
  have hread : group.numberOf? "graylog_internal_07" = some 7 :=
    IndexGroup.numberOf?_eq_some_iff.mpr ⟨['0', '7'], by decide, by decide, by decide⟩
  have hindex : s.engine.hasIndex "graylog_internal_07" = true := by decide +kernel
  have hname : group.nameOf 7 = "graylog_internal_7" := by decide +kernel
  have hnot : ¬ s.engine.Canonical group := by
    intro hcanonical
    have heq := hcanonical _ _ hindex hread
    rw [hname] at heq
    exact absurd heq (by decide)
  refine ⟨_, _, (answered_segmentNames group s).run_answered rfl _,
    (answered_memberStats group s).run_answered rfl _, ?_, by decide +kernel,
    mt Engine.lists_viewOf_names.mp hnot, mt Engine.names_eq_memberNames_iff.mp hnot⟩
  rw [← hname, Engine.nameOf_mem_viewOf_names]
  exact ⟨_, hindex, hread⟩

end Rollover
