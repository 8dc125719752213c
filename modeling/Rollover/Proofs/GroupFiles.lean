import Rollover.GroupFile
import Rollover.Proofs.Tables
import Rollover.Proofs.Writing

/-!
# Group files are canonical

A group may stand in a file in many forms: as a pair of texts, or as an object with its two members
in any order, among others that nobody reads.  A file may list its groups in any order, and one of
them more than once.  `FileContent.Lists` says which groups a file lists, in the order and as often
as it does.  It goes by the grammar (`Json.Denotes`) and by the forms of a group, and not by how
either is read; a file is loaded exactly if it lists some groups, as the set of these
(`GroupFile.load_eq_ok_iff`).

Saving picks one of all these files.  What it writes depends on the set alone, for the groups are
sorted first and a set can be sorted in one way only (`GroupFile.written_eq_text`), and it is read
as the set it was written for (`GroupFile.load_save`).  Everything else follows: whatever a file
looked like, the first save makes it the one file of its set, and later ones change nothing
(`GroupFile.save_canonical`).
-/

namespace Rollover

open Json (ofText ofMembers Once)

/-! ## One group -/

namespace IndexGroup

variable {value : Json} {group : IndexGroup}

/-- A value that is read as a group. -/
inductive Form : Json → IndexGroup → Prop
  /-- The two texts alone. -/
  | pair (group : IndexGroup) :
    Form (.array [ofText group.globalPrefix, ofText group.indexName]) group
  /-- The two members, each of them once.  They may stand anywhere among others. -/
  | members {members : List (String × Json)} {group : IndexGroup}
      (hglobal : Once members "global_prefix" (ofText group.globalPrefix))
      (hname : Once members "index_name" (ofText group.indexName)) : Form (ofMembers members) group

/-- **A value is read as a group if it is one of its forms.** -/
theorem ofJson?_eq_some_iff : ofJson? value = some group ↔ Form value group := by
  constructor
  · intro h
    rw [ofJson?.eq_def] at h
    split at h
    · next globalPrefix indexName =>
      simp only [Option.bind_eq_bind, Option.bind_eq_some_iff, Option.pure_def,
        Option.some.injEq, Json.text?_eq_some_iff] at h
      obtain ⟨_, rfl, _, rfl, rfl⟩ := h
      exact .pair ⟨_, _⟩
    · simp only [Option.bind_eq_bind, Option.bind_eq_some_iff] at h
      obtain ⟨members, hmembers, h⟩ := h
      obtain rfl := Json.members?_eq_some_iff.mp hmembers
      split at h
      · next globalPrefix indexName hglobal hname =>
        simp only [Option.bind_eq_some_iff, Option.pure_def, Option.some.injEq,
          Json.text?_eq_some_iff] at h
        obtain ⟨_, rfl, _, rfl, rfl⟩ := h
        exact .members (Json.field_eq_found_iff.mp hglobal) (Json.field_eq_found_iff.mp hname)
      · cases h
  · intro h
    cases h with
    | pair => rfl
    | @members members _ hglobal hname =>
      show (ofMembers members).members?.bind _ = _
      simp only [Json.members?_ofMembers, Option.bind_some, Json.field_eq_found_iff.mpr hglobal,
        Json.field_eq_found_iff.mpr hname]
      rfl

/-- The form in which a group is written. -/
def json (group : IndexGroup) : Json :=
  ofMembers [("global_prefix", ofText group.globalPrefix), ("index_name", ofText group.indexName)]

theorem form_json (group : IndexGroup) : Form group.json group :=
  have hne : "index_name" ≠ "global_prefix" := by decide
  .members ⟨[], _, rfl, List.forall_mem_singleton.mpr hne⟩
    ⟨[("global_prefix", _)], [], rfl, List.forall_mem_singleton.mpr hne.symm⟩

theorem written_tokens (group : IndexGroup) : Json.Written group.json group.tokens := by
  have hmembers : ∀ member ∈
      [("global_prefix", group.globalPrefix), ("index_name", group.indexName)],
      Json.Written (ofText member.2) [.ofString member.2] :=
    fun member _ => Json.written_string member.2
  exact Json.written_object Prod.fst hmembers

end IndexGroup

/-! ## Loading -/

/-- The groups that a file lists, in order and with repetitions. -/
inductive FileContent.Lists : FileContent → List IndexGroup → Prop
  /-- Without a file there is no group. -/
  | missing : Lists .missing []
  | array {text : String} {items : List Json} {listed : List IndexGroup}
      (hjson : Json.Denotes text (.array items))
      (hitems : List.Forall₂ IndexGroup.Form items listed) : Lists (.bytes text.toUTF8) listed

namespace GroupFile

variable {content : FileContent} {groups : GroupSet} {listed : List IndexGroup}

theorem fromUTF8?_eq_some_iff {bytes : ByteArray} {text : String} :
    String.fromUTF8? bytes = some text ↔ bytes = text.toUTF8 := by
  constructor
  · intro h
    rw [String.fromUTF8?] at h
    split at h
    · rw [← Option.some.inj h]
      rfl
    · cases h
  · rintro rfl
    exact dif_pos text.isValidUTF8

theorem parse?_eq_some_iff {text : String} :
    parse? text = some groups ↔ ∃ items listed, Json.Denotes text (.array items) ∧
      List.Forall₂ IndexGroup.Form items listed ∧ groups = Std.ExtTreeSet.ofList listed := by
  simp only [parse?, Option.bind_eq_bind, Option.bind_eq_some_iff, Option.pure_def,
    Option.some.injEq, Json.parse?_eq_some_iff, Json.items?_eq_some_iff, Json.mapM_eq_some_iff,
    IndexGroup.ofJson?_eq_some_iff]
  constructor
  · rintro ⟨_, hjson, items, rfl, listed, hitems, rfl⟩
    exact ⟨items, listed, hjson, hitems, rfl⟩
  · rintro ⟨items, listed, hjson, hitems, rfl⟩
    exact ⟨_, hjson, items, rfl, listed, hitems, rfl⟩

theorem load_bytes_eq_ok_iff {bytes : ByteArray} :
    load (.bytes bytes) = .ok groups ↔
      ∃ text : String, bytes = text.toUTF8 ∧ parse? text = some groups := by
  rw [load.eq_def]
  constructor
  · intro h
    simp only at h
    split at h
    · cases h
    · next text htext =>
      split at h
      · cases h
      · next found hfound =>
        rw [← Except.ok.inj h]
        exact ⟨text, fromUTF8?_eq_some_iff.mp htext, hfound⟩
  · rintro ⟨text, hbytes, hparse⟩
    simp only [fromUTF8?_eq_some_iff.mpr hbytes, hparse]

/-- **A file is loaded as the set of the groups it lists.** -/
theorem load_eq_ok_iff :
    load content = .ok groups ↔ ∃ listed, content.Lists listed ∧
      groups = Std.ExtTreeSet.ofList listed := by
  constructor
  · intro h
    match content with
    | .missing => exact ⟨[], .missing, (Except.ok.inj h).symm⟩
    | .unreadable => cases h
    | .bytes bytes =>
      obtain ⟨text, rfl, hparse⟩ := load_bytes_eq_ok_iff.mp h
      obtain ⟨items, listed, hjson, hitems, rfl⟩ := parse?_eq_some_iff.mp hparse
      exact ⟨listed, .array hjson hitems, rfl⟩
  · rintro ⟨listed, hlists, rfl⟩
    cases hlists with
    | missing => rfl
    | @array text items _ hjson hitems =>
      exact load_bytes_eq_ok_iff.mpr
        ⟨text, rfl, parse?_eq_some_iff.mpr ⟨items, listed, hjson, hitems, rfl⟩⟩

/-! ## Saving -/

/-- A saved file lists the groups of the set in ascending order. -/
theorem lists_save (groups : GroupSet) : (save groups).Lists groups.toList := by
  have htext : Json.Denotes (text groups) (.array (groups.toList.map IndexGroup.json)) :=
    (Json.written_array fun group _ => group.written_tokens).denotes_pretty
  refine .array htext (List.forall₂_map_left_iff.mpr ?_)
  exact List.forall₂_same.mpr fun group _ => group.form_json

theorem ofList_eq_iff {listed : List IndexGroup} :
    Std.ExtTreeSet.ofList listed = groups ↔ ∀ group, group ∈ listed ↔ group ∈ groups := by
  have hmem : ∀ group, group ∈ (Std.ExtTreeSet.ofList listed : GroupSet) ↔ group ∈ listed :=
    fun group => by rw [Std.ExtTreeSet.mem_ofList, List.contains_iff_mem]
  constructor
  · rintro rfl group
    exact (hmem group).symm
  · exact fun h => Std.ExtTreeSet.ext_mem fun group => (hmem group).trans (h group)

/-- **What is saved is loaded again.** -/
theorem load_save (groups : GroupSet) : load (save groups) = .ok groups := by
  refine load_eq_ok_iff.mpr ⟨groups.toList, lists_save groups, ?_⟩
  exact (ofList_eq_iff.mpr fun _ => Std.ExtTreeSet.mem_toList).symm

/-- What is written if the groups are given in some order. -/
def written (listed : List IndexGroup) : String :=
  Json.pretty (Json.Token.array ((listed.mergeSort GroupTable.inOrder).map IndexGroup.tokens))

/-- **The text depends on the set alone**, and not on the order in which its groups are given. -/
theorem written_eq_text (hnodup : listed.Nodup) (hmem : ∀ group, group ∈ listed ↔ group ∈ groups) :
    written listed = text groups := by
  have hperm : (listed.mergeSort GroupTable.inOrder).Perm groups.toList := by
    refine (List.mergeSort_perm listed _).trans ((List.perm_ext_iff_of_nodup hnodup ?_).mpr ?_)
    · exact List.nodup_iff_pairwise_ne.mpr (Std.ExtTreeSet.distinct_toList.imp fun hab heq =>
        hab (Std.LawfulEqOrd.compare_eq_iff_eq.mpr heq))
    · exact fun group => (hmem group).trans Std.ExtTreeSet.mem_toList.symm
  have hsorted : groups.toList.Pairwise fun a b => GroupTable.inOrder a b = true :=
    Std.ExtTreeSet.ordered_toList.imp fun hab => by
      rw [GroupTable.inOrder, hab]
      rfl
  rw [written, text, hperm.eq_of_pairwise (fun a b _ _ => GroupTable.inOrder_antisymm)
    (List.pairwise_mergeSort GroupTable.inOrder_trans GroupTable.inOrder_total listed) hsorted]

/-- **Group files are canonical.**  Every set of groups is loaded as it was saved.  The text of a
set is the same however the set came about and in whatever order its groups are given.  A file is
loaded if it lists groups, in any of their forms.  And from any file that is loaded the first save
makes one that is loaded as the same set, and that loading and saving again leaves as it is. -/
theorem save_canonical :
    (∀ groups, load (save groups) = .ok groups) ∧
      (∀ (groups : GroupSet) (listed : List IndexGroup),
        (∀ group, group ∈ listed ↔ group ∈ groups) →
          save (Std.ExtTreeSet.ofList listed) = save groups ∧
            (listed.Nodup → written listed = text groups)) ∧
      (∀ content groups, load content = .ok groups ↔
        ∃ listed, content.Lists listed ∧ groups = Std.ExtTreeSet.ofList listed) ∧
      ∀ content groups, load content = .ok groups →
        load (save groups) = .ok groups ∧
          ∀ again, load (save groups) = .ok again → save again = save groups := by
  refine ⟨load_save, fun groups listed hmem => ⟨?_, fun hnodup => written_eq_text hnodup hmem⟩,
    fun _ _ => load_eq_ok_iff, fun content groups _ => ⟨load_save groups, fun again hagain => ?_⟩⟩
  · rw [ofList_eq_iff.mpr hmem]
  · rw [load_save] at hagain
    rw [Except.ok.inj hagain]

/-- A file that lists a group twice, in both forms, among other members, and with escapes. -/
def mixedFile : String :=
  "[ [\"a\", \"b\"],\n" ++
  "  \x7b\"index_name\": \"\\u0062\", \"note\": [1e3, null], \"global_prefix\": \"a\"\x7d,\n" ++
  "  \x7b\"global_prefix\": \"\", \"index_name\": \"\\ud83d\\ude00\"\x7d,\n" ++
  "  [\"\", \"\\\"\\\\\\u0007\"]\n]"

/-- What it lists, each group once. -/
def mixedGroups : List IndexGroup :=
  [⟨"a", "b"⟩, ⟨"", "😀"⟩, ⟨"", "\"\\\x07"⟩]

theorem save_canonical_of_mixed_forms :
    let groups : GroupSet := Std.ExtTreeSet.ofList mixedGroups
    load (.bytes mixedFile.toUTF8) = .ok groups ∧ load (save groups) = .ok groups ∧
      (∀ again, load (save groups) = .ok again → save again = save groups) ∧
      written mixedGroups = text groups := by
  intro groups
  have hload : load (.bytes mixedFile.toUTF8) = .ok groups :=
    load_bytes_eq_ok_iff.mpr ⟨mixedFile, rfl, by decide +kernel⟩
  obtain ⟨hagain, hsame⟩ := save_canonical.2.2.2 _ groups hload
  exact ⟨hload, hagain, hsame,
    (save_canonical.2.1 groups mixedGroups (ofList_eq_iff.mp rfl)).2 (by decide)⟩

end GroupFile
end Rollover
