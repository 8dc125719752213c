import Rollover.Proofs.Delivery
import Rollover.Proofs.FullNames

/-!
# Messages that come twice

A routing sees to it that no group gets a message twice.  But the lists that come of it belong to
aliases, and groups that share a full name share their alias.  If a message goes to two such groups,
it stands in the list of their alias twice.

So a message comes into no list more than once exactly if no two of the groups that it goes to
overlap (`Registry.Reaches.deliversOnce_iff`), and a registry keeps all messages from coming twice
exactly if no two streams select groups that overlap (`Registry.Reaches.never_twice_iff`).  Groups
with one prefix do not overlap.
-/

namespace Rollover
namespace Registry

variable {settings : Settings} {registry : Registry} {message : Message}

/-- The message comes into no list more than once. -/
def DeliversOnce (registry : Registry) (message : Message) : Prop :=
  ∀ aliasName, ∃ times ≤ 1, registry.Delivers message aliasName times

theorem deliversOnce_iff_nodup : registry.DeliversOnce message ↔
    ((registry.destinations message).map IndexGroup.aliasName).Nodup := by
  simp only [DeliversOnce, delivers_iff, exists_eq_right, List.nodup_iff_count_le_one,
    List.count, List.countP_map, deliveries]
  rfl

/-- **A message comes into no list more than once exactly if no two of the groups that it goes to
overlap.** -/
theorem Reaches.deliversOnce_iff (h : Reaches settings registry) :
    registry.DeliversOnce message ↔ ∀ a b, GoesTo settings registry message a →
      GoesTo settings registry message b → ¬ a.Overlaps b := by
  rw [deliversOnce_iff_nodup, List.nodup_map_iff_inj_on (nodup_destinations registry message)]
  simp only [h.mem_destinations, IndexGroup.aliasName_inj]
  constructor
  · intro hinj a b ha hb hoverlaps
    exact hoverlaps.globalPrefix_ne (congrArg _ (hinj a ha b hb hoverlaps.fullName_eq))
  · intro hclear a ha b hb hname
    rcases IndexGroup.fullName_eq_iff.mp hname with heq | hoverlaps | hoverlaps
    · exact heq
    · exact absurd hoverlaps (hclear a b ha hb)
    · exact absurd hoverlaps (hclear b a hb ha)

/-- A message goes to groups in use, or to the default group of the settings. -/
theorem GoesTo.globalPrefix_eq {group : IndexGroup} (h : GoesTo settings registry message group)
    (hshared : ∀ other ∈ registry.groups, other.globalPrefix = settings.globalPrefix) :
    group.globalPrefix = settings.globalPrefix := by
  have hdefault : ∀ {group}, IsDefault settings registry group →
      group.globalPrefix = settings.globalPrefix := by
    rintro group (⟨hmem, -⟩ | -)
    · exact hshared _ hmem
    · rfl
  rcases h with ⟨-, h⟩ | ⟨stream, -, ⟨hmem, -⟩ | ⟨-, h⟩⟩
  · exact hdefault h
  · exact hshared _ hmem
  · exact hdefault h

/-- **Exactly when no message comes twice.**  A message does not if no two of the groups that it
goes to overlap; and no message does if no two streams select groups that overlap. -/
theorem Reaches.never_twice_iff (h : Reaches settings registry) :
    (∀ message, registry.DeliversOnce message ↔ ∀ a b, GoesTo settings registry message a →
      GoesTo settings registry message b → ¬ a.Overlaps b) ∧
    ((∀ message, registry.DeliversOnce message) ↔ ∀ stream other a b,
      Selects settings registry stream a → Selects settings registry other b →
        ¬ a.Overlaps b) := by
  refine ⟨fun message => h.deliversOnce_iff, ?_⟩
  simp only [h.deliversOnce_iff]
  constructor
  · intro hclear stream other a b ha hb
    refine hclear { id := "", streamIds := [stream, other] } a b (.stream stream ?_ ha)
      (.stream other ?_ hb)
    · exact List.mem_cons_self
    · exact List.mem_cons_of_mem _ List.mem_cons_self
  · intro hclear message a b ha hb hoverlaps
    rcases ha with ⟨hnone, ha⟩ | ⟨stream, hstream, ha⟩
    · -- without streams there is one destination, and no group overlaps with itself
      rcases hb with ⟨-, hb⟩ | ⟨other, hother, -⟩
      · rw [h.isDefault_iff] at ha hb
        exact hoverlaps.globalPrefix_ne (by rw [ha, hb])
      · rw [hnone] at hother
        cases hother
    · rcases hb with ⟨hnone, -⟩ | ⟨other, -, hb⟩
      · rw [hnone] at hstream
        cases hstream
      · exact hclear stream other a b ha hb hoverlaps

/-- All groups have the prefix of the installation, and two of them look alike.  A message that goes
to both of them and to the default group comes into no list twice. -/
theorem Reaches.never_twice_iff_of_one_prefix :
    let settings : Settings := {}
    let registry := (ofSettings settings).publish
      (Std.ExtTreeSet.ofList [settings.group "a_b", settings.group "b"])
    let message : Message := { id := "1", streamIds := ["a_b", "b", "unknown", "b"] }
    Reaches settings registry ∧ registry.DeliversOnce message := by
  intro settings registry message
  have hreaches : Reaches settings registry := .publish .start _
  have hshared : ∀ group ∈ registry.groups, group.globalPrefix = settings.globalPrefix := by
    have hlist : ∀ group ∈ [settings.group "a_b", settings.group "b"],
        group.globalPrefix = settings.globalPrefix := by decide
    exact fun group hmem => hlist group ((GroupTable.mem_groups_ofSet_of_nodup (by decide)).mp hmem)
  refine ⟨hreaches, (hreaches.never_twice_iff.1 message).mpr fun a b ha hb hoverlaps => ?_⟩
  exact hoverlaps.globalPrefix_ne
    ((ha.globalPrefix_eq hshared).trans (hb.globalPrefix_eq hshared).symm)

/-- The streams of a message select two groups that share their alias, and the list of that alias
has the message twice. -/
theorem not_deliversOnce_of_overlap :
    let a : IndexGroup := ⟨"a", "b_c"⟩
    let b : IndexGroup := ⟨"a_b", "c"⟩
    let registry := (ofSettings {}).publish (Std.ExtTreeSet.ofList [a, b])
    let message : Message := { id := "m", streamIds := ["b_c", "c"] }
    Reaches {} registry ∧
      (registry.route [message]).messagesFor "a_b_c_deflector" = [message, message] ∧
      ¬ registry.DeliversOnce message := by
  intro a b registry message
  have hreaches : Reaches {} registry := .publish .start _
  have hgroups : ∀ group, group ∈ registry.groups ↔ group ∈ [a, b] := fun group =>
    GroupTable.mem_groups_ofSet_of_nodup (by decide)
  have hfirst : registry.groupOfStream "b_c" = a :=
    (hreaches.selects_iff.mp (.own ((hgroups a).mpr (by decide)) ⟨"", by decide⟩)).symm
  have hsecond : registry.groupOfStream "c" = b :=
    (hreaches.selects_iff.mp (.own ((hgroups b).mpr (by decide)) ⟨"", by decide⟩)).symm
  have hdestinations : registry.destinations message = [a, b] := by
    show [registry.groupOfStream "b_c", registry.groupOfStream "c"].eraseDups = [a, b]
    rw [hfirst, hsecond]
    decide
  refine ⟨hreaches, ?_, ?_⟩
  · have htwice : registry.deliveries message "a_b_c_deflector" = 2 := by
      rw [deliveries, hdestinations]
      decide
    rw [messagesFor_route, List.flatMap_singleton, htwice]
    rfl
  · rw [deliversOnce_iff_nodup, hdestinations]
    decide

end Registry
end Rollover
