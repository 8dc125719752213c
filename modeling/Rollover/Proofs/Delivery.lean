import Mathlib.Data.List.Dedup
import Rollover.Proofs.Reconciliation
import Rollover.Routing

/-!
# What is delivered where

A routing goes through a batch and adds each message to the lists of its destinations.  What comes
of it can be said alias by alias: the list of an alias has the messages of the batch, in order, each
as often as there are groups with that alias among those it goes to
(`Registry.messagesFor_route`).  Everything about a routing follows from this one equation and from
what those groups are.

The groups that a message goes to are described without looking into a table (`Registry.GoesTo`).
A stream has one *key*, its first six characters, or all of it if there are fewer.  It selects the
group in use that has its key for an index name, and if there is none, the default group.  In a
registry that an installation can have, a group is found under its index name and nowhere else, so
that is what the search in the table finds (`Registry.Reaches.selects_iff`).
-/

namespace Rollover

/-! ## Streams and groups -/

/-- The key of a stream is its first six characters, or all of it if there are fewer. -/
def IsStreamKey (stream key : String) : Prop :=
  ∃ rest, stream = key ++ rest ∧ (key.length = 6 ∨ key.length < 6 ∧ rest = "")

/-- A stream has one key. -/
theorem isStreamKey_iff {stream key : String} : IsStreamKey stream key ↔ key = streamKey stream := by
  have htake : key = streamKey stream ↔ key.toList = stream.toList.take 6 := by
    rw [← String.toList_inj, streamKey, String.toList_ofList]
    rfl
  rw [htake]
  constructor
  · rintro ⟨rest, rfl, hlength | ⟨hlength, rfl⟩⟩
    · rw [← String.length_toList] at hlength
      rw [String.toList_append, List.take_left' hlength]
    · rw [← String.length_toList] at hlength
      rw [String.append_empty, List.take_of_length_le (Nat.le_of_lt hlength)]
  · intro h
    refine ⟨String.ofList (stream.toList.drop 6), ?_, ?_⟩
    · rw [← String.toList_inj, String.toList_append, String.toList_ofList, h, List.take_append_drop]
    · have hlength : key.length = min 6 stream.toList.length := by
        rw [← String.length_toList, h, List.length_take]
      rcases Nat.lt_or_ge stream.toList.length 6 with hshort | hlong
      · refine Or.inr ⟨by omega, ?_⟩
        rw [List.drop_of_length_le (Nat.le_of_lt hshort), String.ofList_nil]
      · exact Or.inl (by omega)

namespace Registry

variable {settings : Settings} {registry : Registry} {group : IndexGroup} {message : Message}
  {stream aliasName : String}

/-- The group that messages without a group of their own go to: the one in use that has the default
index name, or else the one that the settings describe. -/
inductive IsDefault (settings : Settings) (registry : Registry) : IndexGroup → Prop
  /-- There is one in use. -/
  | inUse {group : IndexGroup} (hmem : group ∈ registry.groups)
      (hname : group.indexName = settings.defaultIndexName) : IsDefault settings registry group
  /-- There is none. -/
  | described (hnone : ∀ group ∈ registry.groups, group.indexName ≠ settings.defaultIndexName) :
    IsDefault settings registry settings.defaultGroup

/-- The group that a stream selects. -/
inductive Selects (settings : Settings) (registry : Registry) (stream : String) : IndexGroup → Prop
  /-- The stream's key is the index name of a group in use. -/
  | own {group : IndexGroup} (hmem : group ∈ registry.groups)
      (hkey : IsStreamKey stream group.indexName) : Selects settings registry stream group
  /-- It is none of them. -/
  | byDefault {group : IndexGroup}
      (hnone : ∀ other ∈ registry.groups, ¬ IsStreamKey stream other.indexName)
      (hdefault : IsDefault settings registry group) : Selects settings registry stream group

/-- A message goes to the group of each of its streams, and without streams to the default group. -/
inductive GoesTo (settings : Settings) (registry : Registry) (message : Message) : IndexGroup → Prop
  /-- It has no stream. -/
  | streamless {group : IndexGroup} (hnone : message.streamIds = [])
      (hdefault : IsDefault settings registry group) : GoesTo settings registry message group
  /-- One of its streams selects the group. -/
  | stream {group : IndexGroup} (stream : String) (hmem : stream ∈ message.streamIds)
      (hselects : Selects settings registry stream group) : GoesTo settings registry message group

/-! ## Looking up groups -/

theorem Reaches.group?_eq_some_iff (h : Reaches settings registry) {key : String} :
    registry.group? key = some group ↔ group ∈ registry.groups ∧ group.indexName = key := by
  rw [groups, h.keyed.mem_groups, group?]
  constructor
  · intro hkey
    obtain rfl := h.keyed key group hkey
    exact ⟨hkey, rfl⟩
  · rintro ⟨hgroup, rfl⟩
    exact hgroup

/-- What is found under an index name, with something else to fall back on. -/
theorem Reaches.eq_group?_getD_iff (h : Reaches settings registry) {key : String}
    {other : IndexGroup} : group = (registry.group? key).getD other ↔
      (group ∈ registry.groups ∧ group.indexName = key) ∨
        ((∀ found ∈ registry.groups, found.indexName ≠ key) ∧ group = other) := by
  have hiff : ∀ found, registry.group? key = some found ↔
      found ∈ registry.groups ∧ found.indexName = key := fun found => h.group?_eq_some_iff
  cases hkey : registry.group? key with
  | none =>
    simp only [hkey, reduceCtorEq, false_iff, not_and] at hiff
    rw [Option.getD_none, or_iff_right fun hfound => hiff group hfound.1 hfound.2]
    exact (and_iff_right hiff).symm
  | some found =>
    simp only [hkey, Option.some.injEq] at hiff
    rw [Option.getD_some, ← hiff group, or_iff_left, eq_comm]
    rintro ⟨hnone, -⟩
    obtain ⟨hmem, hname⟩ := (hiff found).mp rfl
    exact hnone found hmem hname

theorem Reaches.isDefault_iff (h : Reaches settings registry) :
    IsDefault settings registry group ↔ group = registry.defaultGroup := by
  have hdefault : registry.defaultGroup =
      (registry.group? settings.defaultIndexName).getD settings.defaultGroup := by
    rw [defaultGroup, defaultIn, h.fallback]
    rfl
  rw [hdefault, h.eq_group?_getD_iff]
  constructor
  · rintro (⟨hmem, hname⟩ | hnone)
    · exact Or.inl ⟨hmem, hname⟩
    · exact Or.inr ⟨hnone, rfl⟩
  · rintro (⟨hmem, hname⟩ | ⟨hnone, rfl⟩)
    · exact .inUse hmem hname
    · exact .described hnone

/-- **A stream selects the group that the search in the table comes to.** -/
theorem Reaches.selects_iff (h : Reaches settings registry) :
    Selects settings registry stream group ↔ group = registry.groupOfStream stream := by
  rw [groupOfStream, h.eq_group?_getD_iff, ← h.isDefault_iff]
  constructor
  · rintro (⟨hmem, hkey⟩ | ⟨hnone, hdefault⟩)
    · exact Or.inl ⟨hmem, isStreamKey_iff.mp hkey⟩
    · exact Or.inr ⟨fun other hmem => mt isStreamKey_iff.mpr (hnone other hmem), hdefault⟩
  · rintro (⟨hmem, hkey⟩ | ⟨hnone, hdefault⟩)
    · exact .own hmem (isStreamKey_iff.mpr hkey)
    · exact .byDefault (fun other hmem => mt isStreamKey_iff.mp (hnone other hmem)) hdefault

theorem mem_destinations_iff : group ∈ registry.destinations message ↔
    (message.streamIds = [] ∧ group = registry.defaultGroup) ∨
      ∃ stream ∈ message.streamIds, group = registry.groupOfStream stream := by
  unfold destinations
  cases message.streamIds with
  | nil => simp
  | cons first streams =>
    rw [List.mem_eraseDups, List.mem_map]
    simp only [reduceCtorEq, false_and, false_or, eq_comm]

/-- **The destinations of a message are the groups that it goes to.** -/
theorem Reaches.mem_destinations (h : Reaches settings registry) :
    group ∈ registry.destinations message ↔ GoesTo settings registry message group := by
  simp only [mem_destinations_iff, ← h.isDefault_iff, ← h.selects_iff]
  constructor
  · rintro (⟨hnone, hdefault⟩ | ⟨stream, hmem, hselects⟩)
    · exact .streamless hnone hdefault
    · exact .stream stream hmem hselects
  · rintro (⟨hnone, hdefault⟩ | ⟨stream, hmem, hselects⟩)
    · exact Or.inl ⟨hnone, hdefault⟩
    · exact Or.inr ⟨stream, hmem, hselects⟩

/-- Erasing repetitions leaves none. -/
theorem nodup_eraseDups : ∀ groups : List IndexGroup, groups.eraseDups.Nodup
  | [] => List.nodup_nil
  | group :: groups => by
    rw [List.eraseDups_cons, List.nodup_cons, List.mem_eraseDups]
    exact ⟨by simp, nodup_eraseDups (groups.filter fun other => !other == group)⟩
termination_by groups => groups.length
decreasing_by exact Nat.lt_succ_of_le (List.length_filter_le _ _)

/-- No group is a destination twice. -/
theorem nodup_destinations (registry : Registry) (message : Message) :
    (registry.destinations message).Nodup := by
  unfold destinations
  split
  · exact List.nodup_singleton _
  · exact nodup_eraseDups _

end Registry

/-! ## The lists of a routing -/

namespace Routes

theorem messagesFor_deliver (routes : Routes) (aliasName other : String) (message : Message) :
    (routes.deliver aliasName message).messagesFor other =
      routes.messagesFor other ++ if aliasName = other then [message] else [] := by
  rw [messagesFor, deliver, Std.ExtTreeMap.getD_insert]
  by_cases h : aliasName = other
  · rw [if_pos (Std.LawfulEqOrd.compare_eq_iff_eq.mpr h), if_pos h, h]
  · rw [if_neg (mt Std.LawfulEqOrd.compare_eq_iff_eq.mp h), if_neg h, List.append_nil]
    rfl

/-- The aliases that occur are those with messages. -/
def Filled (routes : Routes) : Prop :=
  ∀ aliasName, aliasName ∈ routes ↔ routes.messagesFor aliasName ≠ []

theorem filled_empty : Filled ∅ := by
  intro aliasName
  rw [messagesFor, Std.ExtTreeMap.getD_empty]
  exact iff_of_false Std.ExtTreeMap.not_mem_empty fun h => h rfl

theorem Filled.deliver {routes : Routes} (h : routes.Filled) (aliasName : String)
    (message : Message) : (routes.deliver aliasName message).Filled := by
  intro other
  rw [messagesFor_deliver, Routes.deliver, Std.ExtTreeMap.mem_insert, h other,
    Std.LawfulEqOrd.compare_eq_iff_eq]
  by_cases heq : aliasName = other
  · simp [heq]
  · simp [heq]

end Routes

namespace Registry

variable {settings : Settings} {registry : Registry} {message other : Message}
  {aliasName : String} {batch : List Message}

/-- How many of the groups that a message goes to have an alias. -/
def deliveries (registry : Registry) (message : Message) (aliasName : String) : Nat :=
  (registry.destinations message).countP fun group => group.aliasName = aliasName

theorem messagesFor_send (registry : Registry) (routes : Routes) (message : Message)
    (aliasName : String) : (registry.send routes message).messagesFor aliasName =
      routes.messagesFor aliasName ++
        List.replicate (registry.deliveries message aliasName) message := by
  unfold send deliveries
  induction registry.destinations message generalizing routes with
  | nil => simp
  | cons group groups ih =>
    rw [List.foldl_cons, ih, Routes.messagesFor_deliver, List.append_assoc, List.countP_cons]
    by_cases h : group.aliasName = aliasName
    · simp [h, List.replicate_succ]
    · simp [h]

theorem filled_send {routes : Routes} (h : routes.Filled) (registry : Registry)
    (message : Message) : (registry.send routes message).Filled := by
  unfold send
  induction registry.destinations message generalizing routes with
  | nil => exact h
  | cons group groups ih => exact ih (h.deliver group.aliasName message)

/-- **The list of an alias has the messages of the batch, in order, each as often as there are
groups with that alias among those it goes to.** -/
theorem messagesFor_route (registry : Registry) (batch : List Message) (aliasName : String) :
    (registry.route batch).messagesFor aliasName =
      batch.flatMap fun message =>
        List.replicate (registry.deliveries message aliasName) message := by
  -- from any routes on, what the batch brings is added behind
  have hfrom : ∀ routes : Routes, (batch.foldl registry.send routes).messagesFor aliasName =
      routes.messagesFor aliasName ++ batch.flatMap fun message =>
        List.replicate (registry.deliveries message aliasName) message := by
    induction batch with
    | nil => simp
    | cons message batch ih =>
      intro routes
      rw [List.foldl_cons, ih, messagesFor_send, List.flatMap_cons, List.append_assoc]
  exact hfrom ∅

theorem filled_route (registry : Registry) (batch : List Message) :
    (registry.route batch).Filled := by
  have hfrom : ∀ routes : Routes, routes.Filled → (batch.foldl registry.send routes).Filled := by
    induction batch with
    | nil => exact fun _ h => h
    | cons message batch ih => exact fun routes h => ih _ (filled_send h registry message)
  exact hfrom ∅ Routes.filled_empty

/-! ## How often a message is delivered -/

theorem Reaches.deliveries_pos_iff (h : Reaches settings registry) :
    0 < registry.deliveries message aliasName ↔
      ∃ group, GoesTo settings registry message group ∧ group.aliasName = aliasName := by
  simp only [deliveries, List.countP_pos_iff, h.mem_destinations, decide_eq_true_eq]

/-- A message comes into the list of an alias a number of times, whatever stands before and after it
in a batch. -/
def Delivers (registry : Registry) (message : Message) (aliasName : String) (times : Nat) : Prop :=
  ∀ before after, (registry.route (before ++ message :: after)).messagesFor aliasName =
    (registry.route before).messagesFor aliasName ++ List.replicate times message ++
      (registry.route after).messagesFor aliasName

/-- Each message is delivered as often as there are groups with the alias among its destinations. -/
theorem delivers_iff {times : Nat} :
    registry.Delivers message aliasName times ↔ times = registry.deliveries message aliasName := by
  constructor
  · intro h
    have hsingle := congrArg List.length (h [] [])
    simpa [messagesFor_route, eq_comm] using hsingle
  · rintro rfl before after
    simp only [messagesFor_route, List.flatMap_append, List.flatMap_cons, List.append_assoc]

/-- Only which streams a message has makes a difference, not their order nor how often it has them.
-/
theorem deliveries_congr (h : ∀ stream, stream ∈ message.streamIds ↔ stream ∈ other.streamIds)
    (registry : Registry) (aliasName : String) :
    registry.deliveries message aliasName = registry.deliveries other aliasName := by
  have hmem : ∀ group, group ∈ registry.destinations message ↔
      group ∈ registry.destinations other := by
    simp only [mem_destinations_iff, List.eq_nil_iff_forall_not_mem, h, implies_true]
  exact ((List.perm_ext_iff_of_nodup (nodup_destinations _ _) (nodup_destinations _ _)).mpr
    hmem).countP_eq _

/-! ## Routing -/

/-- What a routing does with the messages of a batch. -/
structure Conveys (settings : Settings) (registry : Registry) : Prop where
  /-- The aliases that occur are those of the groups that the messages go to. -/
  mem_route_iff : ∀ batch aliasName, aliasName ∈ registry.route batch ↔
    ∃ message ∈ batch, ∃ group,
      GoesTo settings registry message group ∧ group.aliasName = aliasName
  ne_nil : ∀ batch aliasName, aliasName ∈ registry.route batch →
    (registry.route batch).messagesFor aliasName ≠ []
  mem_messagesFor_iff : ∀ batch aliasName message,
    message ∈ (registry.route batch).messagesFor aliasName ↔ message ∈ batch ∧
      ∃ group, GoesTo settings registry message group ∧ group.aliasName = aliasName
  /-- The messages are in the order of the batch, each as often as there are groups with the alias
  that it goes to. -/
  inOrder : ∀ aliasName, ∃ times : Message → Nat,
    (∀ (message : Message) (groups : List IndexGroup), groups.Nodup →
      (∀ group, group ∈ groups ↔
        GoesTo settings registry message group ∧ group.aliasName = aliasName) →
      times message = groups.length) ∧
    ∀ batch, (registry.route batch).messagesFor aliasName =
      batch.flatMap fun message => List.replicate (times message) message
  /-- No message is lost. -/
  exists_alias : ∀ batch, ∀ message ∈ batch, ∃ aliasName ∈ registry.route batch,
    message ∈ (registry.route batch).messagesFor aliasName
  append : ∀ batch batch' aliasName, (registry.route (batch ++ batch')).messagesFor aliasName =
    (registry.route batch).messagesFor aliasName ++ (registry.route batch').messagesFor aliasName
  /-- Only which streams a message has makes a difference, not their order nor how often it has
  them. -/
  streams : ∀ message other : Message,
    (∀ stream, stream ∈ message.streamIds ↔ stream ∈ other.streamIds) →
      ∀ aliasName, ∃ times, registry.Delivers message aliasName times ∧
        registry.Delivers other aliasName times

/-- A message goes somewhere. -/
theorem Reaches.exists_goesTo (h : Reaches settings registry) (message : Message) :
    ∃ group, GoesTo settings registry message group := by
  cases hstreams : message.streamIds with
  | nil => exact ⟨_, .streamless hstreams (h.isDefault_iff.mpr rfl)⟩
  | cons stream streams =>
    refine ⟨_, .stream stream ?_ (h.selects_iff.mpr rfl)⟩
    rw [hstreams]
    exact List.mem_cons_self

theorem Reaches.mem_messagesFor_iff (h : Reaches settings registry) :
    message ∈ (registry.route batch).messagesFor aliasName ↔ message ∈ batch ∧
      ∃ group, GoesTo settings registry message group ∧ group.aliasName = aliasName := by
  rw [messagesFor_route, List.mem_flatMap, ← h.deliveries_pos_iff]
  simp only [List.mem_replicate]
  constructor
  · rintro ⟨_, hbatch, hne, rfl⟩
    exact ⟨hbatch, Nat.pos_of_ne_zero hne⟩
  · rintro ⟨hbatch, hpos⟩
    exact ⟨message, hbatch, Nat.ne_of_gt hpos, rfl⟩

theorem Reaches.mem_route_iff (h : Reaches settings registry) :
    aliasName ∈ registry.route batch ↔ ∃ message ∈ batch, ∃ group,
      GoesTo settings registry message group ∧ group.aliasName = aliasName := by
  rw [filled_route registry batch aliasName, ne_eq, List.eq_nil_iff_forall_not_mem]
  simp only [not_forall, Classical.not_not, h.mem_messagesFor_iff]

/-- How often a message is delivered can be counted without looking into a table. -/
theorem Reaches.deliveries_eq (h : Reaches settings registry) {groups : List IndexGroup}
    (hnodup : groups.Nodup) (hgroups : ∀ group, group ∈ groups ↔
      GoesTo settings registry message group ∧ group.aliasName = aliasName) :
    registry.deliveries message aliasName = groups.length := by
  rw [deliveries, List.countP_eq_length_filter]
  refine ((List.perm_ext_iff_of_nodup ((nodup_destinations _ _).filter _) hnodup).mpr
    fun group => ?_).length_eq
  rw [List.mem_filter, h.mem_destinations, hgroups, decide_eq_true_eq]

/-- **A routing loses, invents and reorders nothing.** -/
theorem Reaches.route_conveys (h : Reaches settings registry) : Conveys settings registry where
  mem_route_iff _ _ := h.mem_route_iff
  ne_nil batch aliasName := (filled_route registry batch aliasName).mp
  mem_messagesFor_iff _ _ _ := h.mem_messagesFor_iff
  inOrder aliasName := ⟨fun message => registry.deliveries message aliasName,
    fun _ _ => h.deliveries_eq, fun batch => messagesFor_route registry batch aliasName⟩
  exists_alias batch message hbatch := by
    obtain ⟨group, hgroup⟩ := h.exists_goesTo message
    exact ⟨group.aliasName, h.mem_route_iff.mpr ⟨message, hbatch, group, hgroup, rfl⟩,
      h.mem_messagesFor_iff.mpr ⟨hbatch, group, hgroup, rfl⟩⟩
  append batch batch' aliasName := by simp only [messagesFor_route, List.flatMap_append]
  streams message other hstreams aliasName :=
    ⟨registry.deliveries message aliasName, delivers_iff.mpr rfl,
      delivers_iff.mpr (deliveries_congr hstreams registry aliasName)⟩

/-- Another group has the index name of the default group and has taken its place.  A message with
two streams of one group and an unknown stream comes into two lists, and one without streams into
the second of them. -/
theorem Reaches.route_conveys_of_displaced_default :
    let settings : Settings := {}
    let other : IndexGroup := ⟨"a", "internal"⟩
    let group : IndexGroup := ⟨"graylog", "abcdef"⟩
    let registry := (ofSettings settings).publish (Std.ExtTreeSet.ofList [other, group])
    let first : Message := { id := "1", streamIds := ["abcdef01", "unknown", "abcdef02"] }
    let second : Message := { id := "2" }
    Reaches settings registry ∧
      first ∈ (registry.route [first, second]).messagesFor group.aliasName ∧
      first ∈ (registry.route [first, second]).messagesFor other.aliasName ∧
      second ∈ (registry.route [first, second]).messagesFor other.aliasName ∧
      second ∉ (registry.route [first, second]).messagesFor group.aliasName := by
  intro settings other group registry first second
  have hreaches : Reaches settings registry := .publish .start _
  have hmem := hreaches.route_conveys.mem_messagesFor_iff [first, second]
  have hgroups : ∀ g, g ∈ registry.groups ↔ g ∈ [other, group] := fun g =>
    GroupTable.mem_groups_ofSet_of_nodup (by decide)
  have hdefault : IsDefault settings registry other :=
    .inUse ((hgroups _).mpr List.mem_cons_self) rfl
  have hown : GoesTo settings registry first group :=
    .stream "abcdef01" (by decide)
      (.own ((hgroups _).mpr (by decide)) ⟨"01", by decide, Or.inl (by decide)⟩)
  have hunknown : GoesTo settings registry first other := by
    refine .stream "unknown" (by decide) (.byDefault (fun g hg => ?_) hdefault)
    rw [isStreamKey_iff]
    revert g
    simp only [hgroups]
    decide
  refine ⟨hreaches, (hmem _ _).mpr ⟨by decide, group, hown, rfl⟩,
    (hmem _ _).mpr ⟨by decide, other, hunknown, rfl⟩,
    (hmem _ _).mpr ⟨by decide, other, .streamless rfl hdefault, rfl⟩, fun h => ?_⟩
  obtain ⟨-, g, hg, haliasName⟩ := (hmem _ _).mp h
  rcases hg with ⟨-, hg⟩ | ⟨stream, hstream, -⟩
  · rw [hreaches.isDefault_iff] at hg hdefault
    rw [hg, ← hdefault] at haliasName
    exact absurd haliasName (by decide)
  · cases hstream

end Registry
end Rollover
