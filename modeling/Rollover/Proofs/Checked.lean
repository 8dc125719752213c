import Rollover.GroupView
import Rollover.Proofs.Delivery
import Rollover.Proofs.Sifting

/-!
# Operations that need not have a result

Some of what is done to texts, numbers and tables is not defined everywhere.  A sum can leave its
64 bits, a text cannot be cut in the middle of a character, and a table need not have what is looked
up in it.  This file spells these operations out, each with `none` for the case in which there is no
result, and puts them to the use that the library makes of them:

1. the digits of a number are read in 64 bits throughout (`Word.readOn?`), and so the number after
   the highest one is formed (`GroupView.next?_eq`);
2. the key of a stream is cut off at a byte offset (`streamKey?`), and batches are routed with it
   (`Registry.route?`);
3. for each group that gives way in a table, the group that it gives way to is looked up
   (`Registry.publish?`), also where a reconciliation replaces the table (`Registry.reconcile?`).

Each of them then turns out to be what the library computes without them.  The case without a result
does not occur, or it is answered by an error: a numeral beyond 64 bits is out of range, whichever
of its digits makes it so.
-/

namespace Rollover

/-! ## Numbers in 64 bits -/

namespace Word

variable {a : UInt64} {n : Nat} {cs : List Char}

/-- A number as 64 bits, if that many are enough. -/
def ofNat? (n : Nat) : Option UInt64 :=
  if n < UInt64.size then some (UInt64.ofNat n) else none

/-- The sum of two numbers, if it has 64 bits. -/
def add? (a b : UInt64) : Option UInt64 :=
  if a.toNat + b.toNat < UInt64.size then some (a + b) else none

/-- The product of two numbers, if it has 64 bits. -/
def mul? (a b : UInt64) : Option UInt64 :=
  if a.toNat * b.toNat < UInt64.size then some (a * b) else none

/-- Reads on from the number that stands for the digits read so far.  Each digit takes a product
and a sum, and both must stay in range. -/
def readOn? (sofar : UInt64) : List Char → Option UInt64
  | [] => some sofar
  | c :: cs => do
    let shifted ← mul? sofar 10
    let sum ← add? shifted (UInt64.ofNat (c.toNat - '0'.toNat))
    readOn? sum cs

theorem add?_eq (a b : UInt64) : add? a b = ofNat? (a.toNat + b.toNat) := by
  rw [add?, ofNat?, UInt64.ofNat_add, UInt64.ofNat_toNat, UInt64.ofNat_toNat]

theorem mul?_eq (a b : UInt64) : mul? a b = ofNat? (a.toNat * b.toNat) := by
  rw [mul?, ofNat?, UInt64.ofNat_mul, UInt64.ofNat_toNat, UInt64.ofNat_toNat]

theorem ofNat?_eq_some_iff : ofNat? n = some a ↔ a.toNat = n := by
  unfold ofNat?
  have hbound : a.toNat < UInt64.size := a.toNat_lt
  split
  · next hlt =>
    rw [Option.some_inj, ← UInt64.toNat_inj, UInt64.toNat_ofNat_of_lt' hlt]
    exact eq_comm
  · next hge =>
    refine ⟨nofun, ?_⟩
    rintro rfl
    exact absurd hbound hge

theorem ofNat?_eq_none_iff : ofNat? n = none ↔ UInt64.size ≤ n := by
  unfold ofNat?
  split <;> simp <;> omega

theorem le_ofDigitChars (cs : List Char) (n : Nat) : n ≤ Nat.ofDigitChars 10 cs n := by
  induction cs generalizing n with
  | nil => exact Nat.le_refl n
  | cons c cs ih =>
    rw [Nat.ofDigitChars_cons]
    exact Nat.le_trans (by omega) (ih _)

/-- **Reading in 64 bits is reading at large, as long as the number has 64 bits.**  If a step on the
way leaves them, the number does, too. -/
theorem readOn?_eq (h : ∀ c ∈ cs, c.isDigit = true) (sofar : UInt64) :
    readOn? sofar cs = ofNat? (Nat.ofDigitChars 10 cs sofar.toNat) := by
  induction cs generalizing sofar with
  | nil => exact (ofNat?_eq_some_iff.mpr rfl).symm
  | cons c cs ih =>
    obtain ⟨hc, hcs⟩ := List.forall_mem_cons.mp h
    have hdigit : (UInt64.ofNat (c.toNat - '0'.toNat)).toNat = c.toNat - '0'.toNat := by
      refine UInt64.toNat_ofNat_of_lt' (Nat.lt_of_le_of_lt (Nat.sub_le ..) ?_)
      exact Nat.lt_trans c.val.toNat_lt (by decide)
    have hgrows := le_ofDigitChars cs (10 * sofar.toNat + (c.toNat - '0'.toNat))
    rw [readOn?, Nat.ofDigitChars_cons, mul?_eq, show (10 : UInt64).toNat = 10 from rfl,
      Nat.mul_comm sofar.toNat 10]
    cases hshifted : ofNat? (10 * sofar.toNat) with
    | none =>
      have hlarge := ofNat?_eq_none_iff.mp hshifted
      exact (ofNat?_eq_none_iff.mpr (by omega)).symm
    | some shifted =>
      obtain hshifted := ofNat?_eq_some_iff.mp hshifted
      show (add? shifted _ >>= fun sum => readOn? sum cs) = _
      rw [add?_eq, hdigit, hshifted]
      cases hsum : ofNat? (10 * sofar.toNat + (c.toNat - '0'.toNat)) with
      | none =>
        have hlarge := ofNat?_eq_none_iff.mp hsum
        exact (ofNat?_eq_none_iff.mpr (by omega)).symm
      | some sum =>
        rw [← ofNat?_eq_some_iff.mp hsum]
        exact ih hcs sum

end Word

/-- The number after the highest one is a sum in 64 bits. -/
theorem GroupView.next?_eq (view : GroupView) : view.next? =
    match view.latest? with
    | none => some GroupView.firstNumber
    | some number => Word.add? number 1 :=
  rfl

/-! ## Reading the numbers of indices -/

namespace Segment

/-- Reads the part of a name that should be a number, in 64 bits. -/
def readNumber64 (suffix : List Char) : Except NameFault UInt64 :=
  if suffix = aliasSuffix.toList then .error .aliasHasNoNumber
  else if Decimal.IsNumeral suffix then
    match Word.readOn? 0 suffix with
    | some number => .ok number
    | none => .error .outOfRange
  else .error (.notANumeral (String.ofList suffix))

/-- Reads the number of an index from its name, in 64 bits. -/
def number64? (name : String) : Except Error UInt64 :=
  match Cut.afterLast? '_' name.toList with
  | none => .error (.malformedName name .missingSeparator)
  | some suffix => (readNumber64 suffix).mapError (.malformedName name)

theorem readNumber64_eq : readNumber64 = readNumber := by
  funext suffix
  unfold readNumber64 readNumber Decimal.read?
  split
  · rfl
  split
  · next hnumeral =>
    have hread : Word.readOn? 0 suffix = Word.ofNat? (Decimal.value suffix) :=
      Word.readOn?_eq hnumeral.2 0
    rw [hread, Word.ofNat?]
    dsimp only
    by_cases hsize : Decimal.value suffix < UInt64.size
    · rw [if_pos hsize, if_pos hsize]
    · rw [if_neg hsize, if_neg hsize]
  · rfl

theorem number64?_eq (name : String) : number64? name = number? name := by
  rw [number64?, readNumber64_eq]
  rfl

end Segment

namespace IndexGroup

/-- What a name is to the group, with numbers read in 64 bits. -/
def parse64 (group : IndexGroup) (name : String) : Except Error Segment :=
  match group.suffix? name with
  | none => .error (.foreignSegment name group.fullName)
  | some suffix =>
    if suffix = Segment.aliasSuffix.toList then .ok (.writeAlias group.fullName)
    else
      match Segment.readNumber64 suffix with
      | .error fault => .error (.malformedName name fault)
      | .ok number => .ok (.ordinary group.fullName number)

theorem parse64_eq (group : IndexGroup) (name : String) : group.parse64 name = group.parse name := by
  rw [parse64, Segment.readNumber64_eq]
  rfl

end IndexGroup

/-! ## Cutting texts at byte offsets -/

namespace Utf8

/-- The characters of a text, each with the byte offset at which it begins. -/
def indices (offset : Nat) : List Char → List (Nat × Char)
  | [] => []
  | c :: cs => (offset, c) :: indices (offset + c.utf8Size) cs

/-- The part of a text before a byte offset, if no character is cut in two there. -/
def before? (text : String) (offset : Nat) : Option String :=
  if h : String.Pos.Raw.IsValid text ⟨offset⟩ then some (text.sliceTo (text.pos ⟨offset⟩ h)).copy
  else none

/-- Each character begins where the ones before it end. -/
theorem getElem?_indices (offset : Nat) (cs : List Char) (i : Nat) :
    (indices offset cs)[i]? =
      cs[i]?.map fun c => (offset + (String.ofList (cs.take i)).utf8ByteSize, c) := by
  induction cs generalizing offset i with
  | nil => rfl
  | cons c cs ih =>
    cases i with
    | zero => rfl
    | succ i =>
      rw [indices, List.getElem?_cons_succ, List.getElem?_cons_succ, ih, List.take_succ_cons,
        String.ofList_cons, String.utf8ByteSize_append, String.utf8ByteSize_singleton,
        Nat.add_assoc]

/-- A text can be cut after any part with which it begins. -/
theorem before?_append (front rest : String) :
    before? (front ++ rest) front.utf8ByteSize = some front := by
  have hvalid : String.Pos.Raw.IsValid (front ++ rest) ⟨front.utf8ByteSize⟩ :=
    String.Pos.Raw.isValid_iff_exists_append.mpr ⟨front, rest, rfl, rfl⟩
  rw [before?, dif_pos hvalid]
  exact congrArg some (String.Pos.splits_append_rawEndPos (s := front) (t := rest)).copy_sliceTo_eq

end Utf8

/-- The part of a stream that selects a group, cut off where the character after it begins. -/
def streamKey? (stream : String) : Option String :=
  match (Utf8.indices 0 stream.toList)[streamKeyLength]? with
  | some (offset, _) => Utf8.before? stream offset
  | none => some stream

/-- **The key of a stream ends between two characters.** -/
theorem streamKey?_eq (stream : String) : streamKey? stream = some (streamKey stream) := by
  unfold streamKey?
  rw [Utf8.getElem?_indices]
  cases hnext : stream.toList[streamKeyLength]? with
  | none =>
    have hshort := List.getElem?_eq_none_iff.mp hnext
    exact congrArg some (by rw [streamKey, List.take_of_length_le hshort, String.ofList_toList])
  | some c =>
    have hsplit : stream =
        streamKey stream ++ String.ofList (stream.toList.drop streamKeyLength) := by
      rw [streamKey, ← String.ofList_append, List.take_append_drop, String.ofList_toList]
    show Utf8.before? stream (0 + (streamKey stream).utf8ByteSize) = _
    rw [Nat.zero_add]
    conv => lhs; arg 1; rw [hsplit]
    exact Utf8.before?_append _ _

namespace Registry

/-! ## Routing -/

/-- The group that a stream selects, with the key of the stream cut off at a byte offset. -/
def groupOfStream? (registry : Registry) (stream : String) : Option IndexGroup := do
  return (registry.group? (← streamKey? stream)).getD registry.defaultGroup

/-- The groups that a message goes to, as far as its streams can be cut. -/
def destinations? (registry : Registry) (message : Message) : Option (List IndexGroup) :=
  match message.streamIds with
  | [] => some [registry.defaultGroup]
  | streams => do return (← streams.mapM registry.groupOfStream?).eraseDups

/-- Sends a message to all its destinations, as far as they can be found out. -/
def send? (registry : Registry) (routes : Routes) (message : Message) : Option Routes := do
  return (← registry.destinations? message).foldl
    (fun routes group => routes.deliver group.aliasName message) routes

/-- Routes a batch of messages, as far as their destinations can be found out. -/
def route? (registry : Registry) (messages : List Message) : Option Routes :=
  messages.foldlM registry.send? ∅

theorem groupOfStream?_eq (registry : Registry) :
    registry.groupOfStream? = fun stream => some (registry.groupOfStream stream) := by
  funext stream
  rw [groupOfStream?, streamKey?_eq]
  rfl

theorem destinations?_eq (registry : Registry) (message : Message) :
    registry.destinations? message = some (registry.destinations message) := by
  unfold destinations? destinations
  cases message.streamIds with
  | nil => rfl
  | cons stream streams =>
    have hselected : (stream :: streams).mapM registry.groupOfStream? =
        some ((stream :: streams).map registry.groupOfStream) := by
      rw [groupOfStream?_eq]
      exact List.mapM_pure
    dsimp only
    rw [hselected]
    rfl

/-- **Every batch is routed.** -/
theorem route?_eq (registry : Registry) (messages : List Message) :
    registry.route? messages = some (registry.route messages) := by
  have hsend : registry.send? = fun routes message => some (registry.send routes message) := by
    funext routes message
    rw [send?, destinations?_eq]
    rfl
  rw [route?, hsend]
  exact List.foldlM_pure

/-! ## Replacing a table -/

/-- Puts a new table in place.  For each group that gives way, it comes with the group that is kept
instead, looked up under the index name of the one that gives way. -/
def publish? (registry : Registry) (groups : GroupSet) :
    Option (Registry × List (IndexGroup × IndexGroup)) := do
  let (kept, dropped) := GroupTable.distinct groups.toList
  let pairs ← dropped.mapM fun group => do return (← kept[group.indexName]?, group)
  return ({ registry with table := kept, edition := registry.edition + 1 }, pairs)

/-- Brings the registry in line with what a store has, with those lookups. -/
def reconcile? (registry : Registry) (loaded : Except Error GroupSet) :
    Option (Registry × Reconciliation) :=
  match loaded with
  | .error _ => some (registry, .storeFailed)
  | .ok stored => do
    let wanted := stored.insert registry.fallback
    let published := (GroupTable.distinct wanted.toList).1.groups
    let added := countMissing published registry.groups
    let removed := countMissing registry.groups published
    if added = 0 ∧ removed = 0 then return (registry, .unchanged)
    let (replaced, _) ← registry.publish? wanted
    return (replaced, .updated added removed)

/-- Each lookup in a list finds something. -/
theorem exists_mapM_eq_some {α β : Type} {find : α → Option β} :
    ∀ {list : List α}, (∀ a ∈ list, ∃ b, find a = some b) →
      ∃ pairs, (list.mapM fun a => do return (← find a, a)) = some pairs ∧
        pairs.map Prod.snd = list ∧ ∀ pair ∈ pairs, find pair.2 = some pair.1
  | [], _ => ⟨[], rfl, rfl, nofun⟩
  | a :: list, h => by
    obtain ⟨⟨b, hb⟩, hlist⟩ := List.forall_mem_cons.mp h
    obtain ⟨pairs, hpairs, hsnd, hfound⟩ := exists_mapM_eq_some hlist
    refine ⟨(b, a) :: pairs, ?_, ?_, List.forall_mem_cons.mpr ⟨hb, hfound⟩⟩
    · rw [List.mapM_cons, hb]
      exact congrArg (fun rest => rest >>= fun rest => some ((b, a) :: rest)) hpairs
    · rw [List.map_cons, hsnd]

/-- **Every group that gives way finds the one that it gives way to.**  That is a group of the set
with its index name, and one that does not come after it. -/
theorem publish?_eq (registry : Registry) (groups : GroupSet) :
    ∃ pairs, registry.publish? groups = some (registry.publish groups, pairs) ∧
      pairs.map Prod.snd = (GroupTable.distinct groups.toList).2 ∧
      ∀ pair ∈ pairs, pair.1 ∈ (registry.publish groups).groups ∧
        pair.1.indexName = pair.2.indexName ∧ GroupTable.NotAbove pair.1 pair.2 := by
  have hsplit := GroupTable.distinct_distinguishes groups.toList
  have hkept : ∀ group ∈ (GroupTable.distinct groups.toList).2, ∃ kept,
      (GroupTable.distinct groups.toList).1[group.indexName]? = some kept :=
    fun group hgroup => (hsplit.gives_way group hgroup).imp fun _ h => h.1
  obtain ⟨pairs, hpairs, hsnd, hfound⟩ := exists_mapM_eq_some hkept
  refine ⟨pairs, ?_, hsnd, fun pair hpair => ?_⟩
  · rw [publish?]
    exact congrArg (fun rest => rest >>= fun pairs => some (registry.publish groups, pairs)) hpairs
  · have hdropped : pair.2 ∈ (GroupTable.distinct groups.toList).2 :=
      hsnd ▸ List.mem_map_of_mem hpair
    obtain ⟨other, hother, hname, hnot⟩ := hsplit.gives_way pair.2 hdropped
    obtain rfl : other = pair.1 := Option.some.inj (hother.symm.trans (hfound pair hpair))
    exact ⟨GroupTable.mem_groups.mpr ⟨_, hother⟩, hname, hnot⟩

/-- **Every reconciliation comes to its end.** -/
theorem reconcile?_eq (registry : Registry) (loaded : Except Error GroupSet) :
    registry.reconcile? loaded = some (registry.reconcile loaded) := by
  cases loaded with
  | error cause => rfl
  | ok stored =>
    obtain ⟨pairs, hpublish, -⟩ := registry.publish?_eq (stored.insert registry.fallback)
    unfold reconcile? reconcile
    dsimp only [GroupTable.ofSet]
    rw [hpublish]
    split <;> rfl

end Registry
end Rollover
