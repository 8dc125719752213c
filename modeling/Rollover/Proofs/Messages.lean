import Rollover.Message
import Rollover.Proofs.Writing

/-!
# Messages are canonical

Many texts are read as the same message.  It may be an array of one, two or three values, or an
object; of the members of an object two may be missing, and others may be there that nobody reads;
and a field may be set more than once, in which case the last setting counts.  `Message.Form` lists
all of this, and a text is read as a message exactly if it stands for a value of such a form
(`Message.parse?_eq_some_iff`).

Writing picks one of these texts.  It names the streams in their order and as often as they occur,
and each field once, in ascending order of the names (`Message.denotes_text`).  That text is read
as the message it was written for (`Message.parse?_text`), so one reading and one writing take any
text to the one that stands for it, and a second time changes nothing (`Message.text_canonical`).
-/

namespace Rollover
namespace Message

open Json (ofText ofMembers Once)

/-! ## Streams and fields -/

section Fields

variable {value : Json} {fields : Std.ExtTreeMap String String} {entries : List (String × String)}
  {key text : String}

/-- The value of a list of streams. -/
def streamsJson (streams : List String) : Json :=
  .array (streams.map ofText)

/-- Streams are read from an array of texts, in order and as often as they stand there. -/
theorem readStreams?_eq_some_iff {streams : List String} :
    readStreams? value = some streams ↔ value = streamsJson streams := by
  simp only [readStreams?, Option.bind_eq_bind, Option.bind_eq_some_iff, Json.items?_eq_some_iff,
    Json.mapM_eq_some_iff_eq_map ofText fun _ _ => Json.text?_eq_some_iff]
  constructor
  · rintro ⟨items, rfl, rfl⟩
    rfl
  · rintro rfl
    exact ⟨_, rfl, rfl⟩

theorem readStreams?_streamsJson (streams : List String) :
    readStreams? (streamsJson streams) = some streams :=
  readStreams?_eq_some_iff.mpr rfl

/-- The last of the entries with the key sets it to the text. -/
def LastSet (entries : List (String × String)) (key text : String) : Prop :=
  ∃ front back, entries = front ++ (key, text) :: back ∧ ∀ entry ∈ back, entry.1 ≠ key

/-- **Of entries with the same key the last one counts.** -/
theorem getElem?_ofList_eq_some_iff :
    (Std.ExtTreeMap.ofList entries)[key]? = some text ↔ LastSet entries key text := by
  rw [Std.ExtTreeMap.ofList_eq_insertMany_empty, Std.ExtTreeMap.getElem?_insertMany_list,
    Std.ExtTreeMap.getElem?_empty, Option.or_none, List.findSomeRev?_eq_findSome?_reverse,
    List.findSome?_eq_some_iff]
  have hpicked : ∀ entry : String × String,
      (if compare entry.1 key = .eq then some entry.2 else none) = some text ↔
        entry = (key, text) := by
    rintro ⟨other, setting⟩
    simp
  have hpassed : ∀ entry : String × String,
      (if compare entry.1 key = .eq then some entry.2 else none) = none ↔ entry.1 ≠ key := by
    rintro ⟨other, setting⟩
    simp
  -- the search runs from the end, so what it passes is what comes after the entry
  constructor
  · rintro ⟨back, entry, front, hsplit, hentry, hback⟩
    rw [(hpicked entry).mp hentry] at hsplit
    refine ⟨front.reverse, back.reverse, ?_, fun other hother => ?_⟩
    · rw [← List.reverse_inj, hsplit]
      simp
    · exact (hpassed other).mp (hback other (List.mem_reverse.mp hother))
  · rintro ⟨front, back, rfl, hback⟩
    refine ⟨back.reverse, (key, text), front.reverse, by simp, (hpicked _).mpr rfl, ?_⟩
    exact fun other hother => (hpassed other).mpr (hback other (List.mem_reverse.mp hother))

theorem ofList_toList (fields : Std.ExtTreeMap String String) :
    Std.ExtTreeMap.ofList fields.toList = fields := by
  refine Std.ExtTreeMap.ext_getElem? fun key => Option.ext fun text => ?_
  constructor
  · intro h
    obtain ⟨front, back, hsplit, -⟩ := getElem?_ofList_eq_some_iff.mp h
    refine Std.ExtTreeMap.mem_toList_iff_getElem?_eq_some.mp ?_
    rw [hsplit]
    exact List.mem_append_right front List.mem_cons_self
  · intro h
    exact Std.ExtTreeMap.getElem?_ofList_of_mem (Std.ReflOrd.compare_self)
      Std.ExtTreeMap.distinct_keys_toList (Std.ExtTreeMap.mem_toList_iff_getElem?_eq_some.mpr h)

/-- The value of a list of fields. -/
def fieldsJson (entries : List (String × String)) : Json :=
  ofMembers (entries.map fun entry => (entry.1, ofText entry.2))

/-- The value sets the fields, possibly more than once, and the last setting of each counts. -/
def FieldsForm (value : Json) (fields : Std.ExtTreeMap String String) : Prop :=
  ∃ entries, value = fieldsJson entries ∧
    ∀ key text, fields[key]? = some text ↔ LastSet entries key text

/-- **Fields are read from an object of texts.** -/
theorem readFields?_eq_some_iff : readFields? value = some fields ↔ FieldsForm value fields := by
  have hentry : ∀ (member : String × Json) (entry : String × String),
      (member.2.text?.map fun text => (member.1, text)) = some entry ↔
        member = (entry.1, ofText entry.2) := by
    rintro ⟨key, value⟩ ⟨key', text⟩
    simp [Json.text?_eq_some_iff, and_comm]
  have hread : readFields? value = some fields ↔
      ∃ entries, value = fieldsJson entries ∧ Std.ExtTreeMap.ofList entries = fields := by
    simp only [readFields?, Option.bind_eq_bind, Option.bind_eq_some_iff, Option.pure_def,
      Option.some.injEq, Json.members?_eq_some_iff, Json.mapM_eq_some_iff_eq_map _ hentry]
    constructor
    · rintro ⟨members, rfl, entries, rfl, hfields⟩
      exact ⟨entries, rfl, hfields⟩
    · rintro ⟨entries, rfl, hfields⟩
      exact ⟨_, rfl, entries, rfl, hfields⟩
  rw [hread]
  refine exists_congr fun entries => and_congr_right fun _ => ?_
  constructor
  · rintro rfl key text
    exact getElem?_ofList_eq_some_iff
  · intro h
    refine Std.ExtTreeMap.ext_getElem? fun key => Option.ext fun text => ?_
    exact getElem?_ofList_eq_some_iff.trans (h key text).symm

end Fields

/-! ## Messages -/

variable {value : Json} {message : Message} {text : String}

/-- The only member of that name has the form, or there is none and the default is taken. -/
def OrDefault {α : Type} (form : Json → α → Prop) (default : α) (members : List (String × Json))
    (key : String) (a : α) : Prop :=
  (∃ value, Once members key value ∧ form value a) ∨
    ((∀ member ∈ members, member.1 ≠ key) ∧ a = default)

theorem orDefault_eq_some_iff {α : Type} {read : Json → Option α} {form : Json → α → Prop}
    (hform : ∀ value a, read value = some a ↔ form value a) {default a : α}
    {members : List (String × Json)} {key : String} :
    orDefault read default (Json.field key members) = some a ↔
      OrDefault form default members key a := by
  simp only [OrDefault, ← Json.field_eq_found_iff, ← Json.field_eq_missing_iff, ← hform]
  cases Json.field key members with
  | missing => simp [orDefault, eq_comm]
  | found value => simp [orDefault]
  | repeated => simp [orDefault]

/-- A value that is read as a message. -/
inductive Form : Json → Message → Prop
  /-- The identity alone. -/
  | identity (id : String) : Form (.array [ofText id]) { id }
  /-- The identity and the streams. -/
  | routed (id : String) (streamIds : List String) :
    Form (.array [ofText id, streamsJson streamIds]) { id, streamIds }
  /-- All three in order. -/
  | full {id : String} {streamIds : List String} {value : Json}
      {fields : Std.ExtTreeMap String String} (hfields : FieldsForm value fields) :
    Form (.array [ofText id, streamsJson streamIds, value]) { id, streamIds, fields }
  /-- The members, which may stand anywhere among others.  Two of them may be missing. -/
  | members {members : List (String × Json)} {id : String} {streamIds : List String}
      {fields : Std.ExtTreeMap String String} (hid : Once members "id" (ofText id))
      (hstreams : OrDefault (fun value streams => value = streamsJson streams) [] members
        "stream_ids" streamIds)
      (hfields : OrDefault FieldsForm ∅ members "fields" fields) :
    Form (ofMembers members) { id, streamIds, fields }

/-- **A value is read as a message if it is one of its forms.** -/
theorem ofJson?_eq_some_iff : ofJson? value = some message ↔ Form value message := by
  constructor
  · intro h
    rw [ofJson?.eq_def] at h
    split at h
    · simp only [Option.bind_eq_bind, Option.bind_eq_some_iff, Option.pure_def,
        Option.some.injEq, Json.text?_eq_some_iff] at h
      obtain ⟨id, rfl, rfl⟩ := h
      exact .identity id
    · simp only [Option.bind_eq_bind, Option.bind_eq_some_iff, Option.pure_def,
        Option.some.injEq, Json.text?_eq_some_iff, readStreams?_eq_some_iff] at h
      obtain ⟨id, rfl, streams, rfl, rfl⟩ := h
      exact .routed id streams
    · simp only [Option.bind_eq_bind, Option.bind_eq_some_iff, Option.pure_def,
        Option.some.injEq, Json.text?_eq_some_iff, readStreams?_eq_some_iff,
        readFields?_eq_some_iff] at h
      obtain ⟨id, rfl, streams, rfl, fields, hfields, rfl⟩ := h
      exact .full hfields
    · simp only [Option.bind_eq_bind, Option.bind_eq_some_iff] at h
      obtain ⟨members, hmembers, h⟩ := h
      obtain rfl := Json.members?_eq_some_iff.mp hmembers
      split at h
      · next _ value hid =>
        simp only [Option.bind_eq_some_iff, Option.pure_def, Option.some.injEq,
          Json.text?_eq_some_iff, orDefault_eq_some_iff fun _ _ => readStreams?_eq_some_iff,
          orDefault_eq_some_iff fun _ _ => readFields?_eq_some_iff] at h
        obtain ⟨id, rfl, streams, hstreams, fields, hfields, rfl⟩ := h
        exact .members (Json.field_eq_found_iff.mp hid) hstreams hfields
      · cases h
  · intro h
    cases h with
    | identity id => rfl
    | routed id streams =>
      show (readStreams? (streamsJson streams)).bind _ = _
      rw [readStreams?_streamsJson]
      rfl
    | @full id streams value fields hfields =>
      show (readStreams? (streamsJson streams)).bind _ = _
      rw [readStreams?_streamsJson]
      show (readFields? value).bind _ = _
      rw [readFields?_eq_some_iff.mpr hfields]
      rfl
    | @members members id streams fields hid hstreams hfields =>
      rw [← orDefault_eq_some_iff fun _ _ => readStreams?_eq_some_iff] at hstreams
      rw [← orDefault_eq_some_iff fun _ _ => readFields?_eq_some_iff] at hfields
      show (ofMembers members).members?.bind _ = _
      simp only [Json.members?_ofMembers, Option.bind_some, Json.field_eq_found_iff.mpr hid,
        hstreams, hfields]
      rfl

/-- A text is read as a message if its value is one of the forms. -/
theorem parse?_eq_some_iff :
    parse? text = some message ↔ ∃ value, Json.Denotes text value ∧ Form value message := by
  simp only [parse?, Option.bind_eq_some_iff, Json.parse?_eq_some_iff, ofJson?_eq_some_iff]

/-! ## Writing -/

/-- The members of a written message. -/
def members (message : Message) : List (String × Json) :=
  [("id", ofText message.id), ("stream_ids", streamsJson message.streamIds),
    ("fields", fieldsJson message.fields.toList)]

/-- All three members are written, each of them once. -/
theorem form_members (message : Message) : Form (ofMembers message.members) message := by
  have hid : Once message.members "id" (ofText message.id) := ⟨[], _, rfl, by simp⟩
  have hstreams : Once message.members "stream_ids" (streamsJson message.streamIds) :=
    ⟨[_], [_], rfl, by simp⟩
  have hfields : Once message.members "fields" (fieldsJson message.fields.toList) :=
    ⟨[_, _], [], rfl, by simp⟩
  refine .members hid (.inl ⟨_, hstreams, rfl⟩) (.inl ⟨_, hfields, _, rfl, fun key text => ?_⟩)
  rw [← getElem?_ofList_eq_some_iff, ofList_toList]

theorem written_tokens (message : Message) :
    Json.Written (ofMembers message.members) message.tokens := by
  have hstreams := Json.written_array fun stream (_ : stream ∈ message.streamIds) =>
    Json.written_string stream
  have hfields := Json.written_object Prod.fst fun field (_ : field ∈ message.fields.toList) =>
    Json.written_string field.2
  -- each name with its value and the tokens that it is written as
  have hmembers : ∀ member ∈ [("id", ofText message.id, [.ofString message.id]),
      ("stream_ids", streamsJson message.streamIds, Json.Token.array _),
      ("fields", fieldsJson message.fields.toList, Json.Token.object _)],
      Json.Written member.2.1 member.2.2 :=
    List.forall_mem_cons.mpr ⟨Json.written_string message.id,
      List.forall_mem_cons.mpr ⟨hstreams, List.forall_mem_singleton.mpr hfields⟩⟩
  exact Json.written_object Prod.fst hmembers

/-- The value of a written message. -/
theorem denotes_text (message : Message) :
    Json.Denotes message.text (ofMembers message.members) :=
  message.written_tokens.denotes_compact

/-- **What is written is read again.** -/
theorem parse?_text (message : Message) : parse? message.text = some message :=
  parse?_eq_some_iff.mpr ⟨_, message.denotes_text, message.form_members⟩

theorem pairwise_toList (fields : Std.ExtTreeMap String String) :
    fields.toList.Pairwise fun a b => a.1 < b.1 :=
  (Std.ExtTreeMap.ordered_keys_toList (t := fields)).imp fun hab =>
    compareOfLessAndEq_eq_lt.mp hab

/-- **Messages are canonical.**  Every message is read as it was written.  Its text has the streams
in their order and as often as they occur, and each field once, in ascending order of the names.  A
text is read as a message if its value is of one of the forms.  And from any text that is read the
first writing makes one that is read as the same message, and that reading and writing again leaves
as it is. -/
theorem text_canonical :
    (∀ message : Message, parse? message.text = some message) ∧
      (∀ message : Message, ∃ entries,
        entries.Pairwise (fun a b => a.1 < b.1) ∧
        (∀ key value, (key, value) ∈ entries ↔ message.fields[key]? = some value) ∧
        Json.Denotes message.text (ofMembers [("id", ofText message.id),
          ("stream_ids", streamsJson message.streamIds), ("fields", fieldsJson entries)])) ∧
      (∀ text message, parse? text = some message ↔
        ∃ value, Json.Denotes text value ∧ Form value message) ∧
      ∀ text message, parse? text = some message →
        parse? message.text = some message ∧
          ∀ again, parse? message.text = some again → again.text = message.text := by
  refine ⟨parse?_text, fun message => ⟨message.fields.toList, pairwise_toList _, fun key value =>
      Std.ExtTreeMap.mem_toList_iff_getElem?_eq_some, message.denotes_text⟩,
    fun _ _ => parse?_eq_some_iff,
    fun text message _ => ⟨message.parse?_text, fun again hagain => ?_⟩⟩
  rw [parse?_text] at hagain
  rw [Option.some.inj hagain]

/-- A text without streams, with a member that is not read, and with a field that is set twice. -/
def looseText : String :=
  "\x7b \"fields\": \x7b\"a\": \"1\", \"b\": \"\\/\", \"a\": \"\\ud83d\\ude00\"\x7d,\n" ++
  "  \"extra\": [true, -0.5e+3], \"id\": \"m\\u0000\" \x7d"

/-- The message it is read as. -/
def looseMessage : Message where
  id := "m\x00"
  fields := Std.ExtTreeMap.ofList [("a", "😀"), ("b", "/")]

theorem text_canonical_of_loose :
    parse? looseText = some looseMessage ∧ parse? looseMessage.text = some looseMessage ∧
      ∀ again, parse? looseMessage.text = some again → again.text = looseMessage.text := by
  have hread : parse? looseText = some looseMessage := by decide +kernel
  exact ⟨hread, text_canonical.2.2.2 looseText looseMessage hread⟩

end Message
end Rollover
