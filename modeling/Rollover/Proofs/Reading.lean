import Rollover.Proofs.Names

/-!
# How names are read

There are two readers of names.  `Segment.number?` takes any name and looks at what follows its last
underscore; `IndexGroup.parse` takes the name for one of the group's and looks at what follows the
group's full name and an underscore.  Both come to one test of a text: whether it *spells* a number,
which is to say that it is a numeral of a number of 64 bits (`Decimal.Spells`), and if it does not,
what is wrong with it (`Segment.Faulty`).

* A name has the number `n` exactly if it ends in an underscore and a text that spells `n`
  (`Segment.number?_eq_ok_iff`).  A text that spells a number has no underscore, so it does not
  matter what stands in front.
* A group reads a name in one of four ways, and which one it is depends on how the name goes on
  after the full name (`IndexGroup.reads`).

Where a group sees an index, both readers see its number; where it sees its alias, the other one
sees no number.  And what is written, as the name of an index or of an alias, is read as what it
was.
-/

namespace Rollover

/-- The text is a numeral of the number. -/
def Decimal.Spells (text : String) (n : UInt64) : Prop :=
  IsNumeral text.toList ∧ value text.toList = n.toNat

/-- An opening in two parts is taken off part by part. -/
theorem Cut.after?_append_opening (opening opening' text : List Char) :
    after? (opening ++ opening') text = (after? opening text).bind (after? opening') := by
  ext rest
  simp only [Option.bind_eq_some_iff, after?_eq_some_iff, List.append_assoc]
  constructor
  · exact fun h => ⟨_, h, rfl⟩
  · rintro ⟨_, h, rfl⟩
    exact h

namespace Segment

variable {name text : String} {n : UInt64} {fault : NameFault}

/-- What is wrong with a text that should spell a number. -/
inductive Faulty : String → NameFault → Prop
  /-- It is what an alias has in place of a number. -/
  | alias : Faulty aliasSuffix .aliasHasNoNumber
  /-- It is no numeral. -/
  | notANumeral {text : String} (halias : text ≠ aliasSuffix)
      (hnumeral : ¬ Decimal.IsNumeral text.toList) : Faulty text (.notANumeral text)
  /-- It is a numeral of a number that has more than 64 bits. -/
  | outOfRange {text : String} (hnumeral : Decimal.IsNumeral text.toList)
      (hlarge : UInt64.size ≤ Decimal.value text.toList) : Faulty text .outOfRange

/-! ## Reading a number -/

theorem readNumber_toList_eq_ok_iff : readNumber text.toList = .ok n ↔ Decimal.Spells text n :=
  readNumber_eq_ok_iff

theorem readNumber_toList_eq_error_iff :
    readNumber text.toList = .error fault ↔ Faulty text fault := by
  unfold readNumber
  by_cases halias : text = aliasSuffix
  · subst halias
    rw [if_pos rfl, Except.error.injEq]
    constructor
    · rintro rfl
      exact .alias
    · rintro (_ | ⟨hne, -⟩ | ⟨hnumeral, -⟩)
      · rfl
      · exact absurd rfl hne
      · exact absurd hnumeral not_isNumeral_aliasSuffix
  rw [if_neg (mt String.toList_inj.mp halias)]
  cases hread : Decimal.read? text.toList with
  | none =>
    have hnumeral : ¬ Decimal.IsNumeral text.toList := fun h => by
      simp [Decimal.read?, h] at hread
    simp only [String.ofList_toList, Except.error.injEq]
    constructor
    · rintro rfl
      exact .notANumeral halias hnumeral
    · rintro (_ | _ | ⟨h, -⟩)
      · exact absurd rfl halias
      · rfl
      · exact absurd h hnumeral
  | some k =>
    obtain ⟨hnumeral, rfl⟩ := Decimal.read?_eq_some_iff.mp hread
    dsimp only
    split
    · next hsmall =>
      constructor
      · intro h
        cases h
      · rintro (_ | ⟨-, h⟩ | ⟨-, hlarge⟩)
        · exact absurd rfl halias
        · exact absurd hnumeral h
        · omega
    · next hlarge =>
      rw [Except.error.injEq]
      constructor
      · rintro rfl
        exact .outOfRange hnumeral (by omega)
      · rintro (_ | ⟨-, h⟩ | _)
        · exact absurd rfl halias
        · exact absurd hnumeral h
        · rfl

/-- Something is wrong with a text exactly if it spells no number. -/
theorem exists_faulty_iff : (∃ fault, Faulty text fault) ↔ ∀ n, ¬ Decimal.Spells text n := by
  simp only [← readNumber_toList_eq_error_iff, ← readNumber_toList_eq_ok_iff]
  cases readNumber text.toList with
  | ok n => exact iff_of_false nofun fun h => h n rfl
  | error fault => exact iff_of_true ⟨fault, rfl⟩ nofun

/-! ## The number of a name -/

theorem eq_join_iff {front : String} :
    name = front ++ "_" ++ text ↔ name.toList = front.toList ++ '_' :: text.toList := by
  rw [← String.toList_inj]
  simp

theorem underscore_notMem_of_spells (h : Decimal.Spells text n) : '_' ∉ text.toList :=
  underscore_notMem_of_isNumeral h.1

/-- What follows the last underscore is all that matters to the number of a name. -/
theorem number?_of_afterLast? {rest : List Char}
    (h : Cut.afterLast? '_' name.toList = some rest) :
    number? name = (readNumber rest).mapError (.malformedName name) := by
  simp only [number?, h]

/-- **A name has a number exactly if it ends in an underscore and a text that spells it.** -/
theorem number?_eq_ok_iff :
    number? name = .ok n ↔ ∃ front text, name = front ++ "_" ++ text ∧ Decimal.Spells text n := by
  simp only [eq_join_iff]
  constructor
  · intro h
    cases hcut : Cut.afterLast? '_' name.toList with
    | none =>
      unfold number? at h
      rw [hcut] at h
      cases h
    | some rest =>
      obtain ⟨⟨front, hname⟩, -⟩ := Cut.afterLast?_eq_some_iff.mp hcut
      rw [number?_of_afterLast? hcut] at h
      cases hread : readNumber rest with
      | error fault =>
        rw [hread] at h
        exact absurd h nofun
      | ok k =>
        rw [hread] at h
        obtain rfl : k = n := Except.ok.inj h
        exact ⟨String.ofList front, String.ofList rest, by simpa using hname,
          by simpa [Decimal.Spells] using readNumber_eq_ok_iff.mp hread⟩
  · rintro ⟨front, text, hname, hspells⟩
    -- the cut is at the underscore in front of the numeral, which is the last one
    have hcut := Cut.afterLast?_append (underscore_notMem_of_spells hspells) front.toList
    rw [← hname] at hcut
    rw [number?_of_afterLast? hcut, readNumber_toList_eq_ok_iff.mpr hspells]
    rfl

/-- A name that has no number is refused, and the refusal has the name in it. -/
theorem number?_eq_error {cause : Error} (h : number? name = .error cause) :
    ∃ fault, cause = .malformedName name fault := by
  cases hcut : Cut.afterLast? '_' name.toList with
  | none =>
    unfold number? at h
    rw [hcut] at h
    exact ⟨_, (Except.error.inj h).symm⟩
  | some rest =>
    rw [number?_of_afterLast? hcut] at h
    cases hread : readNumber rest with
    | ok k =>
      rw [hread] at h
      exact absurd h nofun
    | error fault =>
      rw [hread] at h
      exact ⟨fault, (Except.error.inj h).symm⟩

/-- The name of an alias has no number. -/
theorem number?_aliasName (base : String) : number? (aliasName base) =
    .error (.malformedName (aliasName base) .aliasHasNoNumber) := by
  have hcut : Cut.afterLast? '_' (aliasName base).toList = some aliasSuffix.toList := by
    rw [eq_join_iff.mp (rfl : aliasName base = base ++ "_" ++ aliasSuffix)]
    exact Cut.afterLast?_append (by decide) _
  rw [number?_of_afterLast? hcut, readNumber_toList_eq_error_iff.mpr .alias]
  rfl

theorem spells_text (n : UInt64) : Decimal.Spells (Decimal.text n.toNat) n := by
  rw [Decimal.Spells, Decimal.toList_text, Decimal.value_toDigits]
  exact ⟨Decimal.isNumeral_toDigits _, rfl⟩

end Segment

namespace IndexGroup

variable {group other : IndexGroup} {name text : String} {result : Except Error Segment}

/-! ## What a name is to a group -/

/-- What a group makes of a name: it depends on what follows the full name and an underscore. -/
inductive Sees (group : IndexGroup) (name : String) : Except Error Segment → Prop
  /-- The name does not begin like that. -/
  | foreign (h : ∀ text, name ≠ group.fullName ++ "_" ++ text) :
    Sees group name (.error (.foreignSegment name group.fullName))
  /-- What follows is the ending of an alias. -/
  | writeAlias (h : name = group.fullName ++ "_" ++ Segment.aliasSuffix) :
    Sees group name (.ok (.writeAlias group.fullName))
  /-- What follows spells a number. -/
  | ordinary (text : String) (n : UInt64) (h : name = group.fullName ++ "_" ++ text)
      (hspells : Decimal.Spells text n) : Sees group name (.ok (.ordinary group.fullName n))
  /-- What follows is neither, and the refusal says what is wrong with it. -/
  | malformed (text : String) (fault : NameFault) (h : name = group.fullName ++ "_" ++ text)
      (halias : text ≠ Segment.aliasSuffix) (hfaulty : Segment.Faulty text fault) :
    Sees group name (.error (.malformedName name fault))

theorem suffix?_join (h : name = group.fullName ++ "_" ++ text) :
    group.suffix? name = some text.toList :=
  suffix?_eq_some_iff.mpr (Segment.eq_join_iff.mp h)

theorem eq_join_of_suffix? {rest : List Char} (h : group.suffix? name = some rest) :
    name = group.fullName ++ "_" ++ String.ofList rest := by
  rw [Segment.eq_join_iff, suffix?_eq_some_iff.mp h, String.toList_ofList]

theorem sees_parse (group : IndexGroup) (name : String) : group.Sees name (group.parse name) := by
  unfold parse
  cases hsuffix : group.suffix? name with
  | none =>
    refine .foreign fun text h => ?_
    rw [suffix?_join h] at hsuffix
    cases hsuffix
  | some rest =>
    obtain ⟨text, rfl⟩ : ∃ text : String, rest = text.toList := ⟨String.ofList rest, by simp⟩
    have hname := eq_join_of_suffix? hsuffix
    rw [String.ofList_toList] at hname
    dsimp only
    split
    · next halias =>
      rw [String.toList_inj.mp halias] at hname
      exact .writeAlias hname
    · next halias =>
      cases hread : Segment.readNumber text.toList with
      | error fault =>
        exact .malformed text fault hname (mt (congrArg String.toList) halias)
          (Segment.readNumber_toList_eq_error_iff.mp hread)
      | ok n => exact .ordinary text n hname (Segment.readNumber_toList_eq_ok_iff.mp hread)

theorem Sees.parse_eq (h : group.Sees name result) : group.parse name = result := by
  unfold parse
  cases h with
  | foreign h =>
    have hnone : group.suffix? name = none := by
      rw [Option.eq_none_iff_forall_ne_some]
      exact fun rest hrest => h _ (eq_join_of_suffix? hrest)
    simp only [hnone]
  | writeAlias h => simp only [suffix?_join h, if_true]
  | ordinary text n h hspells =>
    have halias : text.toList ≠ Segment.aliasSuffix.toList := fun heq =>
      Segment.not_isNumeral_aliasSuffix (heq ▸ hspells.1)
    simp only [suffix?_join h, if_neg halias, Segment.readNumber_toList_eq_ok_iff.mpr hspells]
  | malformed text fault h halias hfaulty =>
    simp only [suffix?_join h, if_neg (mt String.toList_inj.mp halias),
      Segment.readNumber_toList_eq_error_iff.mpr hfaulty]

/-- **A group reads a name as what it sees in it.** -/
theorem parse_eq_iff : group.parse name = result ↔ group.Sees name result :=
  ⟨fun h => h ▸ group.sees_parse name, Sees.parse_eq⟩

/-- The prefix, an underscore, the index name and an underscore can be taken off a name one after the
other. -/
theorem suffix?_eq_bind (group : IndexGroup) (name : String) :
    group.suffix? name = (((Cut.after? group.globalPrefix.toList name.toList).bind
      (Cut.after? ['_'])).bind (Cut.after? group.indexName.toList)).bind (Cut.after? ['_']) := by
  simp only [← Cut.after?_append_opening, suffix?, fullName, String.toList_append]
  rfl

/-- Only the full name of a group matters to its reading. -/
theorem parse_congr (h : group.fullName = other.fullName) (name : String) :
    group.parse name = other.parse name := by
  simp only [parse, suffix?, h]

/-- A name that a group reads as an index is to it the segment with that number. -/
theorem parse_of_numberOf? {n : UInt64} (h : group.numberOf? name = some n) :
    group.parse name = .ok (.ordinary group.fullName n) := by
  obtain ⟨digits, hname, hspells⟩ := numberOf?_eq_some_iff.mp h
  rw [← String.toList_ofList (l := digits)] at hname hspells
  exact (Sees.ordinary _ n (Segment.eq_join_iff.mpr hname) hspells).parse_eq

/-- The name of its alias a group can read. -/
theorem parse_aliasName (group : IndexGroup) :
    group.parse group.aliasName = .ok (.writeAlias group.fullName) :=
  (Sees.writeAlias rfl).parse_eq

/-- A name that a group cannot read is not one of its names, or ends in something else than a
number. -/
theorem eq_of_parse_eq_error {cause : Error} (h : group.parse name = .error cause) :
    cause = .foreignSegment name group.fullName ∨ ∃ fault, cause = .malformedName name fault := by
  rw [parse_eq_iff] at h
  cases h with
  | foreign => exact Or.inl rfl
  | malformed _ fault => exact Or.inr ⟨fault, rfl⟩

/-- What is written is read as what it was. -/
theorem parse_name {segment : Segment} (h : segment.base = group.fullName) :
    group.parse segment.name = .ok segment := by
  cases segment with
  | ordinary base n =>
    obtain rfl : base = group.fullName := h
    exact parse_of_numberOf? (group.numberOf?_nameOf n)
  | writeAlias base =>
    obtain rfl : base = group.fullName := h
    exact group.parse_aliasName

/-- How a group reads a name, in terms of the name, and how the other reader agrees with it. -/
structure Reads (group : IndexGroup) (name : String) : Prop where
  foreign_iff : group.parse name = .error (.foreignSegment name group.fullName) ↔
    ∀ text, name ≠ group.fullName ++ "_" ++ text
  writeAlias_iff : group.parse name = .ok (.writeAlias group.fullName) ↔
    name = group.fullName ++ "_" ++ "deflector"
  ordinary_iff : ∀ n, group.parse name = .ok (.ordinary group.fullName n) ↔
    ∃ text, name = group.fullName ++ "_" ++ text ∧ Decimal.Spells text n
  /-- What follows the full name and an underscore is neither. -/
  malformed_iff : (∃ fault, group.parse name = .error (.malformedName name fault)) ↔
    ∃ text, name = group.fullName ++ "_" ++ text ∧ text ≠ "deflector" ∧
      ∀ n, ¬ Decimal.Spells text n
  /-- What follows is found by going along the parts of the full name. -/
  suffix?_eq : group.suffix? name = (((Cut.after? group.globalPrefix.toList name.toList).bind
    (Cut.after? ['_'])).bind (Cut.after? group.indexName.toList)).bind (Cut.after? ['_'])
  congr : ∀ other : IndexGroup, other.fullName = group.fullName →
    other.parse name = group.parse name
  number? : ∀ base n, group.parse name = .ok (.ordinary base n) → Segment.number? name = .ok n
  /-- The alias has no number. -/
  not_number? : ∀ base, group.parse name = .ok (.writeAlias base) →
    Segment.number? name = .error (.malformedName name .aliasHasNoNumber)

theorem reads (group : IndexGroup) (name : String) : group.Reads name := by
  refine ⟨?_, ?_, fun n => ?_, ?_, group.suffix?_eq_bind name, fun other h => parse_congr h name,
    fun base n h => ?_, fun base h => ?_⟩
  · rw [parse_eq_iff]
    exact ⟨fun h => by cases h; assumption, .foreign⟩
  · rw [parse_eq_iff]
    exact ⟨fun h => by cases h; assumption, .writeAlias⟩
  · rw [parse_eq_iff]
    constructor
    · rintro (_ | _ | ⟨text, _, h, hspells⟩ | _)
      exact ⟨text, h, hspells⟩
    · exact fun ⟨text, h, hspells⟩ => .ordinary text n h hspells
  · simp only [parse_eq_iff, ← Segment.exists_faulty_iff]
    constructor
    · rintro ⟨fault, (_ | _ | _ | ⟨text, _, h, halias, hfaulty⟩)⟩
      exact ⟨text, h, halias, fault, hfaulty⟩
    · rintro ⟨text, h, halias, fault, hfaulty⟩
      exact ⟨fault, .malformed text fault h halias hfaulty⟩
  · rw [parse_eq_iff] at h
    obtain _ | _ | ⟨text, _, hname, hspells⟩ | _ := h
    exact Segment.number?_eq_ok_iff.mpr ⟨_, text, hname, hspells⟩
  · rw [parse_eq_iff] at h
    obtain _ | hname | _ | _ := h
    rw [hname]
    exact Segment.number?_aliasName group.fullName

end IndexGroup

/-- **Reading accepts the grammar of names, and undoes writing.**  A name has a number exactly if it
ends in an underscore and a text that spells the number; otherwise it is malformed.  To a group it
is what `IndexGroup.Reads` says.  A segment of the group is read from its own name, and the number
of an index is read from the name that was made with it. -/
theorem names_read :
    (∀ name n, Segment.number? name = .ok n ↔
      ∃ front text, name = front ++ "_" ++ text ∧ Decimal.Spells text n) ∧
    (∀ name, (∀ n, Segment.number? name ≠ .ok n) →
      ∃ fault, Segment.number? name = .error (.malformedName name fault)) ∧
    (∀ (group : IndexGroup) (name : String), group.Reads name) ∧
    (∀ (group : IndexGroup) (segment : Segment), segment.base = group.fullName →
      group.parse segment.name = .ok segment) ∧
    ∀ base n, Segment.number? (Segment.indexName base n) = .ok n := by
  refine ⟨fun _ _ => Segment.number?_eq_ok_iff, fun name h => ?_, IndexGroup.reads,
    fun _ _ => IndexGroup.parse_name, fun base n => ?_⟩
  · cases hread : Segment.number? name with
    | ok n => exact absurd hread (h n)
    | error cause =>
      obtain ⟨fault, rfl⟩ := Segment.number?_eq_error hread
      exact ⟨fault, rfl⟩
  · exact Segment.number?_eq_ok_iff.mpr ⟨base, _, rfl, Segment.spells_text n⟩

/-- A group whose prefix has a number in it, and whose index name is the ending of an alias.  Leading
zeros are read, and the alias of the group is not taken for the group. -/
theorem names_read_of_misleading_group :
    let group : IndexGroup := ⟨"a_7", "deflector"⟩
    group.parse "a_7_deflector_007" = .ok (.ordinary "a_7_deflector" 7) ∧
      Segment.number? "a_7_deflector_007" = .ok 7 ∧
      group.parse "a_7_deflector_deflector" = .ok (.writeAlias "a_7_deflector") ∧
      group.parse "a_7_deflector" = .error (.foreignSegment "a_7_deflector" "a_7_deflector") ∧
      (∃ fault, group.parse "a_7_deflector_18446744073709551616" =
        .error (.malformedName "a_7_deflector_18446744073709551616" fault)) ∧
      group.parse (Segment.ordinary "a_7_deflector" 7).name =
        .ok (.ordinary "a_7_deflector" 7) := by
  intro group
  obtain ⟨-, -, hreads, hwritten, -⟩ := names_read
  have hseven := ((hreads group "a_7_deflector_007").ordinary_iff 7).mpr
    ⟨"007", by decide, by decide, by decide⟩
  refine ⟨hseven, (hreads group _).number? _ _ hseven,
    (hreads group _).writeAlias_iff.mpr (by decide), (hreads group _).foreign_iff.mpr ?_,
    (hreads group _).malformed_iff.mpr ⟨"18446744073709551616", by decide, by decide, ?_⟩,
    hwritten group _ (by decide)⟩
  · intro text h
    have hlength := congrArg String.length h
    have hfull : (group.fullName ++ "_").length = "a_7_deflector".length + 1 := by decide
    rw [String.length_append, hfull] at hlength
    omega
  · rintro n ⟨-, hvalue⟩
    have hlarge : Decimal.value "18446744073709551616".toList = UInt64.size := by decide
    exact Nat.ne_of_gt n.toNat_lt (hlarge.symm.trans hvalue)

end Rollover
