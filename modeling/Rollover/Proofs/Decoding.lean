import Rollover.CommandLine.Run
import Rollover.Proofs.Reading

/-!
# Reading a name on the command line

The command that reads a name prints the number in it, and then says what the name is to the default
group.  The number is read from the end of the name; whether the name concerns the default group is
judged by its beginning.  The two do not always go together.  A group whose full name goes on from
that of the default group (`IndexGroup.inner`) has indices whose names begin like names of the
default group, have a number, and are no names of the default group.  At these the command fails,
although the number was found and printed.

There are no other such names: where a name has a number and begins like a name of the group, it is
an index of the group or of an inner one (`IndexGroup.isStemOf_iff`), and never of both.  So it can
be said exactly when the command succeeds (`CommandLine.decode_succeeds_iff`).
-/

namespace Rollover

namespace IndexGroup

variable {group : IndexGroup} {name indexName : String} {n : UInt64}

/-- The group with an index name whose prefix is the full name of another group. -/
def inner (group : IndexGroup) (indexName : String) : IndexGroup :=
  { globalPrefix := group.fullName, indexName := indexName }

theorem fullName_inner_ne (group : IndexGroup) (indexName : String) :
    (group.inner indexName).fullName ≠ group.fullName := by
  intro heq
  have hlength := congrArg String.length heq
  have hinner : (group.inner indexName).fullName = group.fullName ++ "_" ++ indexName := rfl
  rw [hinner, String.length_append, String.length_append] at hlength
  have hone : "_".length = 1 := rfl
  omega

/-- An index of an inner group is none of the group itself. -/
theorem numberOf?_of_inner (h : (group.inner indexName).numberOf? name = some n) :
    group.numberOf? name = none := by
  rw [Option.eq_none_iff_forall_ne_some]
  exact fun m hm => fullName_inner_ne group indexName (numberOf?_unique h hm).1

theorem isStemOf_eq_true_iff :
    group.isStemOf name = true ↔ ∃ rest, name.toList = group.fullName.toList ++ '_' :: rest := by
  simp only [isStemOf, Option.isSome_iff_exists, suffix?_eq_some_iff]

/-- A name that has a number has it after its last underscore. -/
theorem spells_of_number? {front rest : List Char} (h : Segment.number? name = .ok n)
    (hname : name.toList = front ++ '_' :: rest) (hlast : '_' ∉ rest) :
    Decimal.IsNumeral rest ∧ Decimal.value rest = n.toNat := by
  obtain ⟨front', text, hname', hspells⟩ := Segment.number?_eq_ok_iff.mp h
  rw [Segment.eq_join_iff] at hname'
  have hcut := Cut.afterLast?_append hlast front
  have hcut' := Cut.afterLast?_append (Segment.underscore_notMem_of_spells hspells) front'.toList
  rw [← hname] at hcut
  rw [← hname', hcut] at hcut'
  obtain rfl : rest = text.toList := Option.some.inj hcut'
  exact hspells

/-- **A name that has a number begins like a name of a group exactly if it is an index of the group
or of an inner one.** -/
theorem isStemOf_iff (h : Segment.number? name = .ok n) :
    group.isStemOf name = true ↔ group.numberOf? name = some n ∨
      ∃ indexName, (group.inner indexName).numberOf? name = some n := by
  rw [isStemOf_eq_true_iff]
  constructor
  · rintro ⟨rest, hrest⟩
    cases hcut : Cut.afterLast? '_' rest with
    | none =>
      have hspells := spells_of_number? h hrest (Cut.afterLast?_eq_none_iff.mp hcut)
      exact Or.inl (numberOf?_eq_some_iff.mpr ⟨rest, hrest, hspells⟩)
    | some text =>
      -- there is a later underscore, and what stands in between is the inner group's own name
      obtain ⟨⟨between, rfl⟩, hlast⟩ := Cut.afterLast?_eq_some_iff.mp hcut
      have hname : name.toList =
          (group.inner (String.ofList between)).fullName.toList ++ '_' :: text := by
        rw [hrest]
        simp [inner, fullName]
      exact Or.inr ⟨_, numberOf?_eq_some_iff.mpr ⟨text, hname, spells_of_number? h hname hlast⟩⟩
  · rintro (hnumber | ⟨indexName, hnumber⟩)
    · obtain ⟨digits, hname, -⟩ := numberOf?_eq_some_iff.mp hnumber
      exact ⟨digits, hname⟩
    · obtain ⟨digits, hname, -⟩ := numberOf?_eq_some_iff.mp hnumber
      refine ⟨indexName.toList ++ '_' :: digits, ?_⟩
      rw [hname]
      simp [inner, fullName]

end IndexGroup

namespace CommandLine

variable {settings : Settings} {name indexName : String} {n : UInt64}

/-! ## The command -/

theorem decode_of_foreign (h : Segment.number? name = .ok n)
    (hforeign : settings.defaultGroup.isStemOf name = false) :
    decode settings name = .success [Decimal.text n.toNat] := by
  simp only [decode, h, hforeign, Bool.false_eq_true, if_false]

/-- The line about an index of a group. -/
def memberLine (group : IndexGroup) (n : UInt64) : String :=
  "member of " ++ group.fullName ++ " as " ++ group.nameOf n

theorem decode_of_member (h : Segment.number? name = .ok n)
    (hmember : settings.defaultGroup.numberOf? name = some n) :
    decode settings name =
      .success [Decimal.text n.toNat, memberLine settings.defaultGroup n] := by
  have hstem := (IndexGroup.isStemOf_iff h).mpr (Or.inl hmember)
  simp only [decode, h, hstem, if_true, IndexGroup.parse_of_numberOf? hmember]
  rfl

theorem decode_of_inner (h : Segment.number? name = .ok n)
    (hinner : (settings.defaultGroup.inner indexName).numberOf? name = some n) :
    ∃ complaint, decode settings name = .failure complaint [Decimal.text n.toNat] := by
  have hstem := (IndexGroup.isStemOf_iff h).mpr (Or.inr ⟨indexName, hinner⟩)
  have hnone := IndexGroup.numberOf?_of_inner hinner
  simp only [decode, h, hstem, if_true]
  cases hparse : settings.defaultGroup.parse name with
  | error cause => exact ⟨_, rfl⟩
  | ok segment =>
    cases segment with
    | ordinary base m =>
      rw [IndexGroup.numberOf?, hparse] at hnone
      cases hnone
    | writeAlias base =>
      rw [(settings.defaultGroup.reads name).not_number? base hparse] at h
      cases h

/-- What the command says about a name that has a number. -/
structure Decodes (group : IndexGroup) (name : String) (n : UInt64) (result : Result) : Prop where
  /-- The number comes first, and a line follows if the name is an index of the group. -/
  lines_eq : result.lines = Decimal.text n.toNat ::
    if group.numberOf? name = some n then [memberLine group n] else []
  exitCode_eq_zero_iff : result.exitCode = 0 ↔
    ∀ indexName, (group.inner indexName).numberOf? name = none

theorem decodes (h : Segment.number? name = .ok n) (settings : Settings) :
    Decodes settings.defaultGroup name n (decode settings name) := by
  have hnumber : ∀ {group : IndexGroup} {m}, group.numberOf? name = some m → m = n := by
    intro group m hm
    have hread := (group.reads name).number? _ _ (IndexGroup.parse_of_numberOf? hm)
    exact Except.ok.inj (hread.symm.trans h)
  cases hstem : settings.defaultGroup.isStemOf name with
  | false =>
    rw [decode_of_foreign h hstem]
    rw [Bool.eq_false_iff, ne_eq, IndexGroup.isStemOf_iff h, not_or, not_exists] at hstem
    refine ⟨by rw [if_neg hstem.1]; rfl, iff_of_true rfl fun indexName => ?_⟩
    rw [Option.eq_none_iff_forall_ne_some]
    exact fun m hm => hstem.2 indexName (hnumber hm ▸ hm)
  | true =>
    rcases (IndexGroup.isStemOf_iff h).mp hstem with hmember | ⟨indexName, hinner⟩
    · rw [decode_of_member h hmember]
      refine ⟨by rw [if_pos hmember]; rfl, iff_of_true rfl fun indexName => ?_⟩
      rw [Option.eq_none_iff_forall_ne_some]
      intro m hm
      rw [IndexGroup.numberOf?_of_inner hm] at hmember
      cases hmember
    · obtain ⟨complaint, hdecode⟩ := decode_of_inner h hinner
      have hnone := IndexGroup.numberOf?_of_inner hinner
      rw [hdecode]
      refine ⟨by rw [hnone, if_neg nofun]; rfl, iff_of_false nofun fun hall => ?_⟩
      rw [hall indexName] at hinner
      cases hinner

/-! ## Arguments -/

theorem splitValue_append {long : List Char} (h : '=' ∉ long) (value : List Char) :
    splitValue (long ++ '=' :: value) = (String.ofList long, some (String.ofList value)) := by
  have hne : ∀ c ∈ long, (c != '=') = true := fun c hc => bne_iff_ne.mpr fun heq => h (heq ▸ hc)
  unfold splitValue
  rw [List.takeWhile_append_of_pos hne, List.dropWhile_append_of_pos hne]
  simp

/-- An option with its value attached is read wherever the option is understood. -/
theorem readArguments?_attached {place : Place} (flag : Flag) (hflag : flag ∈ place.flags)
    (hvalue : flag.hasValue = true) (found : Found) (value : String) (rest : List String) :
    readArguments? place found (("--" ++ flag.longName ++ "=" ++ value) :: rest) =
      (found.add? flag value).bind fun found => readArguments? place found rest := by
  have hlist : ("--" ++ flag.longName ++ "=" ++ value).toList =
      '-' :: '-' :: (flag.longName.toList ++ '=' :: value.toList) := by simp
  have hlong : '=' ∉ flag.longName.toList := by cases flag <;> decide
  have hfind : place.flags.find? (fun other => other.longName == flag.longName) = some flag := by
    revert hflag
    cases place <;> cases flag <;> decide
  obtain ⟨c, long, hcons⟩ : ∃ c long, flag.longName.toList ++ '=' :: value.toList = c :: long :=
    List.exists_cons_of_ne_nil (by simp)
  have hsplit : splitValue (c :: long) = (flag.longName, some value) := by
    rw [← hcons, splitValue_append hlong]
    simp
  rw [readArguments?, hlist, hcons]
  simp only [hsplit, hfind, hvalue]

/-- Whatever the prefix, the default group and the name, the command can be asked for. -/
theorem ofArguments?_decode (globalPrefix defaultIndex name : String) :
    Invocation.ofArguments? ["--prefix=" ++ globalPrefix, "--default-index=" ++ defaultIndex,
      "decode", "--", name] = some {
        globalPrefix := some globalPrefix
        defaultIndex := some defaultIndex
        command := .decode name } := by
  have hcommand (found : Found) : readArguments? .root found ["decode", "--", name] =
      some { found with command := some (.decode, ["--", name]) } := rfl
  have hroot : readArguments? .root {} ["--prefix=" ++ globalPrefix,
      "--default-index=" ++ defaultIndex, "decode", "--", name] = some {
        options := [(.defaultIndex, defaultIndex), (.globalPrefix, globalPrefix)]
        command := some (.decode, ["--", name]) } :=
    (readArguments?_attached .globalPrefix (by decide) rfl {} globalPrefix _).trans
      ((readArguments?_attached .defaultIndex (by decide) rfl _ defaultIndex _).trans
        (hcommand _))
  have hrest : readArguments? .decode {} ["--", name] = some { positionals := [name] } := rfl
  simp only [Invocation.ofArguments?, hroot, Option.bind_eq_bind, Option.bind_some, hrest]
  rfl

/-- **Exactly when the command succeeds.**  With every prefix and every default index name, every
name can be asked about.  If the name has a number, that is printed first, and a line about the
default group follows if the name is an index of that group.  The command then succeeds exactly if
the name is no index of a group whose full name goes on from that of the default group. -/
theorem decode_succeeds_iff (globalPrefix defaultIndex name : String) :
    (∃ arguments invocation,
      Invocation.ofArguments? arguments = some invocation ∧ invocation.command = .decode name ∧
        invocation.settings.defaultGroup = ⟨globalPrefix, defaultIndex⟩) ∧
    ∀ arguments invocation n (files : String → FileContent),
      Invocation.ofArguments? arguments = some invocation → invocation.command = .decode name →
        invocation.settings.defaultGroup = ⟨globalPrefix, defaultIndex⟩ →
          Segment.number? name = .ok n →
            Decodes ⟨globalPrefix, defaultIndex⟩ name n (run arguments files) := by
  refine ⟨⟨_, _, ofArguments?_decode globalPrefix defaultIndex name, rfl, rfl⟩,
    fun arguments invocation n files hasks hcommand hgroup hnumber => ?_⟩
  rw [← hgroup]
  simp only [run, hasks, Invocation.run, hcommand]
  exact decodes hnumber invocation.settings

/-- A name with leading zeros, and one of another group that looks alike and is no inner one. -/
theorem decode_succeeds_iff_of_padded_name :
    let padded := run ["decode", "graylog_internal_007"] fun _ => .missing
    let other := run ["decode", "graylog_internals_7"] fun _ => .missing
    padded.lines = ["7", "member of graylog_internal as graylog_internal_7"] ∧
      padded.exitCode = 0 ∧ other.lines = ["7"] ∧ other.exitCode = 0 := by
  intro padded other
  have hpadded := (decode_succeeds_iff "graylog" "internal" "graylog_internal_007").2
    ["decode", "graylog_internal_007"] ⟨none, none, .decode "graylog_internal_007"⟩ 7
    (fun _ => .missing) (by decide) rfl rfl
    (Segment.number?_eq_ok_iff.mpr ⟨"graylog_internal", "007", by decide, by decide, by decide⟩)
  have hother := (decode_succeeds_iff "graylog" "internal" "graylog_internals_7").2
    ["decode", "graylog_internals_7"] ⟨none, none, .decode "graylog_internals_7"⟩ 7
    (fun _ => .missing) (by decide) rfl rfl
    (Segment.number?_eq_ok_iff.mpr ⟨"graylog_internals", "7", by decide, by decide, by decide⟩)
  refine ⟨hpadded.lines_eq.trans (by decide +kernel), hpadded.exitCode_eq_zero_iff.mpr ?_,
    hother.lines_eq.trans (by decide +kernel), by decide +kernel⟩
  intro indexName
  rw [Option.eq_none_iff_forall_ne_some]
  intro m hm
  exact absurd (IndexGroup.numberOf?_of_inner hm) (by decide +kernel)

/-- The name has a number and belongs to a group that goes on from the default group.  The number is
printed, and the command fails. -/
theorem not_succeeds_of_inner_name :
    let result := run ["decode", "graylog_internal_audit_1"] fun _ => .missing
    Segment.number? "graylog_internal_audit_1" = .ok 1 ∧ result.lines = ["1"] ∧
      result.exitCode ≠ 0 := by
  intro result
  have hnumber : Segment.number? "graylog_internal_audit_1" = .ok 1 :=
    Segment.number?_eq_ok_iff.mpr ⟨"graylog_internal_audit", "1", by decide, by decide, by decide⟩
  exact ⟨hnumber, by decide +kernel, by decide +kernel⟩

end CommandLine

end Rollover
