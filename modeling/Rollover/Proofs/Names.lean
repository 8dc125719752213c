import Rollover.Segment

/-!
# The names of a group

A group owns the names `g_0`, `g_1`, ... of its indices and the name `g_deflector` of its alias,
where `g` is its full name.  Reading is a partial inverse of writing: `IndexGroup.numberOf?` gives
the number back (`numberOf?_nameOf`), and the alias is read as no index by any group
(`numberOf?_aliasName`).

Reading is not injective, because a numeral may have leading zeros, but it is unambiguous: a name is
cut at its last underscore, so whatever two groups read it as an index, they have the same full name
and read the same number (`numberOf?_unique`).  This holds although a full name may itself contain
underscores, digits, or the alias suffix.
-/

namespace Rollover

namespace Segment

theorem underscore_notMem_of_isNumeral {cs : List Char} (h : Decimal.IsNumeral cs) : '_' ∉ cs :=
  fun hmem => absurd (h.2 _ hmem) (by decide)

theorem not_isNumeral_aliasSuffix : ¬ Decimal.IsNumeral aliasSuffix.toList := by
  intro h
  have hdigit := h.2 'd' (by simp [aliasSuffix])
  cases hdigit

/-- What is read as a number is a numeral of that number, and nothing else is. -/
theorem readNumber_eq_ok_iff {suffix : List Char} {n : UInt64} :
    readNumber suffix = .ok n ↔ Decimal.IsNumeral suffix ∧ Decimal.value suffix = n.toNat := by
  unfold readNumber
  split
  · next h =>
    subst h
    simp [not_isNumeral_aliasSuffix]
  · cases hread : Decimal.read? suffix with
    | none =>
      have hnum : ¬ Decimal.IsNumeral suffix := fun h => by
        simp [Decimal.read?, h] at hread
      simp [hnum]
    | some k =>
      obtain ⟨hnum, rfl⟩ := Decimal.read?_eq_some_iff.mp hread
      by_cases hk : Decimal.value suffix < UInt64.size
      · simp only [hk, if_true, hnum, true_and, Except.ok.injEq]
        refine ⟨fun h => ?_, fun h => ?_⟩
        · rw [← h, UInt64.toNat_ofNat_of_lt' hk]
        · rw [h, UInt64.ofNat_toNat]
      · have hne : Decimal.value suffix ≠ n.toNat := fun h => hk (h ▸ n.toNat_lt)
        simp [hk, hne]

end Segment

namespace IndexGroup

variable {group other : IndexGroup} {name : String} {m n : UInt64}

theorem toList_nameOf (group : IndexGroup) (n : UInt64) :
    (group.nameOf n).toList = group.fullName.toList ++ '_' :: Nat.toDigits 10 n.toNat := by
  simp [nameOf, Segment.indexName]

theorem toList_aliasName (group : IndexGroup) :
    group.aliasName.toList = group.fullName.toList ++ '_' :: Segment.aliasSuffix.toList := by
  simp [aliasName, Segment.aliasName]

theorem suffix?_eq_some_iff {suffix : List Char} :
    group.suffix? name = some suffix ↔ name.toList = group.fullName.toList ++ '_' :: suffix := by
  simp [suffix?, Cut.after?_eq_some_iff]

/-- A group reads a name as its index `n` exactly when the name is the full name, an underscore and
a numeral of `n`. -/
theorem numberOf?_eq_some_iff :
    group.numberOf? name = some n ↔
      ∃ digits, name.toList = group.fullName.toList ++ '_' :: digits ∧
        Decimal.IsNumeral digits ∧ Decimal.value digits = n.toNat := by
  have hparse : group.numberOf? name = some n ↔
      ∃ digits, group.suffix? name = some digits ∧ Segment.readNumber digits = .ok n := by
    unfold numberOf? parse
    cases hsuffix : group.suffix? name with
    | none => simp
    | some suffix =>
      by_cases halias : suffix = Segment.aliasSuffix.toList
      · simp [halias, Segment.number, Segment.readNumber]
      · cases hread : Segment.readNumber suffix with
        | error => simp [halias, hread]
        | ok k => simp [halias, hread, Segment.number]
  rw [hparse]
  simp only [suffix?_eq_some_iff, Segment.readNumber_eq_ok_iff]

/-- Reading the name of an index gives its number back. -/
@[simp] theorem numberOf?_nameOf (group : IndexGroup) (n : UInt64) :
    group.numberOf? (group.nameOf n) = some n :=
  numberOf?_eq_some_iff.mpr
    ⟨_, toList_nameOf group n, Decimal.isNumeral_toDigits _, Decimal.value_toDigits _⟩

/-- **A name is an index of one full name at most, and under one number.** -/
theorem numberOf?_unique (h : group.numberOf? name = some m) (h' : other.numberOf? name = some n) :
    group.fullName = other.fullName ∧ m = n := by
  obtain ⟨digits, hname, hnum, hvalue⟩ := numberOf?_eq_some_iff.mp h
  obtain ⟨digits', hname', hnum', hvalue'⟩ := numberOf?_eq_some_iff.mp h'
  -- both cuts are at the last underscore, since a numeral has none
  have hcut := Cut.afterLast?_append (Segment.underscore_notMem_of_isNumeral hnum)
    group.fullName.toList
  have hcut' := Cut.afterLast?_append (Segment.underscore_notMem_of_isNumeral hnum')
    other.fullName.toList
  rw [← hname] at hcut
  rw [← hname', hcut] at hcut'
  obtain rfl : digits = digits' := Option.some.inj hcut'
  refine ⟨String.toList_inj.mp (List.append_cancel_right (hname.symm.trans hname')), ?_⟩
  exact UInt64.toNat_inj.mp (hvalue.symm.trans hvalue')

/-- No group reads the name of an alias as an index. -/
@[simp] theorem numberOf?_aliasName (group other : IndexGroup) :
    group.numberOf? other.aliasName = none := by
  rw [Option.eq_none_iff_forall_ne_some]
  intro n h
  obtain ⟨digits, hname, hnum, -⟩ := numberOf?_eq_some_iff.mp h
  have hcut := Cut.afterLast?_append (Segment.underscore_notMem_of_isNumeral hnum)
    group.fullName.toList
  have hcut' : Cut.afterLast? '_' other.aliasName.toList = some Segment.aliasSuffix.toList := by
    rw [toList_aliasName]
    exact Cut.afterLast?_append (by decide) _
  rw [← hname, hcut'] at hcut
  exact Segment.not_isNumeral_aliasSuffix (Option.some.inj hcut ▸ hnum)

theorem nameOf_ne_aliasName (group other : IndexGroup) (n : UInt64) :
    group.nameOf n ≠ other.aliasName := fun h => by
  simpa [h] using numberOf?_nameOf group n

theorem nameOf_inj : group.nameOf m = group.nameOf n ↔ m = n := by
  refine ⟨fun h => ?_, fun h => h ▸ rfl⟩
  have hm := numberOf?_nameOf group m
  rw [h] at hm
  exact (numberOf?_unique hm (numberOf?_nameOf group n)).2

/-! ## Only the full name matters -/

theorem nameOf_congr (h : group.fullName = other.fullName) (n : UInt64) :
    group.nameOf n = other.nameOf n := by
  rw [nameOf, h, nameOf]

theorem aliasName_congr (h : group.fullName = other.fullName) :
    group.aliasName = other.aliasName := by
  rw [aliasName, h, aliasName]

theorem numberOf?_congr (h : group.fullName = other.fullName) (name : String) :
    group.numberOf? name = other.numberOf? name := by
  ext n
  rw [numberOf?_eq_some_iff, numberOf?_eq_some_iff, h]

theorem aliasName_inj : group.aliasName = other.aliasName ↔ group.fullName = other.fullName := by
  refine ⟨fun h => ?_, aliasName_congr⟩
  have hlist := congrArg String.toList h
  rw [toList_aliasName, toList_aliasName] at hlist
  exact String.toList_inj.mp (List.append_cancel_right hlist)

end IndexGroup
end Rollover
