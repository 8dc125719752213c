import Std.Data.ExtTreeSet

/-!
# Index groups

An installation keeps its documents in *index groups*.  A group is known by two strings: the
prefix that all groups of the installation share, and its own index name.  Every name the group
uses in the engine is built from the two joined by an underscore, the group's *full name*.

Different groups may have the same full name (`a`, `b_c` and `a_b`, `c`); what the engine sees of
a group depends on its full name alone.

Groups are ordered by prefix, then by index name, both by code point.
-/

namespace Rollover

/-- The identity of an index group. -/
structure IndexGroup where
  /-- The prefix shared by the groups of an installation. -/
  globalPrefix : String
  /-- The group's own name. -/
  indexName : String
  deriving DecidableEq, Inhabited, Repr

namespace IndexGroup

/-- The name under which the engine knows the group. -/
def fullName (group : IndexGroup) : String :=
  group.globalPrefix ++ "_" ++ group.indexName

instance : Ord IndexGroup where
  compare := compareLex (compareOn globalPrefix) (compareOn indexName)

theorem compare_def (a b : IndexGroup) :
    compare a b = (compare a.globalPrefix b.globalPrefix).then (compare a.indexName b.indexName) :=
  rfl

instance : Std.TransOrd IndexGroup :=
  inferInstanceAs (Std.TransCmp (compareLex (compareOn globalPrefix) (compareOn indexName)))

instance : Std.LawfulEqOrd IndexGroup where
  eq_of_compare {a b} h := by
    rw [compare_def, Ordering.then_eq_eq, Std.LawfulEqOrd.compare_eq_iff_eq,
      Std.LawfulEqOrd.compare_eq_iff_eq] at h
    cases a; cases b; simp_all

end IndexGroup

/-- A set of groups, listed by prefix and then by index name. -/
abbrev GroupSet := Std.ExtTreeSet IndexGroup

end Rollover
