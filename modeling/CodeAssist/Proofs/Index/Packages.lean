import CodeAssist.Index.Search
import Mathlib.Data.List.Nodup
import Mathlib.Data.List.Perm.Basic
/-!
# The packages of an index

The packages of an index are kept in increasing order, each once. An increasing list is determined
by its members (`eq_of_increasing`), so the packages depend on what a snapshot mentions and not on
the order in which it does (`packages_build_perm`).

Those that a search finds below a parent come in increasing order as well, because a package comes
where the one directly below the parent would (`child?_mono`). So repetitions stand together, and
none is left (`increasing_findPackages`).
-/

namespace CodeAssist

namespace QualifiedName

/-! ## The order of names -/

/-- Names are compared segment by segment, like words in a dictionary. -/
theorem compareSegments_eq (first second : List String) :
    compare.compareSegments first second = List.compareLex Ord.compare first second := by
  induction first generalizing second with
  | nil => cases second <;> rfl
  | cons a as ih =>
    cases second with
    | nil => rfl
    | cons b bs =>
      rw [compare.compareSegments, List.compareLex_cons_cons, ih]
      cases Ord.compare a b <;> rfl

theorem compare_eq (first second : QualifiedName) :
    first.compare second = List.compareLex Ord.compare first.segments second.segments :=
  compareSegments_eq _ _

/-- Names are equal if neither comes before the other. -/
theorem eq_of_compare_eq {first second : QualifiedName} (same : first.compare second = .eq) :
    first = second := by
  rw [compare_eq] at same
  obtain ⟨segments⟩ := first
  obtain ⟨others⟩ := second
  exact congrArg mk (Std.LawfulEqCmp.eq_of_compare same)

theorem compare_lt_trans {first second third : QualifiedName} (upper : first.compare second = .lt)
    (lower : second.compare third = .lt) : first.compare third = .lt := by
  rw [compare_eq] at *
  exact Std.TransCmp.lt_trans upper lower

/-- Comparing the other way round turns the answer round. -/
theorem compare_lt_of_gt {first second : QualifiedName} (after : first.compare second = .gt) :
    second.compare first = .lt := by
  rw [compare_eq] at *
  exact Std.OrientedCmp.lt_of_gt after

theorem compare_self_ne_lt (name : QualifiedName) : name.compare name ≠ .lt := by
  have same : List.compareLex Ord.compare name.segments name.segments = .eq :=
    Std.ReflCmp.compare_self
  rw [compare_eq, same]
  decide

/-! ## Increasing lists -/

/-- Every name of the list comes before all later ones. -/
def Increasing (names : List QualifiedName) : Prop :=
  names.Pairwise fun first second => first.compare second = .lt

/-- Inserting a name adds that name and nothing else. -/
theorem mem_insertInto {name other : QualifiedName} {names : List QualifiedName} :
    other ∈ insertInto name names ↔ other = name ∨ other ∈ names := by
  induction names with
  | nil => simp [insertInto]
  | cons first names ih =>
    rw [insertInto]
    split
    next => simp
    next same =>
      obtain rfl := eq_of_compare_eq same
      simp
    next => simp [ih, or_left_comm]

/-- A name inserted into an ordered list goes to its place. -/
theorem increasing_insertInto {names : List QualifiedName} (increasing : Increasing names)
    (name : QualifiedName) : Increasing (insertInto name names) := by
  induction names with
  | nil => exact List.pairwise_singleton _ _
  | cons first names ih =>
    obtain ⟨before, rest⟩ := List.pairwise_cons.mp increasing
    rw [insertInto]
    split
    next less =>
      refine List.pairwise_cons.mpr ⟨fun other mem => ?_, increasing⟩
      rcases List.mem_cons.mp mem with rfl | mem
      · exact less
      · exact compare_lt_trans less (before other mem)
    next => exact increasing
    next greater =>
      refine List.pairwise_cons.mpr ⟨fun other mem => ?_, ih rest⟩
      rcases mem_insertInto.mp mem with rfl | mem
      · exact compare_lt_of_gt greater
      · exact before other mem

/-- An increasing list has each name once. -/
theorem Increasing.nodup {names : List QualifiedName} (increasing : Increasing names) :
    names.Nodup := by
  refine increasing.imp fun {a b} less => ?_
  rintro rfl
  exact compare_self_ne_lt a less

/-- Increasing lists with the same members are equal. -/
theorem eq_of_increasing {first second : List QualifiedName} (hfirst : Increasing first)
    (hsecond : Increasing second) (same : ∀ name, name ∈ first ↔ name ∈ second) :
    first = second := by
  refine List.Perm.eq_of_pairwise (fun a b _ _ less more => ?_) hfirst hsecond
    ((List.perm_ext_iff_of_nodup hfirst.nodup hsecond.nodup).mpr same)
  exact absurd (compare_lt_trans less more) (compare_self_ne_lt a)

/-- Names inserted one after the other are all listed, in order and once each. -/
theorem foldl_insertInto (names : List QualifiedName) {sorted : List QualifiedName}
    (increasing : Increasing sorted) :
    Increasing (names.foldl (fun sorted name => insertInto name sorted) sorted) ∧
      ∀ other, other ∈ names.foldl (fun sorted name => insertInto name sorted) sorted ↔
        other ∈ names ∨ other ∈ sorted := by
  induction names generalizing sorted with
  | nil => exact ⟨increasing, by simp⟩
  | cons name names ih =>
    obtain ⟨result, members⟩ := ih (increasing_insertInto increasing name)
    refine ⟨result, fun other => ?_⟩
    rw [List.foldl_cons, members other, mem_insertInto, List.mem_cons]
    tauto

theorem increasing_sortUnique (names : List QualifiedName) : Increasing (sortUnique names) :=
  (foldl_insertInto names List.Pairwise.nil).1

@[simp] theorem mem_sortUnique {names : List QualifiedName} {name : QualifiedName} :
    name ∈ sortUnique names ↔ name ∈ names := by
  rw [sortUnique, (foldl_insertInto names List.Pairwise.nil).2]
  simp

end QualifiedName

/-- The packages of an index do not depend on the order of its types. -/
theorem Index.packages_build_perm {first second : Snapshot}
    (types : first.types.Perm second.types)
    (constructors : first.constructors = second.constructors)
    (packages : first.packages = second.packages) :
    (build first).packages = (build second).packages := by
  refine QualifiedName.eq_of_increasing (QualifiedName.increasing_sortUnique _)
    (QualifiedName.increasing_sortUnique _) fun name => ?_
  have mentioned : (mentioned first).Perm (mentioned second) := by
    unfold Index.mentioned
    rw [constructors, packages]
    exact ((types.map _).append_right _).append_right _
  simp only [build, QualifiedName.mem_sortUnique]
  exact (mentioned.flatMap_right _).mem_iff

/-! ## The packages below a parent -/

namespace QualifiedName

/-- What two names have in common at the start does not count. -/
theorem compare_append_left (common first second : List String) :
    compare ⟨common ++ first⟩ ⟨common ++ second⟩ = compare ⟨first⟩ ⟨second⟩ := by
  induction common with
  | nil => rfl
  | cons segment common ih =>
    have same : Ord.compare segment segment = .eq := Std.ReflCmp.compare_self
    rw [compare, List.cons_append, List.cons_append, compare.compareSegments, same]
    exact ih

end QualifiedName

namespace Index

open QualifiedName

variable {query : PackageQuery}

/-- A package leads to the one directly below the parent that it is or lies in, if the last segment
of that matches. -/
theorem child?_eq_some_iff {package child : QualifiedName} :
    query.child? package = some child ↔
      ∃ next rest, package.segments = query.parent.segments ++ next :: rest ∧
        (Matching.matchName query.options query.pattern next).isSome = true ∧
          child = query.parent.child next := by
  unfold PackageQuery.child?
  constructor
  · intro found
    split at found
    next inside =>
      obtain ⟨below, path⟩ := List.isPrefixOf_iff_prefix.mp inside
      rw [← path, length, List.drop_left] at found
      split at found
      · cases found
      next next rest =>
        split at found
        next matched => exact ⟨next, rest, path.symm, matched, (Option.some.inj found).symm⟩
        next => cases found
    next => cases found
  · rintro ⟨next, rest, path, matched, rfl⟩
    have inside : package.within query.parent = true :=
      List.isPrefixOf_iff_prefix.mpr ⟨next :: rest, path.symm⟩
    rw [if_pos inside, path, length, List.drop_left]
    exact if_pos matched

/-- The packages directly below the parent come in the order of those they were found by. -/
theorem child?_mono {first second a b : QualifiedName} (less : first.compare second = .lt)
    (ha : query.child? first = some a) (hb : query.child? second = some b) :
    a = b ∨ a.compare b = .lt := by
  obtain ⟨next, rest, hfirst, -, rfl⟩ := child?_eq_some_iff.mp ha
  obtain ⟨other, others, hsecond, -, rfl⟩ := child?_eq_some_iff.mp hb
  have order : QualifiedName.compare ⟨next :: rest⟩ ⟨other :: others⟩ = .lt := by
    rw [← compare_append_left query.parent.segments, ← hfirst, ← hsecond]
    exact less
  rw [QualifiedName.compare, compare.compareSegments] at order
  cases next_order : Ord.compare next other with
  | eq => exact .inl (congrArg _ (Std.LawfulEqCmp.eq_of_compare next_order))
  | lt =>
    refine .inr ?_
    rw [QualifiedName.child, QualifiedName.child, compare_append_left, QualifiedName.compare,
      compare.compareSegments, next_order]
  | gt => simp [next_order] at order

/-- Only repetitions are dropped: every name stays once. -/
@[simp] theorem mem_dropRepeats {names : List QualifiedName} {name : QualifiedName} :
    name ∈ dropRepeats names ↔ name ∈ names := by
  fun_induction dropRepeats names with
  | case1 => rfl
  | case2 => rfl
  | case3 next names ih => simp [ih]
  | case4 first next names _ ih => simp [ih]

/-- Where repetitions stand together, none is left. -/
theorem increasing_dropRepeats {names : List QualifiedName}
    (ordered : names.Pairwise fun first second => first = second ∨ first.compare second = .lt) :
    Increasing (dropRepeats names) := by
  fun_induction dropRepeats names with
  | case1 => exact List.Pairwise.nil
  | case2 => exact List.pairwise_singleton _ _
  | case3 next names ih => exact ih (List.pairwise_cons.mp ordered).2
  | case4 first next names differ ih =>
    obtain ⟨before, rest⟩ := List.pairwise_cons.mp ordered
    refine List.pairwise_cons.mpr ⟨fun name mem => ?_, ih rest⟩
    have less : first.compare next = .lt := (before next List.mem_cons_self).resolve_left differ
    rcases List.mem_cons.mp (mem_dropRepeats.mp mem) with rfl | mem
    · exact less
    · rcases (List.pairwise_cons.mp rest).1 name mem with rfl | later
      · exact less
      · exact compare_lt_trans less later

/-- The packages that a search finds come in increasing order. -/
theorem increasing_findPackages {snapshot : Snapshot} (query : PackageQuery) :
    Increasing ((build snapshot).findPackages query) := by
  refine increasing_dropRepeats (List.pairwise_filterMap.mpr ?_)
  exact (increasing_sortUnique _).imp fun less a ha b hb => child?_mono less ha hb

/-- A query is answered with children of the package it is in. -/
theorem mem_findPackages {index : Index} {package : QualifiedName}
    (mem : package ∈ index.findPackages query) :
    ∃ next, package = query.parent.child next := by
  obtain ⟨below, -, found⟩ := List.mem_filterMap.mp (mem_dropRepeats.mp mem)
  obtain ⟨next, -, -, -, rfl⟩ := child?_eq_some_iff.mp found
  exact ⟨next, rfl⟩

end Index

end CodeAssist
