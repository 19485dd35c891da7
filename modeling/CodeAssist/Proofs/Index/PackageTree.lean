import CodeAssist.Proofs.Index.Packages
/-!
# The tree of packages

The packages of an index form a tree: with a package they have those that it lies in, and they have
no others than the ones this asks for (`mem_packages_build`). So an index that is built from the
contents of an index is that index (`building_closes_packages`).

A search comes to a package from every package below it. It stays with the one directly below the
parent, and because the tree is closed that one is in the index itself (`mem_findPackages_iff`).
How deep the packages lie between two children of the parent does not matter: what is found is read
off the tree (`children_found_once`).
-/

namespace CodeAssist

namespace QualifiedName

/-- The packages around a package, and the package itself, are those that its segments begin
with. -/
theorem mem_lineage {name other : QualifiedName} :
    other ∈ name.lineage ↔ other.segments ≠ [] ∧ other.segments <+: name.segments := by
  obtain ⟨others⟩ := other
  simp only [lineage, List.mem_map, List.mem_range, mk.injEq]
  constructor
  · rintro ⟨count, short, rfl⟩
    refine ⟨fun empty => ?_, List.take_prefix _ _⟩
    have segments : name.segments ≠ [] := List.ne_nil_of_length_pos (Nat.zero_lt_of_lt short)
    rcases List.take_eq_nil_iff.mp empty with none | none
    · exact Nat.succ_ne_zero count none
    · exact segments none
  · rintro ⟨some, path⟩
    have positive : 0 < others.length := List.length_pos_iff.mpr some
    have bound : others.length ≤ name.segments.length := path.length_le
    refine ⟨others.length - 1, by rw [length]; omega, ?_⟩
    rw [Nat.sub_add_cancel positive]
    exact (List.prefix_iff_eq_take.mp path).symm

theorem within_iff {name top : QualifiedName} :
    name.within top = true ↔ top.segments <+: name.segments :=
  List.isPrefixOf_iff_prefix

end QualifiedName

namespace Index

open QualifiedName

variable {snapshot : Snapshot} {query : PackageQuery} {name package : QualifiedName}

/-! ## What the packages of an index are -/

theorem exists_mentioned_iff {holds : QualifiedName → Prop} :
    (∃ package ∈ mentioned snapshot, holds package) ↔
      (∃ fact ∈ snapshot.types, holds fact.package) ∨
        (∃ fact ∈ snapshot.constructors, holds fact.declaring.package) ∨
          ∃ package ∈ snapshot.packages, holds package := by
  simp only [mentioned, List.mem_append, List.mem_map]
  constructor
  · rintro ⟨_, (⟨fact, mem, rfl⟩ | ⟨fact, mem, rfl⟩) | mem, held⟩
    · exact .inl ⟨fact, mem, held⟩
    · exact .inr (.inl ⟨fact, mem, held⟩)
    · exact .inr (.inr ⟨_, mem, held⟩)
  · rintro (⟨fact, mem, held⟩ | ⟨fact, mem, held⟩ | ⟨package, mem, held⟩)
    · exact ⟨_, .inl (.inl ⟨fact, mem, rfl⟩), held⟩
    · exact ⟨_, .inl (.inr ⟨fact, mem, rfl⟩), held⟩
    · exact ⟨package, .inr mem, held⟩

/-- The packages of an index are those that a mentioned package is or lies in. -/
theorem mem_packages_build :
    name ∈ (build snapshot).packages ↔
      name.segments ≠ [] ∧ ∃ package ∈ mentioned snapshot, name.segments <+: package.segments := by
  simp only [build, mem_sortUnique, List.mem_flatMap, mem_lineage]
  constructor
  · rintro ⟨package, mem, some, path⟩
    exact ⟨some, package, mem, path⟩
  · rintro ⟨some, package, mem, path⟩
    exact ⟨package, mem, some, path⟩

theorem increasing_packages_build (snapshot : Snapshot) : Increasing (build snapshot).packages :=
  increasing_sortUnique _

/-- With a package the index has those that it lies in. -/
theorem mem_packages_of_outer (mem : package ∈ (build snapshot).packages)
    (some : name.segments ≠ []) (path : name.segments <+: package.segments) :
    name ∈ (build snapshot).packages := by
  obtain ⟨-, mentioned, hmentioned, below⟩ := mem_packages_build.mp mem
  exact mem_packages_build.mpr ⟨some, mentioned, hmentioned, path.trans below⟩

/-- What is built from the contents of an index mentions the packages of the index, and no package
outside its tree. -/
theorem mem_packages_rebuild :
    name ∈ (build (build snapshot).snapshot).packages ↔ name ∈ (build snapshot).packages := by
  rw [mem_packages_build, exists_mentioned_iff]
  constructor
  · rintro ⟨some, type | constructor | ⟨package, listed, path⟩⟩
    · exact mem_packages_build.mpr ⟨some, exists_mentioned_iff.mpr (.inl type)⟩
    · exact mem_packages_build.mpr ⟨some, exists_mentioned_iff.mpr (.inr (.inl constructor))⟩
    · exact mem_packages_of_outer listed some path
  · intro mem
    exact ⟨(mem_packages_build.mp mem).1, .inr (.inr ⟨name, mem, List.prefix_rfl⟩)⟩

/-- Building an index leaves types and constructors as they are. Its packages come in strictly
increasing order, and are the packages that a mentioned one is or lies in, the unnamed one left
out. An index built from the contents of an index has the same contents. -/
theorem building_closes_packages (snapshot : Snapshot) :
    (build snapshot).snapshot.types = snapshot.types ∧
    (build snapshot).snapshot.constructors = snapshot.constructors ∧
    Increasing (build snapshot).snapshot.packages ∧
    (∀ name, name ∈ (build snapshot).snapshot.packages ↔ name.segments ≠ [] ∧
      ((∃ fact ∈ snapshot.types, name.segments <+: fact.package.segments) ∨
        (∃ fact ∈ snapshot.constructors, name.segments <+: fact.declaring.package.segments) ∨
          ∃ package ∈ snapshot.packages, name.segments <+: package.segments)) ∧
    (build (build snapshot).snapshot).snapshot = (build snapshot).snapshot := by
  refine ⟨rfl, rfl, increasing_packages_build snapshot, fun name => ?_, ?_⟩
  · refine mem_packages_build.trans (and_congr_right fun _ => ?_)
    exact exists_mentioned_iff
  · have packages : (build (build snapshot).snapshot).packages = (build snapshot).packages :=
      eq_of_increasing (increasing_packages_build _) (increasing_packages_build _)
        fun _ => mem_packages_rebuild
    exact congrArg (fun packages => { (build snapshot).snapshot with packages }) packages

/-! ## What a search finds -/

/-- A search finds a package if it comes to it from some package, and it comes to it from the
package itself, which the tree holds with every package below. -/
theorem mem_findPackages_iff :
    package ∈ (build snapshot).findPackages query ↔
      package ∈ (build snapshot).packages ∧ ∃ next, package = query.parent.child next ∧
        (Matching.matchName query.options query.pattern next).isSome = true := by
  simp only [findPackages, mem_dropRepeats, List.mem_filterMap, child?_eq_some_iff]
  constructor
  · rintro ⟨below, mem, next, rest, path, matched, rfl⟩
    have around : (query.parent.child next).segments <+: below.segments :=
      ⟨rest, by rw [path, QualifiedName.child, List.append_assoc, List.singleton_append]⟩
    exact ⟨mem_packages_of_outer mem (by simp [QualifiedName.child]) around, next, rfl, matched⟩
  · rintro ⟨mem, next, rfl, matched⟩
    exact ⟨_, mem, next, [], rfl, matched, rfl⟩

/-- The packages directly below another, by their length and their last segment. -/
theorem exists_child_iff {parent : QualifiedName} {accepts : String → Prop} :
    (∃ next, package = parent.child next ∧ accepts next) ↔
      package.length = parent.length + 1 ∧ package.within parent = true ∧
        ∃ last, package.last? = some last ∧ accepts last := by
  rw [within_iff]
  constructor
  · rintro ⟨next, rfl, accepted⟩
    refine ⟨by simp [length, QualifiedName.child], List.prefix_append _ _, next, ?_, accepted⟩
    exact List.getLast?_concat
  · rintro ⟨depth, ⟨below, path⟩, last, ends, accepted⟩
    have single : below.length = 1 := by
      rw [length, length, ← path, List.length_append] at depth
      omega
    obtain ⟨next, rfl⟩ := List.length_eq_one_iff.mp single
    have same : next = last := by
      rw [last?, ← path, List.getLast?_concat] at ends
      exact Option.some.inj ends
    exact ⟨last, by rw [← same, QualifiedName.child, path], accepted⟩

/-- A search reports, in strictly increasing order and so each once, the packages of the index that
have one segment more than the parent, begin with it and end in a segment that matches. -/
theorem children_found_once (snapshot : Snapshot) (query : PackageQuery) :
    Increasing ((build snapshot).findPackages query) ∧
    ((build snapshot).findPackages query).Nodup ∧
    ∀ package, package ∈ (build snapshot).findPackages query ↔
      package ∈ (build snapshot).packages ∧ package.length = query.parent.length + 1 ∧
        package.within query.parent = true ∧ ∃ last, package.last? = some last ∧
          (Matching.matchName query.options query.pattern last).isSome = true :=
  ⟨increasing_findPackages query, (increasing_findPackages query).nodup, fun _ =>
    mem_findPackages_iff.trans (and_congr_right fun _ => exists_child_iff)⟩

end Index

end CodeAssist
