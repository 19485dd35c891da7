import CodeAssist.Proofs.Completion.NameResolution
import CodeAssist.Proofs.Scope.Imports
/-!
# Simple names that nothing near takes

In a file a simple type name goes through the classes around the scope, the types of the file, the
single-type imports, the package and the imports on demand. `Unclaimed` says that the first three
know nothing of the name. Then it means what the package gives to it, or else what the imports on
demand give to it together (`resolveType_of_unclaimed`).

The package is asked by a text, and in the unnamed package that text is the simple name itself, for
which `java.lang` stands in if no class has it. So there a class of `java.lang` comes before all
imports on demand, and does not collide with what they import. In every other package two different
classes that are imported on demand under one name make it ambiguous
(`colliding_imports_are_ambiguous`).

A name of one segment that is looked up as a dotted name is a text as well. It is looked up without
the scope first, so what it means agrees with what the simple name means only where nothing in the
scope is nearer than the class that the text leads to (`one_segment_path_agrees_unless_shadowed`).
-/

namespace CodeAssist

namespace Store

variable {store : Store} {graph : ScopeGraph} {scope : ScopeId} {package : QualifiedName}
  {imports : Imports} {simple : String} {id : ClassId}

/-! ## Member types -/

/-- A class has or inherits a member type with a simple name. -/
def HasMemberType (store : Store) (id : ClassId) (simple : String) : Prop :=
  ∃ owner, Relation.ReflTransGen store.NamesSupertype id owner ∧
    ∃ member ∈ store.declaredTypes owner, store.isNamed simple member = true

/-- The search for a member type misses none that the class has or inherits. -/
theorem memberType?_eq_none_iff :
    store.memberType? id simple = none ↔ ¬ store.HasMemberType id simple := by
  have inherited : ∀ owner, owner ∈ id :: store.supertypes id ↔
      Relation.ReflTransGen store.NamesSupertype id owner := by
    intro owner
    rw [List.mem_cons, mem_supertypes]
    by_cases same : owner = id
    · simp [same, Relation.ReflTransGen.refl]
    · simp [same]
  have declared : ∀ owner, (do (← store.class? owner).memberTypes.find? (store.isNamed simple)) =
      (store.declaredTypes owner).find? (store.isNamed simple) := by
    intro owner
    cases stored : store.class? owner <;> simp [declaredTypes, stored]
  simp only [memberType?, List.findSome?_eq_none_iff, inherited, declared, List.find?_eq_none,
    HasMemberType, not_exists, not_and, Bool.not_eq_true]

/-! ## What is left to the package and the imports on demand -/

/-- Nothing nearer than the package takes a simple name: no class around the scope is called by it
or has or inherits a member type of that name, the file declares no type of that name, and no
single-type import of it leads to a class. -/
structure Unclaimed (store : Store) (graph : ScopeGraph) (scope : ScopeId) (imports : Imports)
    (simple : String) : Prop where
  around : ∀ entry ∈ graph.ancestors scope, ∀ id, entry.2.kind = .class id →
    store.isNamed simple id = false ∧ ¬ store.HasMemberType id simple
  declared : ∀ id ∈ graph.declaredTypes scope, store.isNamed simple id = false
  imported : ∀ path ∈ imports.types, path.simple = simple → store.lookup? path.dotted = none

/-- In a file that claims the name nowhere, the package decides first. -/
theorem resolveInUnit_of_unclaimed {types : List ClassId}
    (declared : ∀ id ∈ types, store.isNamed simple id = false)
    (imported : ∀ path ∈ imports.types, path.simple = simple → store.lookup? path.dotted = none) :
    store.resolveInUnit package imports types simple =
      match store.lookup? (package.child simple).dotted with
      | some id => .found id
      | none => .ofHits (store.onDemandHits imports simple) := by
  have undeclared : types.find? (store.isNamed simple) = none :=
    List.find?_eq_none.mpr fun id mem => by simp [declared id mem]
  have unimported : (do store.lookup? (← imports.type? simple).dotted) = none := by
    cases found : imports.type? simple with
    | none => rfl
    | some path =>
      exact imported path (List.mem_of_find?_eq_some found) (by simpa using List.find?_some found)
  rw [resolveInUnit, undeclared, unimported]
  rfl

/-- A name that nothing near takes means what the package gives to it, or else what the imports on
demand give to it. -/
theorem resolveType_of_unclaimed (file : graph.unit? scope = some (package, imports))
    (unclaimed : store.Unclaimed graph scope imports simple) :
    store.resolveType graph scope simple =
      match store.lookup? (package.child simple).dotted with
      | some id => .found id
      | none => .ofHits (store.onDemandHits imports simple) := by
  obtain ⟨around, declared, imported⟩ := unclaimed
  unfold ScopeGraph.unit? at file
  unfold ScopeGraph.declaredTypes at declared
  rw [resolveType]
  generalize graph.ancestors scope = entries at *
  -- the scopes inside the file pass the name on
  induction entries with
  | nil => cases file
  | cons entry outer ih =>
    have rest := fun other mem => around other (List.mem_cons_of_mem entry mem)
    rw [List.findSome?_cons] at file declared ⊢
    cases kind : entry.2.kind with
    | unit ownPackage ownImports types =>
      simp only [kind, resolveInScope, Option.some.injEq, Prod.mk.injEq, Option.getD_some]
        at file declared ⊢
      obtain ⟨rfl, rfl⟩ := file
      exact resolveInUnit_of_unclaimed declared imported
    | «class» id =>
      obtain ⟨other, without⟩ := around entry List.mem_cons_self id kind
      simp only [kind, resolveInScope, other, memberType?_eq_none_iff.mpr without]
        at file declared ⊢
      exact ih file rest declared
    | _ =>
      simp only [kind, resolveInScope] at file declared ⊢
      exact ih file rest declared

/-! ## Collisions -/

/-- A class stands directly in a container whose types are imported on demand, under a simple
name. -/
def ImportedAs (store : Store) (imports : Imports) (simple : String) (id : ClassId) : Prop :=
  ∃ entry ∈ imports.onDemand, store.IsCalled id (entry.1.child simple).dotted

/-- An imported class is a hit among the imports on demand. -/
theorem ImportedAs.hit (distinct : store.DistinctTexts)
    (imported : store.ImportedAs imports simple id) : id ∈ store.onDemandHits imports simple := by
  obtain ⟨entry, mem, called⟩ := imported
  refine List.mem_eraseDups.mpr (List.mem_filterMap.mpr ⟨entry, mem, ?_⟩)
  simp [containedType?, called.lookup? distinct]

/-- Without its repetitions a list has none. -/
theorem nodup_eraseDups (ids : List ClassId) : ids.eraseDups.Nodup := by
  induction size : ids.length using Nat.strongRecOn generalizing ids with
  | ind size ih =>
    subst size
    cases ids with
    | nil => exact List.nodup_nil
    | cons id rest =>
      rw [List.eraseDups_cons]
      refine List.nodup_cons.mpr ⟨by simp [List.mem_eraseDups], ih _ ?_ _ rfl⟩
      exact Nat.lt_succ_of_le (List.length_filter_le _ _)

/-- Several hits are ambiguous. -/
theorem ofHits_of_differ {hits : List ClassId} {first second : ClassId} (differ : first ≠ second)
    (hfirst : first ∈ hits) (hsecond : second ∈ hits) :
    TypeLookup.ofHits hits = .ambiguous hits := by
  match hits with
  | [] => cases hfirst
  | [_] =>
    rw [List.mem_singleton] at hfirst hsecond
    exact absurd (hfirst.trans hsecond.symm) differ
  | _ :: _ :: _ => rfl

/-- In the unnamed package full names are simple. -/
theorem dotted_child_empty (simple : String) : (QualifiedName.empty.child simple).dotted = simple :=
  String.intercalate_singleton

/-- What the package gives to a name that no class in it is called by: a class of `java.lang`, if
the package is unnamed. -/
theorem lookup?_package_of_absent (whole : '.' ∉ simple.toList)
    (absent : ∀ id, ¬ store.IsCalled id (package.child simple).dotted) :
    store.lookup? (package.child simple).dotted =
      if package = .empty then store.named? (Imports.implicitPackage.child simple).dotted
      else none := by
  split
  next unnamed =>
    subst unnamed
    rw [dotted_child_empty] at absent ⊢
    rw [lookup?_of_absent absent whole, ← QualifiedName.dotted_inJavaLang]
    rfl
  next named =>
    have inside : package.segments ≠ [] := fun empty => named (congrArg QualifiedName.mk empty)
    rw [lookup?_of_dot (QualifiedName.dot_mem_dotted_child inside simple)]
    exact named?_eq_none_iff.mpr absent

/-- A name that nothing near takes and the package does not give is ambiguous if two different
classes are imported on demand under it. In the unnamed package it is so only if `java.lang` has no
class of that name; if it has one, the name means that class. -/
theorem colliding_imports_are_ambiguous (distinct : store.DistinctTexts)
    (whole : '.' ∉ simple.toList) (file : graph.unit? scope = some (package, imports))
    (unclaimed : store.Unclaimed graph scope imports simple)
    (absent : ∀ id, ¬ store.IsCalled id (package.child simple).dotted)
    {first second : ClassId} (differ : first ≠ second)
    (hfirst : store.ImportedAs imports simple first)
    (hsecond : store.ImportedAs imports simple second) :
    ((package = .empty →
        ∀ id, ¬ store.IsCalled id (Imports.implicitPackage.child simple).dotted) →
      ∃ ids, store.resolveType graph scope simple = .ambiguous ids ∧ ids.Nodup ∧
        ∀ id, store.ImportedAs imports simple id → id ∈ ids) ∧
    (package = .empty → ∀ id, store.IsCalled id (Imports.implicitPackage.child simple).dotted →
      store.resolveType graph scope simple = .found id) := by
  rw [resolveType_of_unclaimed file unclaimed, lookup?_package_of_absent whole absent]
  constructor
  · intro implicit
    have nothing : (if package = .empty then
        store.named? (Imports.implicitPackage.child simple).dotted else none) = none := by
      split
      next unnamed => exact named?_eq_none_iff.mpr (implicit unnamed)
      next => rfl
    rw [nothing]
    exact ⟨_, ofHits_of_differ differ (hfirst.hit distinct) (hsecond.hit distinct),
      nodup_eraseDups _, fun id imported => imported.hit distinct⟩
  · intro unnamed id called
    rw [if_pos unnamed, called.named? distinct]

/-- A library with another class called `String`. -/
def withTextString : Store := (CoreLibrary.store.add (.topLevel ⟨["text", "String"]⟩)).1

/-- A file of a package with some imports, and with the types that are declared in it. -/
def singleFile (package : QualifiedName) (imports : Imports) (types : List ClassId) : ScopeGraph :=
  ⟨#[{ parent := none, kind := .unit package imports types }]⟩

/-- An import of all types of the package of that class. -/
def importingText : Imports := { typeContainers := [⟨["text"]⟩] }

theorem texts_withTextString : withTextString.texts =
    ["java.lang.Object", "java.io.Serializable", "java.lang.Cloneable", "java.lang.CharSequence",
      "java.lang.Comparable", "java.lang.String", "java.lang.Class", "java.lang.Number",
      "java.lang.Boolean", "java.lang.Byte", "java.lang.Short", "java.lang.Character",
      "java.lang.Integer", "java.lang.Long", "java.lang.Float", "java.lang.Double",
      "java.lang.Enum", "java.lang.Record", "java.lang.Throwable", "java.lang.Exception",
      "java.lang.RuntimeException", "java.lang.Math", "text.String"] := by
  decide +kernel

theorem distinctTexts_withTextString : withTextString.DistinctTexts := by
  rw [DistinctTexts, texts_withTextString]
  decide

/-- A file alone, without single-type imports, claims nothing. -/
theorem unclaimed_singleFile {store : Store} {package : QualifiedName} {imports : Imports}
    (alone : imports.types = []) (simple : String) :
    store.Unclaimed (singleFile package imports []) 0 imports simple where
  around := by
    intro entry mem id kind
    obtain rfl : entry = (0, { parent := none, kind := .unit package imports [] }) :=
      List.mem_singleton.mp mem
    cases kind
  declared := fun _ mem => absurd mem List.not_mem_nil
  imported := fun _ mem => absurd (alone ▸ mem) List.not_mem_nil

theorem isCalled_string :
    withTextString.IsCalled .string (Imports.implicitPackage.child "String").dotted := by
  rw [isCalled_iff_texts, texts_withTextString]
  rfl

/-- Both classes called `String` are imported. -/
theorem importedAs_importingText :
    withTextString.ImportedAs importingText "String" 22 ∧
      withTextString.ImportedAs importingText "String" .string := by
  refine ⟨⟨(⟨["text"]⟩, .type), by decide, ?_⟩,
    ⟨(Imports.implicitPackage, .implicit), by decide, isCalled_string⟩⟩
  rw [isCalled_iff_texts, texts_withTextString]
  rfl

/-- In a named package they collide. -/
theorem two_strings_collide :
    withTextString.DistinctTexts ∧
    (∀ id, ¬ withTextString.IsCalled id "app.String") ∧
    ∃ ids, withTextString.resolveType (singleFile ⟨["app"]⟩ importingText []) 0 "String" =
        .ambiguous ids ∧
      ids.Nodup ∧ 22 ∈ ids ∧ ClassId.string ∈ ids := by
  have file : (singleFile ⟨["app"]⟩ importingText []).unit? 0 = some (⟨["app"]⟩, importingText) :=
    rfl
  have absent : ∀ id, ¬ withTextString.IsCalled id
      ((⟨["app"]⟩ : QualifiedName).child "String").dotted :=
    not_isCalled_of_texts (by rw [texts_withTextString]; decide)
  obtain ⟨first, second⟩ := importedAs_importingText
  obtain ⟨ids, ambiguous, nodup, all⟩ := (colliding_imports_are_ambiguous
    distinctTexts_withTextString (by decide) file (unclaimed_singleFile rfl "String") absent
    (by decide) first second).1 fun unnamed => absurd unnamed (by decide)
  exact ⟨distinctTexts_withTextString, absent, ids, ambiguous, nodup, all _ first, all _ second⟩

/-- In the unnamed package they do not, though no class of the package is called so. -/
theorem unnamed_package_takes_string :
    withTextString.DistinctTexts ∧
    (singleFile .empty importingText []).unit? 0 = some (.empty, importingText) ∧
    withTextString.Unclaimed (singleFile .empty importingText []) 0 importingText "String" ∧
    (∀ id, ¬ withTextString.IsCalled id (QualifiedName.empty.child "String").dotted) ∧
    withTextString.ImportedAs importingText "String" 22 ∧
    withTextString.ImportedAs importingText "String" .string ∧
    withTextString.resolveType (singleFile .empty importingText []) 0 "String" =
      .found .string := by
  have absent : ∀ id, ¬ withTextString.IsCalled id (QualifiedName.empty.child "String").dotted :=
    not_isCalled_of_texts (by rw [texts_withTextString]; decide)
  have unclaimed : withTextString.Unclaimed (singleFile .empty importingText []) 0 importingText
      "String" := unclaimed_singleFile rfl "String"
  refine ⟨distinctTexts_withTextString, rfl, unclaimed, absent, importedAs_importingText.1,
    importedAs_importingText.2, ?_⟩
  rw [resolveType_of_unclaimed rfl unclaimed, lookup?_package_of_absent (by decide) absent,
    if_pos rfl, isCalled_string.named? distinctTexts_withTextString]

/-! ## Names of one segment -/

/-- A name of one segment is looked up as a text before the scope is asked. -/
theorem resolveQualified_singleton (store : Store) (graph : ScopeGraph) (scope : ScopeId)
    (simple : String) : store.resolveQualified graph scope ⟨[simple]⟩ =
      (store.lookup? simple).or (store.resolveType graph scope simple).found? := by
  have text : (⟨[simple]⟩ : QualifiedName).dotted = simple := dotted_child_empty simple
  unfold resolveQualified
  rw [text]
  cases store.lookup? simple with
  | some id => rfl
  | none => cases meaning : (store.resolveType graph scope simple).found? <;> simp [meaning]

theorem found?_eq_some_iff {meaning : TypeLookup} :
    meaning.found? = some id ↔ meaning = .found id := by
  cases meaning <;> simp [TypeLookup.found?]

/-- In a file where nothing near takes a name, it means the class that its text leads to, if the
package is unnamed or gives the name to no other class, and neither do the imports on demand. -/
theorem resolveType_of_lookup? (file : graph.unit? scope = some (package, imports))
    (whole : '.' ∉ simple.toList) (unclaimed : store.Unclaimed graph scope imports simple)
    (given : package = .empty ∨ (∀ id, ¬ store.IsCalled id simple) ∧
      ∀ id, store.Gives package imports simple id → store.lookup? simple = some id)
    (found : store.lookup? simple = some id) :
    store.resolveType graph scope simple = .found id := by
  rw [resolveType_of_unclaimed file unclaimed]
  rcases given with rfl | ⟨absent, given⟩
  · rw [dotted_child_empty, found]
  · have only : ∀ other, store.Gives package imports simple other → other = id := fun other gives =>
      Option.some.inj ((given other gives).symm.trans found)
    cases inPackage : store.lookup? (package.child simple).dotted with
    | some other => rw [only other (.inl inPackage)]
    | none =>
      -- the class stands in `java.lang`, which every file imports
      have text : store.lookup? (Imports.implicitPackage.child simple).dotted = some id := by
        rw [lookup?_of_absent absent whole, ← QualifiedName.dotted_inJavaLang] at found
        exact (lookup?_of_dot (QualifiedName.dot_mem_dotted_child (by decide) simple)).trans found
      obtain ⟨source, mem⟩ := imports.exists_implicit_mem_onDemand
      refine ofHits_eraseDups (List.mem_filterMap.mpr ⟨_, mem, by simp [containedType?, text]⟩) ?_
      intro other hit
      obtain ⟨entry, listed, hit⟩ := List.mem_filterMap.mp hit
      exact only other (.inr ⟨entry, listed, hit⟩)

/-- A name of one segment means what the simple name means, exactly if the class that its text leads
to without the scope, if there is one, is what the simple name means. So it is for every name that
no class of the unnamed package and of `java.lang` has; and in a file where nothing near takes the
name, if the package is unnamed, or if no class is called by the name alone and the package and the
imports on demand give the name to no other class. -/
theorem one_segment_path_agrees_unless_shadowed (store : Store) (graph : ScopeGraph)
    (scope : ScopeId) (simple : String) :
    (store.resolveQualified graph scope ⟨[simple]⟩ =
        (store.resolveType graph scope simple).found? ↔
      ∀ id, store.lookup? simple = some id → store.resolveType graph scope simple = .found id) ∧
    ((∀ id, ¬ store.IsCalled id simple) →
      (∀ id, ¬ store.IsCalled id (Imports.implicitPackage.child simple).dotted) →
      store.resolveQualified graph scope ⟨[simple]⟩ =
        (store.resolveType graph scope simple).found?) ∧
    ∀ package imports, graph.unit? scope = some (package, imports) → '.' ∉ simple.toList →
      store.Unclaimed graph scope imports simple →
      (package = .empty ∨ (∀ id, ¬ store.IsCalled id simple) ∧
        ∀ id, store.Gives package imports simple id → store.lookup? simple = some id) →
      store.resolveQualified graph scope ⟨[simple]⟩ =
        (store.resolveType graph scope simple).found? := by
  have agrees : store.resolveQualified graph scope ⟨[simple]⟩ =
        (store.resolveType graph scope simple).found? ↔
      ∀ id, store.lookup? simple = some id → store.resolveType graph scope simple = .found id := by
    rw [resolveQualified_singleton]
    cases store.lookup? simple with
    | none => simp
    | some id => simp [← found?_eq_some_iff, eq_comm]
  refine ⟨agrees, fun absent outside => agrees.mpr fun id found => ?_,
    fun package imports file whole unclaimed given => agrees.mpr fun id found =>
      resolveType_of_lookup? file whole unclaimed given found⟩
  rcases isCalled_of_lookup? found with called | called
  · exact absurd called (absent id)
  · exact absurd (QualifiedName.dotted_inJavaLang simple ▸ called) (outside id)

/-- No class is called by the simple name alone. -/
theorem absent_string : ∀ id, ¬ withTextString.IsCalled id "String" :=
  not_isCalled_of_texts (by rw [texts_withTextString]; decide)

/-- The lookup falls back to the package of the root class. -/
theorem lookup?_string : withTextString.lookup? "String" = some .string := by
  rw [lookup?_of_absent absent_string (by decide)]
  exact isCalled_string.named? distinctTexts_withTextString

/-- In a file without imports `String` means the class of `java.lang` both ways. -/
theorem string_agrees_without_imports :
    withTextString.Unclaimed (singleFile ⟨["app"]⟩ {} []) 0 {} "String" ∧
    withTextString.resolveQualified (singleFile ⟨["app"]⟩ {} []) 0 ⟨["String"]⟩ =
      (withTextString.resolveType (singleFile ⟨["app"]⟩ {} []) 0 "String").found? := by
  have file : (singleFile ⟨["app"]⟩ {} []).unit? 0 = some (⟨["app"]⟩, {}) := rfl
  have unclaimed : withTextString.Unclaimed (singleFile ⟨["app"]⟩ {} []) 0 {} "String" :=
    unclaimed_singleFile rfl "String"
  have given : ∀ id, withTextString.Gives ⟨["app"]⟩ {} "String" id →
      withTextString.lookup? "String" = some id := by
    have nothing : withTextString.lookup? ((⟨["app"]⟩ : QualifiedName).child "String").dotted =
        none := by
      rw [lookup?_of_dot (by decide)]
      exact named?_eq_none_iff.mpr (not_isCalled_of_texts (by rw [texts_withTextString]; decide))
    rintro id (found | ⟨entry, mem, contained⟩)
    · rw [nothing] at found
      cases found
    · obtain rfl : entry = (Imports.implicitPackage, .implicit) := List.mem_singleton.mp mem
      rw [containedType?, isCalled_string.lookup? distinctTexts_withTextString] at contained
      exact lookup?_string.trans contained
  exact ⟨unclaimed, (one_segment_path_agrees_unless_shadowed withTextString _ 0 "String").2.2
    _ _ file (by decide) unclaimed (.inr ⟨absent_string, given⟩)⟩

/-- In a file that declares a class called `String`, the name means that class, but looked up as a
dotted name it means the class of `java.lang`. -/
theorem declared_string_is_passed_over :
    withTextString.resolveType (singleFile ⟨["text"]⟩ {} [22]) 0 "String" = .found 22 ∧
    withTextString.resolveQualified (singleFile ⟨["text"]⟩ {} [22]) 0 ⟨["String"]⟩ =
      some .string := by
  refine ⟨by decide +kernel, ?_⟩
  rw [resolveQualified_singleton, lookup?_string]
  rfl

end Store

end CodeAssist
