import CodeAssist.Proofs.Class.Lookup
import CodeAssist.Proofs.Completion.IndexOrder
import CodeAssist.Proofs.Completion.WalkedTypes
import CodeAssist.Proofs.Index.StoreFacts
import Mathlib.Data.List.Find
/-!
# What a written type name means

The scopes of the language and the completion of types are two separate accounts of which class a
name means. For a simple name they look through the same classes in the same order, but for four
things that the meaning of a name knows and completion does not (`Session.Clear`):

* a class around the cursor is called by its own name, also if no scope further out declares it;
* a private member type is inherited;
* a single-type import takes its name also if the type is not stored;
* the package and the imports on demand reach types that are placed in another way: member types
  that a class inherits, and types that are reached through an outer type.

Where none of them concerns a name, the first class of the walk that has it is its meaning
(`means_of_walked`), and so is a type of the class path that is placed without another to share its
name with (`means_of_placed`).

A type that is written behind the types around it begins with the name of an outer type. Completion
does not ask what that name means. It means the outer type unless something nearer takes the name
(`means_of_outer`).
-/

namespace CodeAssist

/-- The segments of all paths are without dots in themselves. -/
structure Imports.Plain (imports : Imports) : Prop where
  types : ∀ path ∈ imports.types, path.segments ≠ [] ∧ path.Plain
  containers : ∀ container ∈ imports.typeContainers ++ imports.memberOwners, container.Plain

theorem Imports.Plain.onDemand {imports : Imports} (plain : imports.Plain)
    {entry : QualifiedName × OnDemandSource} (mem : entry ∈ imports.onDemand) :
    entry.1.Plain := by
  have declared : entry ∈ imports.typeContainers.map (·, OnDemandSource.type)
      ++ imports.memberOwners.map (·, OnDemandSource.static) → entry.1.Plain := by
    intro mem
    refine plain.containers _ (List.mem_append.mpr ?_)
    rcases List.mem_append.mp mem with mem | mem <;>
      obtain ⟨container, listed, rfl⟩ := List.mem_map.mp mem
    · exact .inl listed
    · exact .inr listed
  unfold Imports.onDemand at mem
  dsimp only at mem
  split at mem
  · exact declared mem
  · rcases List.mem_append.mp mem with mem | mem
    · exact declared mem
    · rw [List.mem_singleton.mp mem]
      decide

/-- The package and the imports of a scope that is that of a file. -/
def ScopeKind.unit? : ScopeKind → Option (QualifiedName × Imports)
  | .unit package imports _ => some (package, imports)
  | _ => none

/-- Whether a type that is placed so contends for its simple name: it would be written with it
alone, or makes it ambiguous. -/
def Completion.Placement.contends (placement : Completion.Placement) : Bool :=
  placement.isBare || placement.namedOnDemand

namespace Store

variable {store : Store} {id : ClassId} {simple : String}

/-- How a stored class is placed in a file. -/
abbrev placementIn (store : Store) (package : QualifiedName) (imports : Imports)
    (definition : ClassDef) : Completion.Placement :=
  .ofFact package imports (Index.typeFact store definition)

/-- What the package or an import on demand gives to a name. -/
def Gives (store : Store) (package : QualifiedName) (imports : Imports) (simple : String)
    (id : ClassId) : Prop :=
  store.lookup? (package.child simple).dotted = some id ∨
    ∃ entry ∈ imports.onDemand, store.containedType? entry.1 simple = some id

/-- What a simple name means to the innermost of some scopes that gives it a meaning. -/
def meaningIn (store : Store) (simple : String) (scopes : List Scope) : Option TypeLookup :=
  scopes.findSome? fun scope => store.resolveInScope simple scope.kind

/-- The member type of a class with a name is the first that the walk finds, if it inherits no
private one. -/
theorem memberType?_eq_find? (shared : ∀ owner ∈ store.supertypes id,
      ∀ member ∈ store.declaredTypes owner, store.isNamed simple member = true →
        store.isPrivateType member = false) :
    store.memberType? id simple = (store.typesIn (.class id)).find? (store.isNamed simple) := by
  have declared : (fun owner => do
      (← store.class? owner).memberTypes.find? (store.isNamed simple)) =
      fun owner => (store.declaredTypes owner).find? (store.isNamed simple) := by
    funext owner
    cases stored : store.class? owner <;> simp [declaredTypes, stored]
  have inherited : ((store.supertypes id).flatMap fun owner =>
      (store.declaredTypes owner).filter fun member => !store.isPrivateType member).find?
        (store.isNamed simple) =
      ((store.supertypes id).flatMap store.declaredTypes).find? (store.isNamed simple) := by
    rw [← List.filter_flatMap, List.find?_filter]
    refine List.find?_congr fun member mem => ?_
    obtain ⟨owner, howner, listed⟩ := List.mem_flatMap.mp mem
    cases named : store.isNamed simple member with
    | false => simp
    | true => simp [shared owner howner member listed named]
  rw [memberType?, declared, typesIn, List.find?_append, inherited, List.findSome?_cons,
    List.find?_flatMap]
  cases (store.declaredTypes id).find? (store.isNamed simple) <;> rfl

/-- The walk finds the import of a name, if it is stored. -/
theorem find?_imported (plain : store.PlainNames) {imports : Imports}
    (paths : imports.Plain) (imported : ∀ path, imports.type? simple = some path →
      (store.lookup? path.dotted).isSome) :
    (imports.types.filterMap fun path => store.lookup? path.dotted).find?
        (store.isNamed simple) =
      (imports.type? simple).bind fun path => store.lookup? path.dotted := by
  have named : ∀ path ∈ imports.types, ∀ id, store.lookup? path.dotted = some id →
      store.isNamed simple id = (path.simple == simple) := by
    intro path mem id found
    obtain ⟨nonempty, whole⟩ := paths.types path mem
    obtain ⟨definition, stored, same⟩ := simpleName_of_lookup? plain whole nonempty found
    simp [isNamed, stored, same]
  rw [List.find?_filterMap]
  cases first : imports.type? simple with
  | none =>
    refine Option.bind_eq_none_iff.mpr fun path found => ?_
    have other := List.find?_eq_none.mp first path (List.mem_of_find?_eq_some found)
    have taken := List.find?_some found
    obtain ⟨id, stored, isNamed⟩ := Option.any_eq_true _ _ |>.mp taken
    exact absurd (named path (List.mem_of_find?_eq_some found) id stored ▸ isNamed) other
  | some path =>
    obtain ⟨same, before, after, split, others⟩ := List.find?_eq_some_iff_append.mp first
    have found : imports.types.find? (fun path =>
        (store.lookup? path.dotted).any (store.isNamed simple)) = some path := by
      refine List.find?_eq_some_iff_append.mpr ⟨?_, before, after, split, fun earlier mem => ?_⟩
      · obtain ⟨id, stored⟩ := Option.isSome_iff_exists.mp (imported path first)
        rw [stored, Option.any_some, named path (by simp [split]) id stored]
        exact same
      · have other := others earlier mem
        cases stored : store.lookup? earlier.dotted with
        | none => rfl
        | some id =>
          rw [Option.any_some, named earlier (by simp [split, mem]) id stored]
          exact other
    rw [found]

/-- What a container gives to a name has the name. -/
theorem isNamed_of_containedType? (plain : store.PlainNames) {container : QualifiedName}
    (whole : (container.child simple).Plain)
    (found : store.containedType? container simple = some id) :
    store.isNamed simple id = true := by
  simp only [containedType?, Option.orElse_eq_orElse, Option.orElse_eq_or, Option.or_eq_some_iff,
    Option.bind_eq_bind, Option.bind_eq_some_iff] at found
  rcases found with found | ⟨-, outer, -, found⟩
  · obtain ⟨definition, stored, same⟩ :=
      simpleName_of_lookup? plain whole (by simp [QualifiedName.child]) found
    exact isNamed_iff.mpr ⟨definition, stored, by simpa using same⟩
  · obtain ⟨owner, -, found⟩ := List.exists_of_findSome?_eq_some found
    simp only [Option.bind_eq_bind, Option.bind_eq_some_iff] at found
    obtain ⟨definition, -, found⟩ := found
    exact List.find?_some found

/-- Among hits that are all the same, a name is not ambiguous. -/
theorem ofHits_eraseDups {hits : List ClassId} (hit : id ∈ hits)
    (same : ∀ other ∈ hits, other = id) : TypeLookup.ofHits hits.eraseDups = .found id := by
  cases hits with
  | nil => exact absurd hit List.not_mem_nil
  | cons first rest =>
    obtain rfl : first = id := same first List.mem_cons_self
    have others : rest.filter (fun other => !other == first) = [] := by
      refine List.filter_eq_nil_iff.mpr fun other mem => ?_
      simp [same other (List.mem_cons_of_mem _ mem)]
    rw [List.eraseDups_cons, others]
    rfl

/-- What the package gives to a name is found, if nothing in the file is nearer. -/
theorem resolveInUnit_of_package {package : QualifiedName} {imports : Imports}
    {types : List ClassId} (undeclared : types.find? (store.isNamed simple) = none)
    (unimported : imports.type? simple = none)
    (found : store.lookup? (package.child simple).dotted = some id) :
    store.resolveInUnit package imports types simple = .found id := by
  simp [resolveInUnit, undeclared, unimported, found]

/-- What the package and the imports on demand give to a name is found, if it is one class and
nothing in the file is nearer. -/
theorem resolveInUnit_of_gives {package : QualifiedName} {imports : Imports}
    {types : List ClassId} (undeclared : types.find? (store.isNamed simple) = none)
    (unimported : imports.type? simple = none) (given : store.Gives package imports simple id)
    (only : ∀ other, store.Gives package imports simple other → other = id) :
    store.resolveInUnit package imports types simple = .found id := by
  rw [resolveInUnit, undeclared, unimported]
  simp only [Option.orElse_eq_orElse, Option.orElse_eq_or, Option.bind_eq_bind,
    Option.bind_none, Option.none_or]
  cases found : store.lookup? (package.child simple).dotted with
  | some other => rw [only other (.inl found)]
  | none =>
    obtain ⟨entry, mem, contained⟩ := given.resolve_left (by simp [found])
    refine ofHits_eraseDups (List.mem_filterMap.mpr ⟨entry, mem, contained⟩) fun other hit => ?_
    obtain ⟨source, listed, hit⟩ := List.mem_filterMap.mp hit
    exact only other (.inr ⟨source, listed, hit⟩)

/-- What is given to a name has the name. -/
theorem Gives.isNamed {package : QualifiedName} {imports : Imports} (plain : store.PlainNames)
    (inPackage : package.Plain) (paths : imports.Plain) (whole : '.' ∉ simple.toList)
    (given : store.Gives package imports simple id) : store.isNamed simple id = true := by
  rcases given with found | ⟨entry, mem, contained⟩
  · refine isNamed_of_containedType? plain (inPackage.child whole) ?_
    simp [containedType?, found]
  · exact isNamed_of_containedType? plain ((paths.onDemand mem).child whole) contained

end Store

namespace Completion.Session

open Store

variable {session : Session} {inner : List Scope} {package : QualifiedName} {imports : Imports}
  {types : List ClassId} {name : QualifiedName} {id : ClassId}

/-- The class path is that of the store, and the names of its classes are in order. -/
structure OverStore (session : Session) : Prop where
  index : session.index = .ofStore session.store
  nested : session.store.WellNested
  limit : Index.WithinLimit session.store
  distinct : session.store.DistinctNames
  plain : session.store.PlainNames

/-- What a simple name means where the cursor stands. -/
def Means (session : Session) (text : String) (name : QualifiedName) : Prop :=
  ∃ id, session.store.resolveType session.graph session.request.scope text = .found id ∧
    session.store.name? id = some name

/-! ## The scopes of a file -/

/-- The cursor stands in a file: the outermost scope around it is that of the file, and no other
is. -/
structure InFile (session : Session) (inner : List Scope) (package : QualifiedName)
    (imports : Imports) (types : List ClassId) : Prop where
  scopes : ∃ file, session.scopes = inner ++ [file] ∧ file.kind = .unit package imports types
  inside : ∀ scope ∈ inner, ∀ package imports types, scope.kind ≠ .unit package imports types
  plain : package.Plain
  paths : imports.Plain

namespace InFile

theorem resolveType (file : session.InFile inner package imports types) (text : String) :
    session.store.resolveType session.graph session.request.scope text =
      (session.store.meaningIn text inner).getD
        (session.store.resolveInUnit package imports types text) := by
  obtain ⟨scope, split, kind⟩ := file.scopes
  have meaning : session.store.resolveType session.graph session.request.scope text =
      (session.store.meaningIn text session.scopes).getD .notFound := by
    rw [Store.resolveType, meaningIn, Session.scopes, List.findSome?_map]
    rfl
  rw [meaning, split, meaningIn, List.findSome?_append, List.findSome?_singleton, kind,
    resolveInScope, ← meaningIn]
  cases session.store.meaningIn text inner <;> rfl

theorem unit (file : session.InFile inner package imports types) :
    session.unit = (package, imports) := by
  obtain ⟨scope, split, kind⟩ := file.scopes
  have outermost : session.unit =
      (session.scopes.findSome? fun scope => scope.kind.unit?).getD (.empty, {}) := by
    rw [Session.unit, ScopeGraph.unit?, Session.scopes, List.findSome?_map]
    rfl
  have others : inner.findSome? (fun scope => scope.kind.unit?) = none := by
    refine List.findSome?_eq_none_iff.mpr fun scope mem => ?_
    have other := file.inside scope mem
    unfold ScopeKind.unit?
    split
    next package imports types kind => exact absurd kind (other package imports types)
    next => rfl
  rw [outermost, split, List.findSome?_append, others, Option.none_or, List.findSome?_singleton,
    kind]
  rfl

theorem firstIn (file : session.InFile inner package imports types) (simple : String) :
    session.store.firstIn simple session.scopes =
      (session.store.firstIn simple inner).or ((types.find? (session.store.isNamed simple)).or
        ((imports.types.filterMap fun path => session.store.lookup? path.dotted).find?
          (session.store.isNamed simple))) := by
  obtain ⟨scope, split, kind⟩ := file.scopes
  rw [split, Store.firstIn, List.flatMap_append, List.flatMap_singleton, kind, typesIn,
    List.find?_append, List.find?_append, Store.firstIn]

end InFile

/-! ## Simple names -/

/-- Nothing but what completion knows of gives a meaning to the simple name of a type. -/
structure Clear (session : Session) (inner : List Scope) (package : QualifiedName)
    (imports : Imports) (name : QualifiedName) : Prop where
  /-- No other class around the cursor has the name. -/
  around : ∀ scope ∈ inner, ∀ id, scope.kind = .class id →
    session.store.isNamed name.simple id = true → session.store.name? id = some name
  /-- No class around the cursor inherits a private type of the name. -/
  shared : ∀ scope ∈ inner, ∀ id, scope.kind = .class id → ∀ owner ∈ session.store.supertypes id,
    ∀ member ∈ session.store.declaredTypes owner,
      session.store.isNamed name.simple member = true →
      session.store.isPrivateType member = false
  /-- What is imported with the name is stored. -/
  imported : ∀ path, imports.type? name.simple = some path →
    (session.store.lookup? path.dotted).isSome
  /-- What the package or an import on demand gives to the name contends for it. -/
  placed : ∀ id definition, session.store.class? id = some definition →
    session.store.Gives package imports name.simple id →
    (session.store.placementIn package imports definition).contends = true

/-- A scope inside a file that gives a name no class gives it no meaning; else the name means that
class, or the one around the cursor. -/
theorem meaning_of_scope {scope : Scope} {simple : String}
    (inside : ∀ package imports types, scope.kind ≠ .unit package imports types)
    (shared : ∀ id, scope.kind = .class id → ∀ owner ∈ session.store.supertypes id,
      ∀ member ∈ session.store.declaredTypes owner,
        session.store.isNamed simple member = true →
        session.store.isPrivateType member = false) :
    ((session.store.typesIn scope.kind).find? (session.store.isNamed simple) = none ∧
      session.store.resolveInScope simple scope.kind = none) ∨
    ∃ id, session.store.resolveInScope simple scope.kind = some (.found id) ∧
      (scope.kind = .class id ∧ session.store.isNamed simple id = true ∨
        (session.store.typesIn scope.kind).find? (session.store.isNamed simple) = some id) := by
  cases kind : scope.kind with
  | «class» id =>
    have members := memberType?_eq_find? (shared id kind)
    by_cases own : session.store.isNamed simple id = true
    · exact .inr ⟨id, by simp [resolveInScope, own], .inl ⟨rfl, own⟩⟩
    · cases found : (session.store.typesIn (.class id)).find? (session.store.isNamed simple) with
      | none => exact .inl ⟨rfl, by simp [resolveInScope, own, members, found]⟩
      | some member =>
        exact .inr ⟨member, by simp [resolveInScope, own, members, found], .inr rfl⟩
  | unit package imports types => exact absurd kind (inside package imports types)
  | _ => exact .inl ⟨rfl, rfl⟩

/-- In the scopes inside a file, a name means the first class of the walk that has it, or a class
around the cursor. -/
theorem meaning_inside {scopes : List Scope} {simple : String}
    (inside : ∀ scope ∈ scopes, ∀ package imports types, scope.kind ≠ .unit package imports types)
    (around : ∀ scope ∈ scopes, ∀ id, scope.kind = .class id →
      session.store.isNamed simple id = true → session.store.name? id = some name)
    (shared : ∀ scope ∈ scopes, ∀ id, scope.kind = .class id →
      ∀ owner ∈ session.store.supertypes id, ∀ member ∈ session.store.declaredTypes owner,
        session.store.isNamed simple member = true → session.store.isPrivateType member = false)
    (first : ∀ id, session.store.firstIn simple scopes = some id →
      session.store.name? id = some name) :
    (session.store.firstIn simple scopes = none ∧ session.store.meaningIn simple scopes = none) ∨
    ∃ id, session.store.meaningIn simple scopes = some (.found id) ∧
      session.store.name? id = some name := by
  induction scopes with
  | nil => exact .inl ⟨rfl, rfl⟩
  | cons scope outer ih =>
    rw [firstIn, List.flatMap_cons, List.find?_append, ← firstIn] at first ⊢
    rw [meaningIn, List.findSome?_cons, ← meaningIn]
    rcases meaning_of_scope (inside scope List.mem_cons_self) (shared scope List.mem_cons_self)
      with ⟨nothing, silent⟩ | ⟨id, meaning, own | found⟩
    · rw [nothing, Option.none_or] at first ⊢
      rw [silent]
      exact ih (fun other mem => inside other (List.mem_cons_of_mem _ mem))
        (fun other mem => around other (List.mem_cons_of_mem _ mem))
        (fun other mem => shared other (List.mem_cons_of_mem _ mem)) first
    · exact .inr ⟨id, by rw [meaning], around scope List.mem_cons_self id own.1 own.2⟩
    · exact .inr ⟨id, by rw [meaning], first id (by rw [found, Option.some_or])⟩

/-- The first class of the walk that has a name is its meaning. -/
theorem means_of_walked (file : session.InFile inner package imports types)
    (plain : session.store.PlainNames) (clear : session.Clear inner package imports name)
    (walked : session.store.firstIn name.simple session.scopes = some id)
    (named : session.store.name? id = some name) : session.Means name.simple name := by
  rw [file.firstIn] at walked
  have nearer : ∀ other, session.store.firstIn name.simple inner = some other →
      session.store.name? other = some name := by
    intro other found
    rw [found, Option.some_or] at walked
    exact Option.some.inj walked ▸ named
  rcases meaning_inside file.inside clear.around clear.shared nearer with
    ⟨nothing, silent⟩ | ⟨other, meaning, same⟩
  · rw [nothing, Option.none_or, find?_imported plain file.paths clear.imported] at walked
    refine ⟨id, ?_, named⟩
    rw [file.resolveType, silent, Option.getD_none, resolveInUnit]
    simp only [Option.orElse_eq_orElse, Option.orElse_eq_or, Option.bind_eq_bind]
    rw [← Option.or_assoc, walked, Option.some_or]
  · exact ⟨other, by rw [file.resolveType, meaning, Option.getD_some], same⟩

/-- A type of an import on demand stands in the container of the import. -/
theorem exists_entry_of_onDemand {fact : TypeFact}
    (placement : Placement.ofFact package imports fact = .onDemand) :
    ∃ entry ∈ imports.onDemand, entry.1 = fact.container := by
  have reached : Placement.ofOnDemand imports fact = .onDemand := by
    unfold Placement.ofFact at placement
    split at placement
    next => split at placement <;> exact absurd placement (by simp)
    next =>
      split at placement
      next => exact absurd placement (by simp)
      next =>
        split at placement
        next => exact absurd placement (by simp)
        next => exact placement
  unfold Placement.ofOnDemand at reached
  dsimp only at reached
  split at reached
  next some =>
    obtain ⟨entry, mem, -⟩ := List.any_eq_true.mp some
    exact ⟨entry, (List.mem_filter.mp mem).1, beq_iff_eq.mp (List.mem_filter.mp mem).2⟩
  next => split at reached <;> exact absurd reached (by simp)

/-- Where the walk gives a name to no class, nothing in the file is nearer than the package. -/
theorem InFile.free (file : session.InFile inner package imports types)
    (plain : session.store.PlainNames) (clear : session.Clear inner package imports name)
    (free : session.store.firstIn name.simple session.scopes = none) :
    session.store.firstIn name.simple inner = none ∧
      types.find? (session.store.isNamed name.simple) = none ∧
      imports.type? name.simple = none := by
  rw [file.firstIn, Option.or_eq_none_iff, Option.or_eq_none_iff,
    find?_imported plain file.paths clear.imported] at free
  refine ⟨free.1, free.2.1, ?_⟩
  cases imported : imports.type? name.simple with
  | none => rfl
  | some path =>
    have stored := clear.imported path imported
    rw [imported, Option.bind_some] at free
    rw [free.2.2] at stored
    cases stored

/-- A type that is placed without a qualifier is given to its simple name by the package, or placed
on demand and given by an import. -/
theorem gives_of_isBare (base : session.OverStore) {definition : ClassDef}
    (stored : session.store.class? id = some definition)
    (unimported : imports.type? definition.simpleName = none)
    (bare : (session.store.placementIn package imports definition).isBare = true) :
    session.store.lookup? (package.child definition.simpleName).dotted = some id ∨
      session.store.placementIn package imports definition = .onDemand ∧
        session.store.Gives package imports definition.simpleName id := by
  have text : session.store.lookup? definition.name.dotted = some id :=
    lookup?_dotted base.distinct base.plain (by simp [Store.name?, stored])
  have named := Index.typeFact_name base.nested base.limit stored
  rcases Placement.isBare_cases bare with imported | inPackage | onDemand
  · have taken := Placement.type?_of_ofFact_imported imported
    exact absurd (unimported.symm.trans taken) (by simp)
  · have inside := Placement.name_of_ofFact_samePackage inPackage
    left
    rw [← text, ← named, inside]
    rfl
  · obtain ⟨entry, mem, container⟩ := exists_entry_of_onDemand onDemand
    have path : entry.1.child definition.simpleName = definition.name := by
      rw [container, ← named]
      rfl
    exact .inr ⟨onDemand, .inr ⟨entry, mem, by simp [containedType?, path, text]⟩⟩

/-- A type of the class path that is placed without a qualifier is the meaning of its simple name,
if the walk gives the name to no class and, where the type is placed on demand, no other contends
for the name. -/
theorem means_of_placed (base : session.OverStore)
    (file : session.InFile inner package imports types)
    (clear : session.Clear inner package imports name)
    (free : session.store.firstIn name.simple session.scopes = none) {definition : ClassDef}
    (stored : session.store.class? id = some definition) (named : definition.name = name)
    (bare : (session.store.placementIn package imports definition).isBare = true)
    (alone : session.store.placementIn package imports definition = .onDemand →
      ∀ other another, session.store.class? other = some another →
        another.simpleName = name.simple →
        (session.store.placementIn package imports another).contends = true →
        another.name = name) :
    session.Means name.simple name := by
  have own : session.store.name? id = some name := by simp [Store.name?, stored, named]
  obtain ⟨nothing, undeclared, unimported⟩ := file.free base.plain clear free
  rcases meaning_inside file.inside clear.around clear.shared (by simp [nothing]) with
    ⟨-, silent⟩ | ⟨other, meaning, same⟩
  · refine ⟨id, ?_, own⟩
    rw [file.resolveType, silent, Option.getD_none]
    have simple : definition.simpleName = name.simple := by rw [ClassDef.simpleName, named]
    rcases gives_of_isBare base stored (simple ▸ unimported) bare with found | ⟨onDemand, given⟩
    · exact resolveInUnit_of_package undeclared unimported (simple ▸ found)
    · refine resolveInUnit_of_gives undeclared unimported (simple ▸ given) fun other reached => ?_
      obtain ⟨another, storedOther, simpleOther⟩ := isNamed_iff.mp
        (reached.isNamed base.plain file.plain file.paths (base.plain.of_name? own).2.simple)
      have same := alone onDemand other another storedOther simpleOther
        (clear.placed other another storedOther reached)
      exact base.distinct.eq (by simp [Store.name?, storedOther, same]) own
  · exact ⟨other, by rw [file.resolveType, meaning, Option.getD_some], same⟩

/-! ## Names behind outer types -/

/-- Nothing nearer than the imports and the package gives another meaning to the simple name of a
type. -/
structure Unshadowed (session : Session) (inner : List Scope) (imports : Imports)
    (types : List ClassId) (name : QualifiedName) : Prop where
  inside : ∀ meaning, session.store.meaningIn name.simple inner = some meaning →
    ∃ id, meaning = .found id ∧ session.store.name? id = some name
  declared : ∀ id ∈ types, session.store.isNamed name.simple id = true →
    session.store.name? id = some name
  imported : ∀ path, imports.type? name.simple = some path → path = name

/-- A type that is imported or stands in the package is the meaning of its simple name, if nothing
nearer takes the name. -/
theorem means_of_outer (base : session.OverStore)
    (file : session.InFile inner package imports types)
    (unshadowed : session.Unshadowed inner imports types name)
    (named : session.store.name? id = some name)
    (reached : imports.type? name.simple = some name ∨ name = package.child name.simple) :
    session.Means name.simple name := by
  have text : session.store.lookup? name.dotted = some id :=
    lookup?_dotted base.distinct base.plain named
  cases nearer : session.store.meaningIn name.simple inner with
  | some meaning =>
    obtain ⟨other, rfl, same⟩ := unshadowed.inside meaning nearer
    exact ⟨other, by rw [file.resolveType, nearer, Option.getD_some], same⟩
  | none =>
    rw [Means, file.resolveType, nearer, Option.getD_none, resolveInUnit]
    simp only [Option.orElse_eq_orElse, Option.orElse_eq_or, Option.bind_eq_bind]
    cases declared : types.find? (session.store.isNamed name.simple) with
    | some other =>
      exact ⟨other, rfl, unshadowed.declared other (List.mem_of_find?_eq_some declared)
        (List.find?_some declared)⟩
    | none =>
      refine ⟨id, ?_, named⟩
      cases imported : imports.type? name.simple with
      | some path => simp [unshadowed.imported path imported, text]
      | none =>
        have inside := reached.resolve_left (by simp [imported])
        simp [← inside, text]

end Completion.Session

end CodeAssist
