import CodeAssist.Proofs.Scope.SimpleNames
/-!
# The order of imports on demand

The imports on demand of a file are asked together. So what a simple name means depends on which
packages and types they lead to, and neither on the order in which they are declared nor on how
often one of them is (`resolution_ignores_import_order`). Only the list of classes in an ambiguous
answer shows the order.

Two steps between the declarations and the answer look at lists: the package that every file imports
is added if it is not declared, and a class that several imports lead to is listed once. Of both
only the members matter: the containers are the same (`exists_mem_onDemand_iff`), hence the hits
(`mem_onDemandHits_iff`), and lists without repetition that have the same members are permutations
of each other.
-/

namespace CodeAssist

/-! ## The same imports in another order -/

/-- Imports are the same but for the order of those on demand, and how often each is declared. -/
structure Imports.Rearranged (imports other : Imports) : Prop where
  types : other.types = imports.types
  members : other.members = imports.members
  typeContainers : ∀ path, path ∈ other.typeContainers ↔ path ∈ imports.typeContainers
  memberOwners : ∀ path, path ∈ other.memberOwners ↔ path ∈ imports.memberOwners

/-- A file whose imports are rearranged, or the same scope again. -/
inductive ScopeKind.Rearranged : ScopeKind → ScopeKind → Prop
  | unit (package : QualifiedName) (types : List ClassId) {imports other : Imports}
      (rearranged : imports.Rearranged other) :
      Rearranged (.unit package imports types) (.unit package other types)
  | same (kind : ScopeKind) : Rearranged kind kind

/-- Scopes that differ in the arrangement of their imports only. -/
structure Scope.Rearranged (scope other : Scope) : Prop where
  parent : other.parent = scope.parent
  kind : scope.kind.Rearranged other.kind
  locals : other.locals = scope.locals
  labels : other.labels = scope.labels

/-- The same scopes, each with its imports in some arrangement. -/
def ScopeGraph.Rearranged (graph other : ScopeGraph) : Prop :=
  List.Forall₂ Scope.Rearranged graph.scopes.toList other.scopes.toList

/-- The same answer, but for the order in which an ambiguous one lists its classes. -/
inductive TypeLookup.Agrees : TypeLookup → TypeLookup → Prop
  | found (id : ClassId) : Agrees (.found id) (.found id)
  | ambiguous {ids others : List ClassId} (perm : ids.Perm others) :
      Agrees (.ambiguous ids) (.ambiguous others)
  | notFound : Agrees .notFound .notFound

theorem TypeLookup.Agrees.refl (answer : TypeLookup) : answer.Agrees answer := by
  cases answer with
  | found id => exact .found id
  | ambiguous ids => exact .ambiguous (.refl ids)
  | notFound => exact .notFound

/-! ## What imports on demand lead to -/

/-- The containers of the imports on demand: what is declared, and the package that every file
imports. -/
theorem Imports.exists_mem_onDemand_iff {imports : Imports} {path : QualifiedName} :
    (∃ source, (path, source) ∈ imports.onDemand) ↔
      path ∈ imports.typeContainers ∨ path ∈ imports.memberOwners ∨ path = implicitPackage := by
  constructor
  · rintro ⟨source, mem⟩
    rw [mem_onDemand] at mem
    cases source with
    | type => exact .inl mem
    | static => exact .inr (.inl mem)
    | implicit => exact .inr (.inr mem.1)
  · rintro (types | members | rfl)
    · exact ⟨.type, mem_onDemand.mpr types⟩
    · exact ⟨.static, mem_onDemand.mpr members⟩
    · exact exists_implicit_mem_onDemand imports

namespace Store

variable {store : Store} {imports other : Imports} {simple : String} {id : ClassId}

/-- The hits on demand are the types of that name in the packages and classes imported on demand. -/
theorem mem_onDemandHits_iff :
    id ∈ store.onDemandHits imports simple ↔
      ∃ path, (∃ source, (path, source) ∈ imports.onDemand) ∧
        store.containedType? path simple = some id := by
  rw [onDemandHits, List.mem_eraseDups, List.mem_filterMap]
  constructor
  · rintro ⟨⟨path, source⟩, mem, hit⟩
    exact ⟨path, ⟨source, mem⟩, hit⟩
  · rintro ⟨path, ⟨source, mem⟩, hit⟩
    exact ⟨(path, source), mem, hit⟩

/-- Rearranged imports lead to the same classes. -/
theorem onDemandHits_perm (rearranged : imports.Rearranged other) :
    (store.onDemandHits imports simple).Perm (store.onDemandHits other simple) := by
  have hits (id : ClassId) :
      id ∈ store.onDemandHits imports simple ↔ id ∈ store.onDemandHits other simple := by
    simp only [mem_onDemandHits_iff, Imports.exists_mem_onDemand_iff, rearranged.typeContainers,
      rearranged.memberOwners]
  exact (List.perm_ext_iff_of_nodup (nodup_eraseDups _) (nodup_eraseDups _)).mpr hits

/-- How many classes a name could mean decides about the answer, and a single one is the same in
every order. -/
theorem ofHits_agrees {hits others : List ClassId} (perm : hits.Perm others) :
    (TypeLookup.ofHits hits).Agrees (.ofHits others) := by
  match hits, perm with
  | [], perm =>
    obtain rfl : [] = others := perm.nil_eq
    exact .notFound
  | [id], perm =>
    obtain rfl : others = [id] := List.perm_singleton.mp perm.symm
    exact .found id
  | first :: second :: hits, perm =>
    have several := perm.length_eq
    match others, perm with
    | _ :: _ :: _, perm => exact .ambiguous perm

/-! ## From the file to the scope -/

/-- In one file the order of the imports only orders the ambiguous answers. -/
theorem resolveInUnit_agrees (package : QualifiedName) (types : List ClassId)
    (rearranged : imports.Rearranged other) :
    (store.resolveInUnit package imports types simple).Agrees
      (store.resolveInUnit package other types simple) := by
  have single : other.type? simple = imports.type? simple := by
    rw [Imports.type?, rearranged.types, Imports.type?]
  unfold resolveInUnit
  rw [single]
  dsimp only
  -- the file, its single-type imports and its package come before the imports on demand
  split
  next id _ => exact .found id
  next => exact ofHits_agrees (onDemandHits_perm rearranged)

/-- A scope answers alike, or passes the name on alike. -/
theorem resolveInScope_agrees {kind changed : ScopeKind} (rearranged : kind.Rearranged changed) :
    Option.Rel TypeLookup.Agrees (store.resolveInScope simple kind)
      (store.resolveInScope simple changed) := by
  cases rearranged with
  | unit package types rearranged => exact .some (resolveInUnit_agrees package types rearranged)
  | same =>
    cases store.resolveInScope simple kind with
    | none => exact .none
    | some answer => exact .some (.refl answer)

end Store

namespace ScopeGraph

variable {graph other : ScopeGraph}

theorem Rearranged.size_eq (rearranged : graph.Rearranged other) : other.size = graph.size := by
  have length := List.Forall₂.length_eq rearranged
  simpa [size] using length.symm

/-- Graphs that differ in the order of imports have scopes that differ in no other way. -/
theorem Rearranged.scope? (rearranged : graph.Rearranged other) (id : ScopeId) :
    Option.Rel Scope.Rearranged (graph.scope? id) (other.scope? id) := by
  unfold ScopeGraph.scope?
  rw [← Array.getElem?_toList, ← Array.getElem?_toList]
  unfold Rearranged at rearranged
  generalize graph.scopes.toList = scopes, other.scopes.toList = changed at rearranged
  induction rearranged generalizing id with
  | nil => exact .none
  | cons first _ ih =>
    cases id with
    | zero => exact .some first
    | succ id => exact ih id

/-- The scopes around a scope are the same, one by one. -/
theorem Rearranged.outward (rearranged : graph.Rearranged other) (steps : Nat) (id : ScopeId) :
    List.Forall₂ (fun entry changed => entry.2.Rearranged changed.2)
      (graph.outward steps id) (other.outward steps id) := by
  induction steps generalizing id with
  | zero => exact .nil
  | succ steps ih =>
    have here := rearranged.scope? id
    unfold ScopeGraph.outward
    generalize graph.scope? id = found, other.scope? id = changed at here ⊢
    cases here with
    | none => exact .nil
    | @some scope changed here =>
      refine .cons here ?_
      rw [here.parent]
      cases scope.parent with
      | none => exact .nil
      | some parent => exact ih parent

theorem Rearranged.ancestors (rearranged : graph.Rearranged other) (id : ScopeId) :
    List.Forall₂ (fun entry changed => entry.2.Rearranged changed.2)
      (graph.ancestors id) (other.ancestors id) := by
  unfold ScopeGraph.ancestors
  rw [rearranged.size_eq]
  exact rearranged.outward graph.size id

end ScopeGraph

namespace Store

variable {store : Store} {graph other : ScopeGraph}

/-- What a simple name means in a scope does not depend on the order of the imports on demand, nor
on how often one of them is declared. Only an ambiguous answer may list its classes in another
order. -/
theorem resolution_ignores_import_order (rearranged : graph.Rearranged other) (scope : ScopeId)
    (simple : String) :
    (store.resolveType graph scope simple).Agrees (store.resolveType other scope simple) := by
  have around := rearranged.ancestors scope
  unfold resolveType
  generalize graph.ancestors scope = scopes, other.ancestors scope = changed at around ⊢
  -- the first scope that knows the name is the same one, so the induction is on the scopes
  induction around with
  | nil => exact .notFound
  | @cons entry entry' _ _ here _ ih =>
    obtain ⟨_, scope⟩ := entry
    obtain ⟨_, scope'⟩ := entry'
    have answer : Option.Rel TypeLookup.Agrees (store.resolveInScope simple scope.kind)
      (store.resolveInScope simple scope'.kind) := resolveInScope_agrees here.kind
    rw [List.findSome?_cons, List.findSome?_cons]
    dsimp only
    generalize store.resolveInScope simple scope.kind = known,
      store.resolveInScope simple scope'.kind = known' at answer ⊢
    cases answer with
    | none => exact ih
    | some agrees => exact agrees

/-- A library with two more classes of one name. -/
def withTwoPanels : Store :=
  ((CoreLibrary.store.add (.topLevel ⟨["left", "Panel"]⟩)).1.add (.topLevel ⟨["right", "Panel"]⟩)).1

/-- A file that imports both packages, and again. -/
def leftFirst : Imports :=
  { typeContainers := [⟨["left"]⟩, ⟨["right"]⟩, ⟨["left"]⟩] }

/-- The same file with its imports sorted the other way, each once. -/
def rightFirst : Imports :=
  { typeContainers := [⟨["right"]⟩, ⟨["left"]⟩] }

/-- The name of both classes is ambiguous in both files, and the lists tell which is which. -/
theorem panels_listed_in_order_of_imports :
    (singleFile ⟨["app"]⟩ leftFirst []).Rearranged (singleFile ⟨["app"]⟩ rightFirst []) ∧
    withTwoPanels.resolveType (singleFile ⟨["app"]⟩ leftFirst []) 0 "Panel" =
      .ambiguous [22, 23] ∧
    withTwoPanels.resolveType (singleFile ⟨["app"]⟩ rightFirst []) 0 "Panel" =
      .ambiguous [23, 22] ∧
    (withTwoPanels.resolveType (singleFile ⟨["app"]⟩ leftFirst []) 0 "Panel").Agrees
      (withTwoPanels.resolveType (singleFile ⟨["app"]⟩ rightFirst []) 0 "Panel") := by
  have imports : leftFirst.Rearranged rightFirst :=
    { types := rfl, members := rfl, memberOwners := fun _ => .rfl
      typeContainers := by
        intro path
        simp only [leftFirst, rightFirst, List.mem_cons, List.not_mem_nil, or_false]
        tauto }
  have rearranged : (singleFile ⟨["app"]⟩ leftFirst []).Rearranged
      (singleFile ⟨["app"]⟩ rightFirst []) :=
    .cons { parent := rfl, kind := .unit _ _ imports, locals := rfl, labels := rfl } .nil
  exact ⟨rearranged, by decide +kernel, by decide +kernel,
    resolution_ignores_import_order rearranged 0 "Panel"⟩

end Store

end CodeAssist
