import CodeAssist.Proofs.Class.Growth
import CodeAssist.Proofs.Class.Lookup
import CodeAssist.Proofs.Index.StoreFacts
/-!
# Names of stored classes and of their facts

The store names a class downward, below the class around it; a fact lists the simple names on the
way outward and puts them behind the package. In a store that grew from the outside inward the two
meet, as long as a fact can list all the classes around its class. Then the name that a search
reports leads back, as a text, to the latest class that is called so.
-/

namespace CodeAssist.Index

variable {store : Store} {id : ClassId} {definition : ClassDef}

/-- The facts stand in the order of the classes. -/
theorem types_ofStore_getElem? (store : Store) (id : ClassId) :
    (ofStore store).types[id]? = (store.class? id).map (typeFact store) := by
  show (store.classes.toList.map (typeFact store))[id]? = _
  rw [List.getElem?_map, Array.getElem?_toList]
  rfl

/-- What a fact takes for the container of its class is the class around it, or its package. -/
theorem typeFact_container (nested : store.WellNested) (stored : store.class? id = some definition)
    (named : (typeFact store definition).name = definition.name) :
    some (typeFact store definition).container =
      match definition.enclosing with
      | none => some definition.package
      | some outer => store.name? outer := by
  have above : (typeFact store definition).container = definition.name.container := by
    rw [← named, TypeFact.name, QualifiedName.container_child]
  rw [above]
  cases enclosing : definition.enclosing with
  | none =>
    have placed := nested.topLevel stored enclosing
    rw [placed, QualifiedName.container_child]
  | some outer =>
    obtain ⟨around, held, -, placed⟩ := nested.member stored enclosing
    have outerName : store.name? outer = some around.name := by
      rw [Store.name?, held, Option.map_some]
    dsimp only
    rw [outerName, placed, QualifiedName.container_child]

/-- In a grown store, the fact of a class with no more classes around it than a fact can list has the
name of the class and the name of the class around it, or its package, for a container; and the text
of the name leads to the latest class that is called so. -/
theorem facts_agree_with_store (grown : store.Grown) (stored : store.class? id = some definition)
    (around : (store.enclosingChain id).tail.length ≤ enclosingLimit) :
    ∃ fact latest, (ofStore store).types[id]? = some fact ∧
      fact.name = definition.name ∧
      (some fact.container =
        match definition.enclosing with
        | none => some definition.package
        | some outer => store.name? outer) ∧
      store.lookup? fact.name.dotted = some latest ∧
      store.IsCalled latest fact.name.dotted ∧
      (∀ other, store.IsCalled other fact.name.dotted → other ≤ latest) ∧
      (store.PlainNames → store.name? latest = some fact.name) := by
  have nested := grown.wellNested
  have depth := nested.length_enclosingChain stored
  rw [List.length_tail] at around
  have named := typeFact_name_of_near nested stored (by omega)
  have own : store.name? id = some definition.name := by
    rw [Store.name?, stored, Option.map_some]
  have called : store.IsCalled id (typeFact store definition).name.dotted :=
    ⟨definition.name, own, by rw [named]⟩
  obtain ⟨latest, found, written, last⟩ := called.exists_latest
  refine ⟨typeFact store definition, latest, ?_, named, typeFact_container nested stored named,
    found, written, last, ?_⟩
  · rw [types_ofStore_getElem?, stored, Option.map_some]
  · intro plain
    obtain ⟨name, held, same⟩ := written
    obtain ⟨someName, plainName⟩ := plain.of_name? held
    obtain ⟨someOwn, plainOwn⟩ := plain.of_name? own
    rw [named] at same ⊢
    rw [held, QualifiedName.dotted_inj plainName plainOwn someName someOwn same]

/-- A class inside another is added twice: the fact of the first one leads to the second. -/
theorem inner_fact_agrees :
    let outer := ClassDef.topLevel ⟨["app", "Outer"]⟩
    let inner := ClassDef.topLevel ⟨["Inner"]⟩
    let once := ((CoreLibrary.store.add outer).1.addMember 22 inner).1
    let twice := (once.addMember 22 inner).1
    twice.Grown ∧ (twice.class? 23).isSome ∧
      (twice.enclosingChain 23).tail.length ≤ enclosingLimit ∧
      ∃ fact latest, (ofStore twice).types[23]? = some fact ∧
        fact.name = ⟨["app", "Outer", "Inner"]⟩ ∧ fact.container = ⟨["app", "Outer"]⟩ ∧
        twice.lookup? fact.name.dotted = some latest ∧ 24 ≤ latest := by
  intro outer inner once twice
  have grown : twice.Grown := by
    have first : (CoreLibrary.store.add outer).1.Grown := .topLevel .core (by decide) rfl rfl
    have second : once.Grown := first.member (by decide +kernel) inner
    exact second.member (by decide +kernel) inner
  have named : twice.name? 23 = some ⟨["app", "Outer", "Inner"]⟩ := by decide +kernel
  have again : twice.name? 24 = some ⟨["app", "Outer", "Inner"]⟩ := by decide +kernel
  have inside : twice.linked? ClassDef.enclosing 23 = some 22 := by decide +kernel
  have outerName : twice.name? 22 = some ⟨["app", "Outer"]⟩ := by decide +kernel
  have around : (twice.enclosingChain 23).tail.length ≤ enclosingLimit := by decide +kernel
  obtain ⟨definition, stored, name⟩ := Option.map_eq_some_iff.mp named
  rw [Store.linked?, stored, Option.bind_some] at inside
  obtain ⟨fact, latest, listed, same, container, found, -, last, -⟩ :=
    facts_agree_with_store grown stored around
  rw [name] at same
  rw [inside] at container
  refine ⟨grown, by rw [stored]; rfl, around, fact, latest, listed, same, ?_, found, ?_⟩
  · exact Option.some.inj (container.trans outerName)
  · exact last 24 ⟨_, again, by rw [same]⟩

end CodeAssist.Index
