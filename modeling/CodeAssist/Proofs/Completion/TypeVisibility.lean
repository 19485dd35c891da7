import CodeAssist.Proofs.Completion.WalkedTypes
import CodeAssist.Proofs.Index.StoreFacts
/-!
# The two tests for the visibility of types

The walk asks of a stored class that it and every class around it may be named. The search of the
class path has only facts: it looks at the modifiers of the type itself and at its package. Of a
class in a well-nested store, what the second test lets through may be named as far as its own
modifiers go (`isLinkVisible_of_isFactVisible`), and nothing is asked of the classes around it. So
the two agree on types outside any other, and on a nested type exactly where the classes around it
may be named; a public type inside a hidden one is proposed although it cannot be named.
-/

namespace CodeAssist

namespace Store

variable {store : Store} {id : ClassId} {view : Viewpoint}

theorem enclosingChain_eq_cons (store : Store) (id : ClassId) :
    store.enclosingChain id = id :: (store.enclosingChain id).tail := by
  rw [enclosingChain, followFrom]
  simp

/-- A class may be named if it may be as a member, and the classes around it may. -/
theorem isClassVisible_iff :
    store.isClassVisible id view = true ↔ store.isLinkVisible view id = true ∧
      ∀ outer ∈ (store.enclosingChain id).tail, store.isLinkVisible view outer = true := by
  rw [isClassVisible, enclosingChain_eq_cons, List.all_cons, Bool.and_eq_true, List.all_eq_true,
    List.tail_cons]

/-- A member that is not private may be named in the package of its class. -/
theorem isMemberVisible_of_package {definition : ClassDef} {modifiers : Modifiers}
    (stored : store.class? id = some definition) (shared : modifiers.isPrivate = false)
    (package : definition.package = view.package) :
    store.isMemberVisible id modifiers view = true := by
  simp [isMemberVisible, stored, shared, package]

end Store

namespace Completion.Session

open Store

variable {session : Session} {candidate : Candidate}

/-- What the test for facts lets through may be named as far as its own modifiers go. -/
theorem isLinkVisible_of_isFactVisible {store : Store} {view : Viewpoint} {id : ClassId}
    {definition : ClassDef} (nested : store.WellNested)
    (stored : store.class? id = some definition)
    (visible : isFactVisible view.package (Index.typeFact store definition) = true) :
    store.isLinkVisible view id = true := by
  have own : definition.modifiers.isPublic = true ∨
      definition.modifiers.isPrivate = false ∧ definition.package = view.package := by
    simpa [isFactVisible, Index.typeFact] using visible
  rw [isLinkVisible, stored]
  dsimp only
  split
  next alone => rcases own with isPublic | ⟨-, package⟩ <;> simp [*]
  next outer inside =>
    rcases own with isPublic | ⟨shared, package⟩
    · simp [isMemberVisible, isPublic]
    · obtain ⟨around, held, same, -⟩ := nested.member stored inside
      exact isMemberVisible_of_package held shared (same.symm.trans package)

/-- The package that the search compares with is the one of the cursor. -/
theorem unit_package (session : Session) : session.unit.1 = session.view.package := by
  simp only [unit, view, ScopeGraph.viewpoint]
  cases session.graph.unit? session.request.scope <;> rfl

/-- A type that the search finds in the index of a store is a stored class that may be named as far
as its own modifiers go. -/
theorem exists_linkVisible_of_placedTypes {known : KnownTypes} {placed : Placed}
    (ofStore : session.index = .ofStore session.store) (nested : session.store.WellNested)
    (limit : Index.WithinLimit session.store) (site : session.request.site ≠ .allocation)
    (checks : session.options.checkVisibility = true)
    (mem : placed ∈ session.placedTypes known) :
    ∃ id definition, session.store.class? id = some definition ∧
      placed.name = definition.name ∧ session.store.isLinkVisible session.view id = true := by
  obtain ⟨fact, -, screened⟩ := mem_placedTypes.mp mem
  obtain ⟨rfl, -⟩ := screenFact_eq_ok screened
  have visible : isFactVisible session.view.package placed.fact = true := by
    simp only [screenFact, Screened.bind_eq_ok, Screened.requireOr_eq_ok] at screened
    obtain ⟨_, -, _, -, _, -, _, visible, -⟩ := screened
    rw [unit_package, checks] at visible
    exact visible
  obtain ⟨id, definition, stored, fact⟩ :=
    Index.mem_types_ofStore.mp (ofStore ▸ mem_types_of_placedTypes site mem)
  rw [fact] at visible
  refine ⟨id, definition, stored, ?_, isLinkVisible_of_isFactVisible nested stored visible⟩
  rw [Placed.name, fact, Index.typeFact_name nested limit stored]

/-- With the filter for visibility on, a proposed type is a stored class that may be named exactly
if all classes around it may be. -/
theorem proposed_type_visible_iff_around (site : session.NamesTypes)
    (ofStore : session.index = .ofStore session.store) (nested : session.store.WellNested)
    (limit : Index.WithinLimit session.store)
    (checks : session.options.checkVisibility = true) (ignores : ProposalKind → Bool)
    (signal : Signal) :
    ∀ proposal ∈ (session.run ignores signal).proposals, proposal.kind = .type →
      ∃ candidate ∈ session.shown ignores, proposal = session.proposal candidate ∧
        ∃ id definition, session.store.class? id = some definition ∧
          session.store.typeName? candidate = some definition.name ∧
          (session.store.isClassVisible id session.view = true ↔
            ∀ outer ∈ (session.store.enclosingChain id).tail,
              session.store.isLinkVisible session.view outer = true) := by
  intro proposal mem kind
  obtain ⟨candidate, shown, rfl⟩ :=
    List.mem_map.mp ((session.proposals_run_initial ignores signal).mem mem)
  refine ⟨candidate, shown, rfl, ?_⟩
  have offered : candidate ∈ typesOf session.offered :=
    List.mem_filter.mpr ⟨(List.mem_filter.mp shown).1, by simpa using kind_of_ofCandidate kind⟩
  rw [typesOf_offered site, List.mem_append, List.mem_ite_nil_right] at offered
  rcases offered with walked | ⟨-, searched⟩
  · obtain ⟨_, id, definition, stored, denotes⟩ := exists_storedType_of_kept site walked
    have visible := stored.visible checks
    exact ⟨id, definition, stored.stored, denotes,
      iff_of_true visible (isClassVisible_iff.mp visible).2⟩
  · rw [Placed.settle_eq_map, List.map_map] at searched
    obtain ⟨placed, hplaced, rfl⟩ := List.mem_map.mp searched
    obtain ⟨id, definition, stored, named, visible⟩ :=
      exists_linkVisible_of_placedTypes ofStore nested limit site.ne_allocation checks hplaced
    refine ⟨id, definition, stored, ?_, ?_⟩
    · rw [Function.comp_apply, Store.typeName?, Placed.symbol_written,
        (placed.sameType_settled _ _).2, (places_of_mem hplaced).symbol, ← named]
      rfl
    · rw [isClassVisible_iff, and_iff_right visible]

/-- A library with a class that only its package may name, and a public class inside it. -/
def withHidden : Store :=
  let hidden := { ClassDef.topLevel ⟨["lib", "Hidden"]⟩ with modifiers := .none }
  let widget := { ClassDef.topLevel ⟨["Widget"]⟩ with modifiers := .public ||| .static }
  ((CoreLibrary.store.add hidden).1.addMember CoreLibrary.store.size widget).1

/-- A request for a type in another package than that of the hidden class. -/
def outsideHidden : Session :=
  { overCore "Widget" .typeReference ⟨#[{ parent := none, kind := .unit ⟨["app"]⟩ {} [] }]⟩ with
    store := withHidden, index := .ofStore withHidden, options := { checkVisibility := true } }

/-- What is proposed for the public class depends on the hidden one. -/
theorem widget_visible_iff_around :
    withHidden.WellNested ∧ Index.WithinLimit withHidden ∧
    ∀ proposal ∈ (outsideHidden.run (fun _ => false) fun _ _ => false).proposals,
      proposal.kind = .type → ∃ id definition, withHidden.class? id = some definition ∧
        (withHidden.isClassVisible id ⟨⟨["app"]⟩, none⟩ = true ↔
          ∀ outer ∈ (withHidden.enclosingChain id).tail,
            withHidden.isLinkVisible ⟨⟨["app"]⟩, none⟩ outer = true) := by
  have nested : withHidden.WellNested := by decide +kernel
  have limit : Index.WithinLimit withHidden := by decide +kernel
  refine ⟨nested, limit, fun proposal mem kind => ?_⟩
  obtain ⟨candidate, -, -, id, definition, stored, -, agree⟩ :=
    proposed_type_visible_iff_around (.inr (.inl rfl)) rfl nested limit rfl _ _ proposal mem kind
  exact ⟨id, definition, stored, agree⟩

/-- The search proposes the public class, which cannot be named. -/
theorem widget_proposed_though_hidden :
    (outsideHidden.run (fun _ => false) fun _ _ => false).proposals.map Proposal.declaring =
        [some "lib.Hidden.Widget"] ∧
      withHidden.name? (CoreLibrary.store.size + 1) = some ⟨["lib", "Hidden", "Widget"]⟩ ∧
      withHidden.isClassVisible (CoreLibrary.store.size + 1) outsideHidden.view = false := by
  refine ⟨?_, ?_, ?_⟩ <;> decide +kernel

end Completion.Session

end CodeAssist
