import CodeAssist.Scope.Import
/-!
# What a file imports

Imports are read declaration by declaration and kept by their shape. What they declare is what was
read, no more and no less (`declares_ofTexts`), and what is imported on demand is declared, or is the
package that every file imports (`mem_onDemand`). That package gives way to a declaration of its
path, of whatever shape: next to an import of its static members it is not imported for its types.
-/

namespace CodeAssist

namespace Imports

variable {imports start result : Imports} {declaration added : Import} {text simple : String}
  {texts : List String} {path : QualifiedName} {source : OnDemandSource}

/-! ## Declarations -/

/-- Whether imports hold a declaration, among those of its shape. -/
def Declares (imports : Imports) : Import → Prop
  | .type path => path ∈ imports.types
  | .typesOf path => path ∈ imports.typeContainers
  | .member owner name => (owner, name) ∈ imports.members
  | .membersOf owner => owner ∈ imports.memberOwners

@[simp] theorem not_declares_empty (declaration : Import) :
    ¬ ({} : Imports).Declares declaration := by
  cases declaration <;> exact List.not_mem_nil

/-- Adding an import declares it, and what was declared stays declared. -/
theorem declares_add :
    (imports.add added).Declares declaration ↔
      imports.Declares declaration ∨ declaration = added := by
  cases added <;> cases declaration <;> simp [add, Declares]

theorem addText_eq_ok :
    imports.addText text = .ok result ↔
      ∃ declaration, Import.parse text = .ok declaration ∧ imports.add declaration = result := by
  unfold addText push
  cases Import.parse text <;> simp

/-- The run: reading texts adds the declarations in them. -/
theorem declares_foldlM_addText (read : texts.foldlM addText start = .ok result) :
    result.Declares declaration ↔
      start.Declares declaration ∨ ∃ text ∈ texts, Import.parse text = .ok declaration := by
  induction texts generalizing start with
  | nil =>
    obtain rfl : start = result := Except.ok.inj read
    simp
  | cons text texts ih =>
    rw [List.foldlM_cons] at read
    cases step : start.addText text with
    | error failure =>
      rw [step] at read
      cases read
    | ok next =>
      rw [step] at read
      obtain ⟨added, parsed, rfl⟩ := addText_eq_ok.mp step
      have own : declaration = added ↔ Import.parse text = .ok declaration := by
        rw [parsed, Except.ok.injEq, eq_comm]
      simp [ih read, declares_add, or_assoc, own]

/-- Imports that were read declare what was read. -/
theorem declares_ofTexts (read : ofTexts texts = .ok imports) :
    imports.Declares declaration ↔ ∃ text ∈ texts, Import.parse text = .ok declaration := by
  rw [declares_foldlM_addText read]
  simp

/-- No type is imported by a name if no declared path ends in that name. -/
theorem type?_eq_none_iff :
    imports.type? simple = none ↔ ∀ path, imports.Declares (.type path) → path.simple ≠ simple := by
  simp [type?, Declares]

/-! ## Imports on demand -/

/-- What is imported on demand, and why. -/
theorem mem_onDemand :
    (path, source) ∈ imports.onDemand ↔
      match source with
      | .type => imports.Declares (.typesOf path)
      | .static => imports.Declares (.membersOf path)
      | .implicit => path = implicitPackage ∧ ¬ imports.Declares (.typesOf path) ∧
          ¬ imports.Declares (.membersOf path) := by
  have given : (imports.typeContainers.map (·, OnDemandSource.type)
      ++ imports.memberOwners.map (·, OnDemandSource.static)).any
        (fun entry => entry.1 == implicitPackage) = true ↔
      imports.Declares (.typesOf implicitPackage) ∨
        imports.Declares (.membersOf implicitPackage) := by
    simp [Declares]
  unfold onDemand
  dsimp only
  cases source with
  | type | static => split <;> simp [Declares]
  | implicit =>
    split
    next listed =>
      have listed := given.mp listed
      simp only [List.mem_append, List.mem_map, Prod.mk.injEq, reduceCtorEq, and_false,
        exists_const, or_self, false_iff]
      rintro ⟨rfl, types, members⟩
      exact listed.elim types members
    next unlisted =>
      have unlisted := not_or.mp (mt given.mpr unlisted)
      simp only [List.mem_append, List.mem_map, Prod.mk.injEq, reduceCtorEq, and_false,
        exists_const, or_self, false_or, List.mem_singleton, and_true]
      exact ⟨fun same => ⟨same, same ▸ unlisted⟩, And.left⟩

/-- The package that is imported without being asked is among the containers, for some reason. -/
theorem exists_implicit_mem_onDemand (imports : Imports) :
    ∃ source, (implicitPackage, source) ∈ imports.onDemand := by
  by_cases types : imports.Declares (.typesOf implicitPackage)
  · exact ⟨.type, mem_onDemand.mpr types⟩
  · by_cases members : imports.Declares (.membersOf implicitPackage)
    · exact ⟨.static, mem_onDemand.mpr members⟩
    · exact ⟨.implicit, mem_onDemand.mpr ⟨rfl, types, members⟩⟩

/-- Whether a file with these declarations imports the types of the package that every file imports:
one of them does, or none takes the place of that import. -/
def ImplicitIn (texts : List String) : Prop :=
  (∃ text ∈ texts, Import.parse text = .ok (.typesOf implicitPackage)) ∨
    ∀ text ∈ texts, Import.parse text ≠ .ok (.membersOf implicitPackage)

/-- That is so if the package is imported by something else than a static import. -/
theorem implicitIn_iff (read : ofTexts texts = .ok imports) :
    ImplicitIn texts ↔ ∃ source, (implicitPackage, source) ∈ imports.onDemand ∧ source ≠ .static := by
  have given : ImplicitIn texts ↔ imports.Declares (.typesOf implicitPackage) ∨
      ¬ imports.Declares (.membersOf implicitPackage) := by
    simp [ImplicitIn, declares_ofTexts read]
  rw [given]
  constructor
  · intro given
    by_cases types : imports.Declares (.typesOf implicitPackage)
    · exact ⟨.type, mem_onDemand.mpr types, by simp⟩
    · exact ⟨.implicit, mem_onDemand.mpr ⟨rfl, types, given.resolve_left types⟩, by simp⟩
  · rintro ⟨source, mem, dynamic⟩
    rw [mem_onDemand] at mem
    cases source with
    | type => exact .inl mem
    | static => exact absurd rfl dynamic
    | implicit => exact .inr mem.2.2

end Imports

end CodeAssist
