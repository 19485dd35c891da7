import CodeAssist.Class.CoreLibrary
import CodeAssist.Class.Signature
import CodeAssist.Proofs.Class.Additions
import Mathlib.Data.List.Nodup
/-!
# What implicit members do to the declared ones

An implicit method is added where no method of its name *and number of parameters* is declared: it
fills a place, not a signature. So at every place a stored class has the methods that its definition
declares there, and otherwise the first implicit method that belongs there
(`methodsAt_foldl_withMissing`). Three facts follow. Nothing that is declared is lost; methods with
different signatures are joined by others only (`nodup_foldl_withMissing`); and where no parameters
are taken, place and signature are one, so the accessors of a record, `hashCode`, `toString` and
`values` are always there.

`equals` and `valueOf` take one parameter. Another method of that name with one parameter, of
whatever type, takes their place, and then they are missing.
-/

namespace CodeAssist

/-! ## Places of methods -/

namespace Method

/-- The place of a method: its name and how many parameters it takes. -/
def place (method : Method) : String × Nat := (method.name, method.parameters.length)

/-- A method without parameters is told by its place. -/
theorem signature_eq_iff_place {method : Method} {name : String} :
    method.signature = ⟨name, some []⟩ ↔ method.place = (name, 0) := by
  simp [signature, place]

/-- Methods of one signature share their place. -/
theorem place_of_signature {method other : Method} (same : method.signature = other.signature) :
    method.place = other.place := by
  simp only [signature, Signature.mk.injEq, Option.some.injEq] at same
  have lengths := congrArg List.length same.2
  rw [List.length_map, List.length_map] at lengths
  exact Prod.ext same.1 lengths

end Method

/-- Methods with another, unless its place is taken. -/
def withMissing (declared : List Method) (method : Method) : List Method :=
  if declared.any fun other => other.place == method.place then declared else declared ++ [method]

/-- The methods at a place. -/
def methodsAt (place : String × Nat) (methods : List Method) : List Method :=
  methods.filter fun method => method.place == place

variable {declared implied : List Method} {method : Method} {place : String × Nat}

/-- A place is taken if a method of its name and number of parameters is declared. -/
theorem any_place_iff :
    (declared.any fun other => other.place == place) = true ↔ methodsAt place declared ≠ [] := by
  simp [methodsAt]

/-- The step: a method fills its place if that is empty, and changes no other. -/
theorem methodsAt_withMissing (place : String × Nat) (declared : List Method) (method : Method) :
    methodsAt place (withMissing declared method) =
      if methodsAt place declared = [] ∧ method.place = place then [method]
      else methodsAt place declared := by
  unfold withMissing
  by_cases here : method.place = place
  · subst here
    by_cases empty : methodsAt method.place declared = []
    · have free : (declared.any fun other => other.place == method.place) = false := by
        rw [Bool.eq_false_iff, Ne, any_place_iff]
        exact not_not.mpr empty
      rw [free, if_neg Bool.false_ne_true, if_pos ⟨empty, rfl⟩, methodsAt, List.filter_append]
      have none : declared.filter (fun other => other.place == method.place) = [] := empty
      simp [none]
    · rw [if_pos (any_place_iff.mpr empty), if_neg (fun h => empty h.1)]
  · have elsewhere : ¬ (methodsAt place declared = [] ∧ method.place = place) := fun h => here h.2
    rw [if_neg elsewhere]
    split
    · rfl
    · simp [methodsAt, List.filter_append, here]

/-- The run: a place keeps what is declared there, and is otherwise filled by the first method that
belongs there. -/
theorem methodsAt_foldl_withMissing (place : String × Nat) (declared implied : List Method) :
    methodsAt place (implied.foldl withMissing declared) =
      if methodsAt place declared = [] then (implied.find? fun m => m.place == place).toList
      else methodsAt place declared := by
  induction implied generalizing declared with
  | nil =>
    rw [List.foldl_nil]
    split
    next empty => exact empty
    next => rfl
  | cons method implied ih =>
    rw [List.foldl_cons, ih, methodsAt_withMissing]
    by_cases empty : methodsAt place declared = []
    · by_cases here : method.place = place
      · simp [empty, here]
      · simp [empty, here]
    · simp [empty]

/-- Declared methods stay where they are, in front. -/
theorem prefix_foldl_withMissing (declared implied : List Method) :
    declared <+: implied.foldl withMissing declared := by
  induction implied generalizing declared with
  | nil => exact List.prefix_refl declared
  | cons method implied ih =>
    refine List.IsPrefix.trans ?_ (ih (withMissing declared method))
    unfold withMissing
    split
    · exact List.prefix_refl declared
    · exact List.prefix_append declared [method]

/-- Different signatures stay different: what is added has a place of its own. -/
theorem nodup_foldl_withMissing (distinct : (declared.map Method.signature).Nodup)
    (implied : List Method) :
    ((implied.foldl withMissing declared).map Method.signature).Nodup := by
  induction implied generalizing declared with
  | nil => exact distinct
  | cons method implied ih =>
    refine ih ?_
    unfold withMissing
    split
    next => exact distinct
    next free =>
      rw [List.map_append, List.nodup_append]
      refine ⟨distinct, List.nodup_singleton _, ?_⟩
      intro first mem second last same
      obtain ⟨other, listed, rfl⟩ := List.mem_map.mp mem
      rw [List.map_singleton, List.mem_singleton] at last
      refine free (List.any_eq_true.mpr ⟨other, listed, ?_⟩)
      exact beq_iff_eq.mpr (Method.place_of_signature (same.trans last))

/-! ## Enumerations and records -/

namespace ClassDef

/-- A method of a signature is declared. -/
def Declares (definition : ClassDef) (signature : Signature) : Prop :=
  ∃ method ∈ definition.methods, method.signature = signature

instance (definition : ClassDef) (signature : Signature) :
    Decidable (definition.Declares signature) :=
  inferInstanceAs (Decidable (∃ method ∈ definition.methods, _))

/-- The methods that an enumeration has without declaring them. -/
def enumerationMethods (id : ClassId) : List Method :=
  [{ name := "values", result := .array (.plain id),
     modifiers := Modifiers.public ||| .static ||| .mandated },
   { name := "valueOf", parameters := [.plain .string], result := .plain id,
     modifiers := Modifiers.public ||| .static ||| .mandated, parameterNames := ["name"] }]

/-- The accessor of a component. -/
def accessor (component : Component) : Method :=
  { name := component.name, result := component.type,
    modifiers := Modifiers.public ||| .mandated }

/-- The methods that a record has without declaring them. -/
def recordMethods (components : List Component) : List Method :=
  components.map accessor ++
    [{ name := "equals", parameters := [.plain .object], result := .boolean,
       modifiers := Modifiers.public ||| .final ||| .mandated, parameterNames := ["o"] },
     { name := "hashCode", result := .int,
       modifiers := Modifiers.public ||| .final ||| .mandated },
     { name := "toString", result := .plain .string,
       modifiers := Modifiers.public ||| .final ||| .mandated }]

variable {definition : ClassDef}

/-- Adding a method leaves the fields. -/
@[simp] theorem fields_addMissing (method : Method) (definition : ClassDef) :
    (definition.addMissing method).fields = definition.fields := by
  unfold addMissing
  split <;> rfl

@[simp] theorem constructors_addMissing (method : Method) (definition : ClassDef) :
    (definition.addMissing method).constructors = definition.constructors := by
  unfold addMissing
  split <;> rfl

/-- The method is added unless its place is taken. -/
theorem methods_addMissing (method : Method) (definition : ClassDef) :
    (definition.addMissing method).methods = withMissing definition.methods method := by
  have sameTest : (definition.methods.any fun declared => declared.name == method.name &&
      declared.parameters.length == method.parameters.length) =
      definition.methods.any fun declared => declared.place == method.place := rfl
  unfold addMissing withMissing
  rw [sameTest]
  split <;> rfl

/-- Each component of a record adds its accessor. -/
theorem methods_foldl_addComponent (components : List Component) (definition : ClassDef) :
    (components.foldl addComponent definition).methods =
      (components.map accessor).foldl withMissing definition.methods := by
  induction components generalizing definition with
  | nil => rfl
  | cons component components ih =>
    rw [List.foldl_cons, ih, List.map_cons, List.foldl_cons]
    congr 1
    unfold addComponent
    dsimp only
    rw [methods_addMissing]
    split <;> rfl

/-- An enumeration gets the methods that list and find its constants. -/
theorem methods_completeEnumeration (id : ClassId) (definition : ClassDef) :
    (definition.completeEnumeration id).methods =
      (enumerationMethods id).foldl withMissing definition.methods := by
  unfold completeEnumeration
  dsimp only
  rw [methods_addMissing, methods_addMissing]
  rfl

/-- A record gets its accessors and the methods of the root class that it describes anew. -/
theorem methods_completeRecord (definition : ClassDef) :
    definition.completeRecord.methods =
      (recordMethods definition.components).foldl withMissing definition.methods := by
  have canonical : ∀ other : ClassDef, other.addCanonicalConstructor.methods = other.methods := by
    intro other
    unfold addCanonicalConstructor
    split <;> rfl
  unfold completeRecord
  dsimp only
  rw [methods_addMissing, methods_addMissing, methods_addMissing, canonical,
    methods_foldl_addComponent, recordMethods, List.foldl_append]
  rfl

/-! ### What is there afterwards -/

section Filled

variable {stored : ClassDef} {implied : List Method} {method : Method}

/-- The place of an implicit method is taken. -/
theorem methodsAt_ne_nil (filled : stored.methods = implied.foldl withMissing definition.methods)
    (mem : method ∈ implied) : methodsAt method.place stored.methods ≠ [] := by
  rw [filled, methodsAt_foldl_withMissing]
  split
  next =>
    cases found : implied.find? fun m => m.place == method.place with
    | none => exact absurd (beq_self_eq_true method.place) (List.find?_eq_none.mp found method mem)
    | some _ => exact List.cons_ne_nil _ _
  next taken => exact taken

/-- An implicit method without parameters is there, declared or added. -/
theorem declares_of_mem (filled : stored.methods = implied.foldl withMissing definition.methods)
    {name : String} (mem : method ∈ implied) (place : method.place = (name, 0)) :
    stored.Declares ⟨name, some []⟩ := by
  have taken := methodsAt_ne_nil filled mem
  rw [place] at taken
  obtain ⟨found, listed⟩ := List.exists_mem_of_ne_nil _ taken
  obtain ⟨listed, same⟩ := List.mem_filter.mp listed
  exact ⟨found, listed, Method.signature_eq_iff_place.mpr (beq_iff_eq.mp same)⟩

/-- The first implicit method of a place is there if its signature is declared, or if nothing is
declared at its place. -/
theorem declares_iff_of_find? (filled : stored.methods = implied.foldl withMissing definition.methods)
    {place : String × Nat} {signature : Signature}
    (first : implied.find? (fun m => m.place == place) = some method)
    (signed : method.signature = signature) :
    stored.Declares signature ↔
      definition.Declares signature ∨ ∀ other ∈ definition.methods, other.place ≠ place := by
  have here : ∀ other : Method, other.signature = signature → other.place = place := by
    intro other same
    have placed : (method.place == place) = true :=
      List.find?_some (p := fun m : Method => m.place == place) first
    exact (Method.place_of_signature (same.trans signed.symm)).trans (beq_iff_eq.mp placed)
  have located : ∀ other : ClassDef, other.Declares signature ↔
      ∃ m ∈ methodsAt place other.methods, m.signature = signature := by
    intro other
    simp only [Declares, methodsAt, List.mem_filter, beq_iff_eq]
    constructor
    · rintro ⟨m, mem, same⟩
      exact ⟨m, ⟨mem, here m same⟩, same⟩
    · rintro ⟨m, ⟨mem, -⟩, same⟩
      exact ⟨m, mem, same⟩
  have empty : (∀ other ∈ definition.methods, other.place ≠ place) ↔
      methodsAt place definition.methods = [] := by
    simp [methodsAt, List.filter_eq_nil_iff]
  rw [located, located, empty, filled, methodsAt_foldl_withMissing, first]
  by_cases free : methodsAt place definition.methods = []
  · rw [if_pos free]
    exact iff_of_true ⟨method, List.mem_singleton_self method, signed⟩ (.inr free)
  · rw [if_neg free]
    exact ⟨.inl, fun h => h.resolve_right free⟩

end Filled

/-- What an enumeration stored at a place has of its definition, and what beyond it. -/
structure EnumerationMembers (id : ClassId) (declared stored : ClassDef) : Prop where
  values : stored.Declares ⟨"values", some []⟩
  /-- `valueOf` is missing exactly if another `valueOf` with one parameter is declared. -/
  valueOf : stored.Declares ⟨"valueOf", some [.plain .string]⟩ ↔
    declared.Declares ⟨"valueOf", some [.plain .string]⟩ ∨
      ∀ method ∈ declared.methods, method.place ≠ ("valueOf", 1)
  methods : ∀ method ∈ declared.methods, method ∈ stored.methods
  /-- The constants have the type of the enumeration. -/
  fields : ∀ field ∈ declared.fields,
    (if field.isEnumConstant then { field with type := .plain id } else field) ∈ stored.fields
  constructors : ∀ constructor ∈ declared.constructors, constructor ∈ stored.constructors
  distinct : (declared.methods.map Method.signature).Nodup →
    (stored.methods.map Method.signature).Nodup

/-- What a stored record has of its definition, and what beyond it. -/
structure RecordMembers (declared stored : ClassDef) : Prop where
  accessors : ∀ component ∈ declared.components, stored.Declares ⟨component.name, some []⟩
  componentFields : ∀ component ∈ declared.components,
    ∃ field ∈ stored.fields, field.name = component.name
  hashCode : stored.Declares ⟨"hashCode", some []⟩
  toString : stored.Declares ⟨"toString", some []⟩
  /-- `equals` is missing exactly if another `equals` with one parameter is declared. -/
  equals : stored.Declares ⟨"equals", some [.plain .object]⟩ ↔
    declared.Declares ⟨"equals", some [.plain .object]⟩ ∨
      ∀ method ∈ declared.methods, method.place ≠ ("equals", 1)
  constructed : stored.constructors ≠ []
  methods : ∀ method ∈ declared.methods, method ∈ stored.methods
  fields : ∀ field ∈ declared.fields, field ∈ stored.fields
  constructors : ∀ constructor ∈ declared.constructors, constructor ∈ stored.constructors
  distinct : (declared.methods.map Method.signature).Nodup →
    (stored.methods.map Method.signature).Nodup

/-- Completing an enumeration gives it the members that it has implicitly. -/
theorem enumerationMembers (id : ClassId) (definition : ClassDef) :
    EnumerationMembers id definition (definition.completeEnumeration id) := by
  have filled := methods_completeEnumeration id definition
  have fields : (definition.completeEnumeration id).fields = definition.fields.map fun field =>
      if field.isEnumConstant then { field with type := .plain id } else field := by
    simp only [completeEnumeration, fields_addMissing]
  have constructors : (definition.completeEnumeration id).constructors =
      definition.constructors := by
    simp only [completeEnumeration, constructors_addMissing]
  exact {
    values := declares_of_mem filled List.mem_cons_self rfl
    valueOf := declares_iff_of_find? filled rfl rfl
    methods := by
      intro method mem
      rw [filled]
      exact (prefix_foldl_withMissing _ _).subset mem
    fields := by
      intro field mem
      rw [fields]
      exact List.mem_map_of_mem mem
    constructors := by
      intro constructor mem
      rwa [constructors]
    distinct := by
      intro distinct
      rw [filled]
      exact nodup_foldl_withMissing distinct _ }

/-- A record has a field for each component, behind those that it declares. -/
theorem fields_foldl_addComponent (components : List Component) (definition : ClassDef) :
    definition.fields <+: (components.foldl addComponent definition).fields ∧
      ∀ component ∈ components,
        ∃ field ∈ (components.foldl addComponent definition).fields,
          field.name = component.name := by
  have step : ∀ (component : Component) (other : ClassDef),
      other.fields <+: (other.addComponent component).fields ∧
        ∃ field ∈ (other.addComponent component).fields, field.name = component.name := by
    intro component other
    have fields : (other.addComponent component).fields =
        if other.fields.any fun field => field.name == component.name then other.fields
        else other.fields ++
          [{ name := component.name, type := component.type,
             modifiers := Modifiers.private ||| .final ||| .mandated }] := by
      unfold addComponent
      rw [fields_addMissing]
      split <;> rfl
    rw [fields]
    split
    next declared =>
      obtain ⟨field, mem, same⟩ := List.any_eq_true.mp declared
      exact ⟨List.prefix_refl _, field, mem, beq_iff_eq.mp same⟩
    next =>
      exact ⟨List.prefix_append _ _, _, List.mem_append_right _ (List.mem_singleton_self _), rfl⟩
  induction components generalizing definition with
  | nil => exact ⟨List.prefix_refl _, fun _ mem => absurd mem List.not_mem_nil⟩
  | cons component components ih =>
    obtain ⟨kept, field, mem, named⟩ := step component definition
    obtain ⟨behind, others⟩ := ih (definition.addComponent component)
    refine ⟨kept.trans behind, fun other listed => ?_⟩
    rcases List.mem_cons.mp listed with rfl | listed
    · exact ⟨field, behind.subset mem, named⟩
    · exact others other listed

theorem constructors_foldl_addComponent (components : List Component) (definition : ClassDef) :
    (components.foldl addComponent definition).constructors = definition.constructors := by
  induction components generalizing definition with
  | nil => rfl
  | cons component components ih =>
    rw [List.foldl_cons, ih, addComponent, constructors_addMissing]
    split <;> rfl

/-- Every record can be constructed: its own constructors stay, and without any it has the canonical
one. -/
theorem constructors_addCanonicalConstructor (definition : ClassDef) :
    definition.addCanonicalConstructor.constructors ≠ [] ∧
      ∀ constructor ∈ definition.constructors,
        constructor ∈ definition.addCanonicalConstructor.constructors := by
  unfold addCanonicalConstructor
  split
  next none =>
    refine ⟨List.cons_ne_nil _ _, fun constructor mem => ?_⟩
    rw [List.isEmpty_iff.mp none] at mem
    exact absurd mem List.not_mem_nil
  next some => exact ⟨fun none => some (List.isEmpty_iff.mpr none), fun _ mem => mem⟩

/-- Completing a record does the same. -/
theorem recordMembers (definition : ClassDef) :
    RecordMembers definition definition.completeRecord := by
  have filled := methods_completeRecord definition
  let opened : ClassDef := { definition with modifiers := definition.modifiers ||| .final }
  let withComponents := definition.components.foldl addComponent opened
  -- the standard methods come last and leave fields and constructors alone
  have fields : definition.completeRecord.fields = withComponents.fields := by
    simp only [completeRecord, fields_addMissing]
    unfold addCanonicalConstructor
    split <;> rfl
  have constructors : definition.completeRecord.constructors =
      withComponents.addCanonicalConstructor.constructors := by
    simp only [completeRecord, constructors_addMissing, withComponents, opened]
  have own : withComponents.constructors = definition.constructors :=
    constructors_foldl_addComponent definition.components opened
  obtain ⟨kept, added⟩ := fields_foldl_addComponent definition.components opened
  obtain ⟨constructed, present⟩ := constructors_addCanonicalConstructor withComponents
  -- no accessor takes the place of `equals`
  have first : (recordMethods definition.components).find? (fun m => m.place == ("equals", 1)) =
      some { name := "equals", parameters := [.plain .object], result := .boolean,
             modifiers := Modifiers.public ||| .final ||| .mandated, parameterNames := ["o"] } := by
    have accessors : (definition.components.map accessor).find?
        (fun m => m.place == ("equals", 1)) = none := by
      refine List.find?_eq_none.mpr fun method mem => ?_
      obtain ⟨component, -, rfl⟩ := List.mem_map.mp mem
      simp [Method.place, accessor]
    rw [recordMethods, List.find?_append, accessors]
    rfl
  exact {
    accessors := by
      intro component mem
      have implied : accessor component ∈ recordMethods definition.components :=
        List.mem_append_left _ (List.mem_map_of_mem mem)
      exact declares_of_mem filled implied rfl
    componentFields := by
      rw [fields]
      exact added
    hashCode := declares_of_mem filled
      (List.mem_append_right _ (List.mem_cons_of_mem _ List.mem_cons_self)) rfl
    toString := declares_of_mem filled
      (List.mem_append_right _ (List.mem_cons_of_mem _ (List.mem_cons_of_mem _
        List.mem_cons_self))) rfl
    equals := declares_iff_of_find? filled first rfl
    constructed := by
      rw [constructors]
      exact constructed
    methods := by
      intro method mem
      rw [filled]
      exact (prefix_foldl_withMissing _ _).subset mem
    fields := by
      intro field mem
      rw [fields]
      exact kept.subset mem
    constructors := by
      intro constructor mem
      rw [constructors]
      refine present constructor ?_
      rwa [own]
    distinct := by
      intro distinct
      rw [filled]
      exact nodup_foldl_withMissing distinct _ }

/-! ### Definitions with the same members -/

/-- What a class declares itself. -/
def ownMembers (definition : ClassDef) :
    List Field × List Method × List Constructor × List Component :=
  (definition.fields, definition.methods, definition.constructors, definition.components)

variable {other stored : ClassDef} {id : ClassId}

theorem EnumerationMembers.of_ownMembers (same : definition.ownMembers = other.ownMembers)
    (members : EnumerationMembers id definition stored) : EnumerationMembers id other stored := by
  simp only [ownMembers, Prod.mk.injEq] at same
  obtain ⟨fields, methods, constructors, -⟩ := same
  constructor
  · exact members.values
  · simpa only [Declares, methods] using members.valueOf
  · simpa only [methods] using members.methods
  · simpa only [fields] using members.fields
  · simpa only [constructors] using members.constructors
  · simpa only [methods] using members.distinct

theorem RecordMembers.of_ownMembers (same : definition.ownMembers = other.ownMembers)
    (members : RecordMembers definition stored) : RecordMembers other stored := by
  simp only [ownMembers, Prod.mk.injEq] at same
  obtain ⟨fields, methods, constructors, components⟩ := same
  constructor
  · simpa only [components] using members.accessors
  · simpa only [components] using members.componentFields
  · exact members.hashCode
  · exact members.toString
  · simpa only [Declares, methods] using members.equals
  · exact members.constructed
  · simpa only [methods] using members.methods
  · simpa only [fields] using members.fields
  · simpa only [constructors] using members.constructors
  · simpa only [methods] using members.distinct

/-- The superclass that is filled in is no member. -/
theorem ownMembers_completeSuperclass (id : ClassId) (definition : ClassDef) :
    (definition.completeSuperclass id).ownMembers = definition.ownMembers := by
  unfold completeSuperclass
  split
  · rfl
  · split <;> rfl

theorem kind_completeSuperclass (id : ClassId) (definition : ClassDef) :
    (definition.completeSuperclass id).kind = definition.kind := by
  unfold completeSuperclass
  split
  · rfl
  · split <;> rfl

end ClassDef

/-! ## The stored class -/

namespace Store

/-- Nor does being a member of another class change the members. -/
theorem ownMembers_asMember (store : Store) (outer : ClassId) (definition : ClassDef) :
    (store.asMember outer definition).ownMembers = definition.ownMembers := by
  unfold asMember
  dsimp only
  split <;> rfl

theorem kind_asMember (store : Store) (outer : ClassId) (definition : ClassDef) :
    (store.asMember outer definition).kind = definition.kind := by
  unfold asMember
  dsimp only
  split <;> rfl

/-- What the default superclass brings changes no member. -/
theorem exists_complete_eq (store : Store) (id : ClassId) (definition : ClassDef) :
    ∃ linked : ClassDef, linked.ownMembers = definition.ownMembers ∧
      linked.kind = definition.kind ∧ store.complete id definition = linked.completeMembers id := by
  unfold complete
  split
  · exact ⟨definition, rfl, rfl, rfl⟩
  · exact ⟨definition.completeSuperclass id, definition.ownMembers_completeSuperclass id,
      definition.kind_completeSuperclass id, rfl⟩

/-- Whatever else is completed, a record has its implicit members. -/
theorem recordMembers_complete {definition : ClassDef} (record : definition.kind = .record)
    (store : Store) (id : ClassId) :
    definition.RecordMembers (store.complete id definition) := by
  obtain ⟨linked, same, kind, stored⟩ := store.exists_complete_eq id definition
  have completed : linked.completeMembers id = linked.completeRecord := by
    unfold ClassDef.completeMembers
    rw [kind, record]
  rw [stored, completed]
  exact linked.recordMembers.of_ownMembers same

/-- And so has an enumeration. -/
theorem enumerationMembers_complete {definition : ClassDef}
    (enumeration : definition.kind = .enumeration) (store : Store) (id : ClassId) :
    definition.EnumerationMembers id (store.complete id definition) := by
  obtain ⟨linked, same, kind, stored⟩ := store.exists_complete_eq id definition
  have completed : linked.completeMembers id = linked.completeEnumeration id := by
    unfold ClassDef.completeMembers
    rw [kind, enumeration]
  rw [stored, completed]
  exact (linked.enumerationMembers id).of_ownMembers same

/-- However a record or an enumeration is added, it is stored with everything that it declares, with
distinct signatures if it declares distinct ones, and with its implicit members, save that another
method with one parameter takes the place of `equals` and of `valueOf`. -/
theorem implicit_methods_fill_places (store : Store) (outer : ClassId) (definition : ClassDef) :
    (∃ stored, (store.add definition).1.class? (store.add definition).2 = some stored ∧
      (definition.kind = .record → definition.RecordMembers stored) ∧
      (definition.kind = .enumeration → definition.EnumerationMembers store.size stored)) ∧
    ∃ stored, (store.addMember outer definition).1.class? (store.addMember outer definition).2 =
        some stored ∧
      (definition.kind = .record → definition.RecordMembers stored) ∧
      (definition.kind = .enumeration → definition.EnumerationMembers store.size stored) := by
  have asMember := store.ownMembers_asMember outer definition
  have kind := store.kind_asMember outer definition
  constructor
  · refine ⟨_, class?_add_size store definition, fun record => ?_, fun enumeration => ?_⟩
    · exact recordMembers_complete record store store.size
    · exact enumerationMembers_complete enumeration store store.size
  · refine ⟨_, class?_add_size store (store.asMember outer definition), fun record => ?_,
      fun enumeration => ?_⟩
    · exact (recordMembers_complete (kind.trans record) store store.size).of_ownMembers asMember
    · exact (enumerationMembers_complete (kind.trans enumeration) store
        store.size).of_ownMembers asMember

/-- A record with a component and no methods has all its methods, and so has an enumeration inside
it. -/
theorem point_members_complete :
    let point : ClassDef :=
      { ClassDef.topLevel (.ofDotted "geo.Point") .record with components := [⟨"x", .int⟩] }
    let axis : ClassDef :=
      { ClassDef.topLevel (.ofDotted "Axis") .enumeration with fields := [.enumConstant "X"] }
    let store := (CoreLibrary.store.add point).1
    (∃ stored, store.class? 22 = some stored ∧
      (point.kind = .record ∧ stored.Declares ⟨"x", some []⟩ ∧
        stored.Declares ⟨"equals", some [.plain .object]⟩)) ∧
    ∃ stored, (store.addMember 22 axis).1.class? 23 = some stored ∧
      (axis.kind = .enumeration ∧ stored.Declares ⟨"values", some []⟩ ∧
        stored.Declares ⟨"valueOf", some [.plain .string]⟩) := by
  intro point axis store
  obtain ⟨record, added, members, -⟩ :=
    (implicit_methods_fill_places CoreLibrary.store 0 point).1
  obtain ⟨enumeration, member, -, filled⟩ := (implicit_methods_fill_places store 22 axis).2
  have record_members := members rfl
  have enumeration_members := filled rfl
  have here : (CoreLibrary.store.add point).2 = 22 := by decide +kernel
  have there : (store.addMember 22 axis).2 = 23 := by decide +kernel
  rw [here] at added
  rw [there] at member
  refine ⟨⟨record, added, rfl, ?_, ?_⟩, enumeration, member, rfl, ?_, ?_⟩
  · exact record_members.accessors ⟨"x", .int⟩ (List.mem_singleton_self _)
  · exact record_members.equals.mpr (.inr fun _ mem => absurd mem List.not_mem_nil)
  · exact enumeration_members.values
  · exact enumeration_members.valueOf.mpr (.inr fun _ mem => absurd mem List.not_mem_nil)

/-- A record that declares `equals(int)` only has no `equals(Object)`, although the signatures
differ, and likewise an enumeration that declares `valueOf(int)`. -/
theorem overload_takes_implicit_place :
    let overloaded (name : String) (kind : ClassKind) (method : String) : ClassDef :=
      { ClassDef.topLevel (.ofDotted name) kind with
        methods := [{ name := method, parameters := [.int] }] }
    let record := (CoreLibrary.store.add (overloaded "geo.P" .record "equals")).1.class? 22
    let enumeration :=
      (CoreLibrary.store.add (overloaded "geo.E" .enumeration "valueOf")).1.class? 22
    (∃ stored, record = some stored ∧ stored.kind = .record ∧
      ¬ stored.Declares ⟨"equals", some [.plain .object]⟩) ∧
    ∃ stored, enumeration = some stored ∧ stored.kind = .enumeration ∧
      ¬ stored.Declares ⟨"valueOf", some [.plain .string]⟩ := by
  intro overloaded record enumeration
  have lost : ∀ (stored : Option ClassDef) (kind : ClassKind) (signature : Signature),
      (stored.any fun found => found.kind = kind ∧ ¬ found.Declares signature) = true →
        ∃ found, stored = some found ∧ found.kind = kind ∧ ¬ found.Declares signature := by
    intro stored kind signature missing
    cases stored with
    | none => exact absurd missing Bool.false_ne_true
    | some found => exact ⟨found, rfl, of_decide_eq_true missing⟩
  constructor
  · exact lost record .record _ (by decide +kernel)
  · exact lost enumeration .enumeration _ (by decide +kernel)

end Store

end CodeAssist
