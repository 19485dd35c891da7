import CodeAssist.Class.Basic
/-!
# Implicit members

What the language declares without being asked: the default superclass, `values` and `valueOf` of
an enumeration, the fields, accessors, canonical constructor and standard methods of a record, the
modifiers of interface members and the default constructor of a class.
-/

namespace CodeAssist.ClassDef

/-- Whether this is the root class. -/
def isRoot (definition : ClassDef) : Bool := definition.name.dotted == "java.lang.Object"

/-- The superclass that a class of a kind has if it names none. -/
def defaultSuperclass (id : ClassId) : ClassKind → TypeRef
  | .enumeration => .declared .enumeration [.plain id]
  | .record => .plain .record
  | _ => .plain .object

/-- Adds a method unless one with its name and number of parameters is declared. -/
def addMissing (method : Method) (definition : ClassDef) : ClassDef :=
  if definition.methods.any fun declared =>
      declared.name == method.name && declared.parameters.length == method.parameters.length then
    definition
  else { definition with methods := definition.methods ++ [method] }

/-- Fills in an enumeration stored at a place: its constants have its own type. -/
def completeEnumeration (id : ClassId) (definition : ClassDef) : ClassDef :=
  let constants := definition.fields.map fun field =>
    if field.isEnumConstant then { field with type := .plain id } else field
  let modifiers := Modifiers.public ||| .static ||| .mandated
  { definition with
    modifiers := definition.modifiers ||| .final
    fields := constants }
  |> addMissing { name := "values", result := .array (.plain id), modifiers }
  |> addMissing
    { name := "valueOf", parameters := [.plain .string], result := .plain id, modifiers,
      parameterNames := ["name"] }

/-- Adds the field and the accessor of a record component unless they are declared. -/
def addComponent (definition : ClassDef) (component : Component) : ClassDef :=
  let withField :=
    if definition.fields.any fun field => field.name == component.name then definition
    else
      { definition with
        fields := definition.fields ++
          [{ name := component.name, type := component.type,
             modifiers := Modifiers.private ||| .final ||| .mandated }] }
  withField.addMissing
    { name := component.name, result := component.type
      modifiers := Modifiers.public ||| .mandated }

/-- Adds the constructor that takes all components unless the record declares one. -/
def addCanonicalConstructor (definition : ClassDef) : ClassDef :=
  if definition.constructors.isEmpty then
    { definition with
      constructors :=
        [{ parameters := definition.components.map Component.type
           parameterNames := definition.components.map Component.name
           modifiers := Modifiers.public ||| .mandated }] }
  else definition

/-- Fills in a record. -/
def completeRecord (definition : ClassDef) : ClassDef :=
  let modifiers := Modifiers.public ||| .final ||| .mandated
  definition.components.foldl addComponent
    { definition with modifiers := definition.modifiers ||| .final }
  |> addCanonicalConstructor
  |> addMissing
    { name := "equals", parameters := [.plain .object], result := .boolean, modifiers,
      parameterNames := ["o"] }
  |> addMissing { name := "hashCode", result := .int, modifiers }
  |> addMissing { name := "toString", result := .plain .string, modifiers }

/-- The modifiers of a method of an interface. -/
def interfaceMethod (method : Method) : Method :=
  let modifiers :=
    if method.modifiers.isPrivate then method.modifiers else method.modifiers ||| .public
  let abstractly :=
    !modifiers.isStatic && !modifiers.contains .default && !modifiers.isPrivate
  { method with modifiers := if abstractly then modifiers ||| .abstract else modifiers }

/-- Fills in an interface or annotation. -/
def completeInterface (definition : ClassDef) : ClassDef :=
  { definition with
    methods := definition.methods.map interfaceMethod
    fields := definition.fields.map fun field =>
      { field with modifiers := field.modifiers ||| .public ||| .static ||| .final } }

/-- Fills in a class: one that declares no constructor has one without parameters, as visible as the
class itself. -/
def completeClass (definition : ClassDef) : ClassDef :=
  if definition.constructors.isEmpty && !definition.isRoot then
    { definition with
      constructors :=
        [{ modifiers :=
             definition.modifiers.without
               (Modifiers.static ||| .final ||| .abstract ||| .deprecated) }] }
  else definition

/-- Gives a class its default superclass if it names none and is no interface. -/
def completeSuperclass (id : ClassId) (definition : ClassDef) : ClassDef :=
  match definition.superclass with
  | some _ => definition
  | none =>
    if definition.isInterface || definition.isRoot then definition
    else { definition with superclass := some (defaultSuperclass id definition.kind) }

/-- The members of a class by its kind. -/
def completeMembers (id : ClassId) (definition : ClassDef) : ClassDef :=
  match definition.kind with
  | .enumeration => definition.completeEnumeration id
  | .record => definition.completeRecord
  | .interface | .annotationType => definition.completeInterface
  | .class => definition.completeClass

end CodeAssist.ClassDef
