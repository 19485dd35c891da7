import CodeAssist.Class.Signature
import CodeAssist.Json.Basic
/-!
# Classes as JSON values

The form in which types, members and classes are shown to clients that are not written in this
library's terms. A class is referred to by its place in the store.
-/

namespace CodeAssist

/-- A name with its dots. -/
def QualifiedName.toJson (name : QualifiedName) : Json := .string name.dotted

/-- A set of modifiers as the number of its bits. -/
def Modifiers.toJson (modifiers : Modifiers) : Json := .nat modifiers.bits.toNat

namespace TypeRef

mutual

/-- A type: a word where there is one, and otherwise an object. -/
def toJson : TypeRef → Json
  | .void => .string "void"
  | .null => .string "null"
  | .unknown => .string "unknown"
  | .primitive p => .string p.keyword
  | .declared id arguments => .object [("class", .nat id), ("args", .array (listToJson arguments))]
  | .array element => .object [("array", element.toJson)]
  | .variable name none => .object [("var", .string name), ("bound", .null)]
  | .variable name (some bound) => .object [("var", .string name), ("bound", bound.toJson)]
  | .named text => .object [("named", .string text)]

/-- Types one after the other. -/
def listToJson : List TypeRef → List Json
  | [] => []
  | type :: types => type.toJson :: listToJson types

end

/-- A list of types. -/
def listJson (types : List TypeRef) : Json := .array (listToJson types)

end TypeRef

/-- The identity of a member. -/
def Signature.toJson (signature : Signature) : Json :=
  .object
    [("name", .string signature.name),
     ("params", Json.ofOption TypeRef.listJson signature.parameters)]

/-- A field, with what its modifiers make it. -/
def Field.toJson (field : Field) : Json :=
  .object
    [("name", .string field.name), ("type", field.type.toJson),
     ("modifiers", field.modifiers.toJson), ("access", .string field.access.word),
     ("enum_constant", .bool field.isEnumConstant), ("constant", .bool field.isConstant)]

/-- A method. -/
def Method.toJson (method : Method) : Json :=
  .object
    [("name", .string method.name), ("type_params", .strings method.typeParameters),
     ("params", TypeRef.listJson method.parameters),
     ("param_names", .strings method.parameterNames), ("returns", method.result.toJson),
     ("modifiers", method.modifiers.toJson), ("access", .string method.access.word)]

/-- A constructor. -/
def Constructor.toJson (constructor : Constructor) : Json :=
  .object
    [("params", TypeRef.listJson constructor.parameters),
     ("param_names", .strings constructor.parameterNames),
     ("modifiers", constructor.modifiers.toJson), ("access", .string constructor.access.word)]

/-- A component of a record. -/
def Component.toJson (component : Component) : Json :=
  .object [("name", .string component.name), ("type", component.type.toJson)]

/-- A class with its members. -/
def ClassDef.toJson (definition : ClassDef) : Json :=
  .object
    [("name", definition.name.toJson), ("simple_name", .string definition.simpleName),
     ("package", definition.package.toJson), ("enclosing", Json.ofOption .nat definition.enclosing),
     ("kind", .string definition.kind.word), ("modifiers", definition.modifiers.toJson),
     ("access", .string definition.access.word),
     ("super", Json.ofOption TypeRef.toJson definition.superclass),
     ("interfaces", TypeRef.listJson definition.interfaces),
     ("type_params", .strings definition.typeParameters),
     ("fields", .array (definition.fields.map Field.toJson)),
     ("methods", .array (definition.methods.map Method.toJson)),
     ("constructors", .array (definition.constructors.map Constructor.toJson)),
     ("member_types", .array (definition.memberTypes.map Json.nat)),
     ("components", .array (definition.components.map Component.toJson)),
     ("is_interface", .bool definition.isInterface), ("is_abstract", .bool definition.isAbstract),
     ("is_deprecated", .bool definition.isDeprecated)]

end CodeAssist
