import CodeAssist.Class.Store
import CodeAssist.Text.Split
/-!
# Signatures

The identity of a member for overriding and hiding (its name and the erasures of its parameters),
and the texts in which types and methods are shown.
-/

namespace CodeAssist

/-- The identity of a member: a field has no parameter list. -/
structure Signature where
  name : String
  parameters : Option (List TypeRef)
deriving DecidableEq, Repr, Inhabited

namespace Method

/-- The name and the erased parameters of a method. -/
def signature (method : Method) : Signature :=
  { name := method.name, parameters := some (method.parameters.map TypeRef.erasure) }

/-- Whether two methods have the same name and, up to erasure, the same parameters. -/
def isSubsignature (method other : Method) : Bool :=
  method.signature == other.signature

end Method

namespace Store

/-- The simple name of a class, `?` for an id without a class. -/
def simpleName (store : Store) (id : ClassId) : String :=
  match store.class? id with
  | some definition => definition.simpleName
  | none => "?"

mutual

/-- A type with simple class names, as in `Map<String, int[]>`. -/
def showType (store : Store) : TypeRef → String
  | .void => "void"
  | .null => "null"
  | .primitive primitive => primitive.keyword
  | .declared id [] => store.simpleName id
  | .declared id (argument :: arguments) =>
    store.simpleName id ++ "<" ++ store.showType argument ++ store.showMore arguments ++ ">"
  | .array element => store.showType element ++ "[]"
  | .variable name _ => name
  | .named text =>
    match (Text.splitAt '.' text.toList).getLast? with
    | some simple => String.ofList simple
    | none => text
  | .unknown => "?"

/-- The types after the first of a list, a comma before each. -/
def showMore (store : Store) : List TypeRef → String
  | [] => ""
  | type :: types => ", " ++ store.showType type ++ store.showMore types

end

/-- A parameter with its name, if it has one. -/
def showParameter (store : Store) (type : TypeRef) (name : Option String) : String :=
  match name with
  | some name => store.showType type ++ " " ++ name
  | none => store.showType type

/-- A method with its parameters and its result, as in `max(int a, int b) : int`. -/
def showMethod (store : Store) (method : Method) : String :=
  let parameters := method.parameters.zipIdx.map fun (type, index) =>
    store.showParameter type method.parameterNames[index]?
  method.name ++ "(" ++ ", ".intercalate parameters ++ ") : " ++ store.showType method.result

end Store

end CodeAssist
