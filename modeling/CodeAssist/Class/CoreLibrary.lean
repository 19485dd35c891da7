import CodeAssist.Class.Store
/-!
# The core library

The classes of `java.lang` and `java.io` that the language itself refers to. They come first in
every store, at the places named in `CodeAssist.ClassId`.
-/

namespace CodeAssist.CoreLibrary

private def top (name : String) (kind : ClassKind := .class) : ClassDef :=
  .topLevel (.ofDotted name) kind

private def finalClass (name : String) : ClassDef :=
  { top name with modifiers := .public ||| .final }

private def abstractClass (name : String) : ClassDef :=
  { top name with modifiers := .public ||| .abstract }

private def string : TypeRef := .plain .string

private def staticMethod (name : String) (parameters : List TypeRef) (result : TypeRef) : Method :=
  { name, parameters, result, modifiers := .public ||| .static }

private def finalMethod (name : String) (result : TypeRef) : Method :=
  { name, result, modifiers := .public ||| .final }

private def abstractMethod (name : String) (result : TypeRef) : Method :=
  { name, result, modifiers := .public ||| .abstract }

private def constant (name : String) (type : TypeRef) : Field :=
  { name, type, modifiers := .public ||| .static ||| .final }

/-- The root class, with the methods that every object has. -/
def object : ClassDef :=
  { top "java.lang.Object" with
    constructors := [{}]
    methods :=
      [{ name := "equals", parameters := [.plain .object], result := .boolean,
         parameterNames := ["obj"] },
       { name := "hashCode", result := .int },
       { name := "toString", result := string },
       finalMethod "getClass" (.plain .reflected),
       finalMethod "notify" .void,
       finalMethod "notifyAll" .void,
       finalMethod "wait" .void,
       { name := "clone", result := .plain .object, modifiers := .protected },
       { name := "finalize", modifiers := .protected ||| .deprecated }] }

def serializable : ClassDef := top "java.io.Serializable" .interface

def cloneable : ClassDef := top "java.lang.Cloneable" .interface

def charSequence : ClassDef :=
  { top "java.lang.CharSequence" .interface with
    methods :=
      [{ name := "length", result := .int },
       { name := "charAt", parameters := [.int], result := .primitive .char }] }

def comparable : ClassDef :=
  { top "java.lang.Comparable" .interface with
    typeParameters := ["T"]
    methods :=
      [{ name := "compareTo", parameters := [.variable "T" none], result := .int,
         parameterNames := ["o"] }] }

def stringClass : ClassDef :=
  { finalClass "java.lang.String" with
    interfaces :=
      [.plain .serializable, .plain .charSequence, .declared .comparable [string]]
    methods :=
      [{ name := "length", result := .int },
       { name := "isEmpty", result := .boolean },
       { name := "charAt", parameters := [.int], result := .primitive .char },
       { name := "substring", parameters := [.int], result := string },
       { name := "compareTo", parameters := [string], result := .int,
         parameterNames := ["anotherString"] },
       staticMethod "valueOf" [.plain .object] string,
       staticMethod "valueOf" [.int] string] }

def reflectedClass : ClassDef :=
  { finalClass "java.lang.Class" with
    typeParameters := ["T"]
    methods := [{ name := "getName", result := string }] }

def number : ClassDef :=
  { abstractClass "java.lang.Number" with
    interfaces := [.plain .serializable]
    methods :=
      [abstractMethod "intValue" .int,
       abstractMethod "longValue" (.primitive .long),
       abstractMethod "doubleValue" (.primitive .double)] }

/-- The wrapper class of a primitive type. The numeric ones are numbers with a largest and a
smallest value. -/
def box (primitive : Primitive) : ClassDef :=
  let own : TypeRef := .boxed primitive
  let value : TypeRef := .primitive primitive
  let numeric := primitive ≠ .boolean ∧ primitive ≠ .char
  { finalClass primitive.boxName with
    superclass := if numeric then some (.plain .number) else none
    interfaces :=
      .declared .comparable [own] :: if numeric then [] else [.plain .serializable]
    fields :=
      (if numeric then [constant "MAX_VALUE" value, constant "MIN_VALUE" value] else [])
        ++ if primitive = .boolean then [constant "TRUE" own, constant "FALSE" own] else []
    constructors := [{ parameters := [value], modifiers := .public ||| .deprecated }]
    methods :=
      [staticMethod "valueOf" [value] own,
       { name := primitive.keyword ++ "Value", result := value }]
        ++ if primitive = .int then
          [{ staticMethod "parseInt" [string] .int with parameterNames := ["s"] }]
        else [] }

def enumeration : ClassDef :=
  { abstractClass "java.lang.Enum" with
    typeParameters := ["E"]
    interfaces := [.plain .serializable, .declared .comparable [.variable "E" none]]
    constructors := [{ parameters := [string, .int], modifiers := .protected }]
    methods := [finalMethod "name" string, finalMethod "ordinal" .int] }

def record : ClassDef :=
  { abstractClass "java.lang.Record" with
    constructors := [{ modifiers := .protected }]
    methods :=
      [{ name := "equals", parameters := [.plain .object], result := .boolean,
         modifiers := .public ||| .abstract },
       abstractMethod "hashCode" .int,
       abstractMethod "toString" string] }

private def throwableConstructors : List Constructor :=
  [{}, { parameters := [string] }]

def throwable : ClassDef :=
  { top "java.lang.Throwable" with
    interfaces := [.plain .serializable]
    constructors := throwableConstructors
    methods := [{ name := "getMessage", result := string }, { name := "printStackTrace" }] }

def exception : ClassDef :=
  { top "java.lang.Exception" with
    superclass := some (.plain .throwable)
    constructors := throwableConstructors }

def runtimeException : ClassDef :=
  { top "java.lang.RuntimeException" with
    superclass := some (.plain .exception)
    constructors := throwableConstructors }

def math : ClassDef :=
  let double : TypeRef := .primitive .double
  let binary (name : String) : Method :=
    { staticMethod name [.int, .int] .int with parameterNames := ["a", "b"] }
  { finalClass "java.lang.Math" with
    constructors := [{ modifiers := .private }]
    fields := [constant "PI" double, constant "E" double]
    methods :=
      [staticMethod "abs" [.int] .int, binary "max", binary "min",
       staticMethod "sqrt" [double] double] }

/-- The classes in the order of their places. -/
def classes : List ClassDef :=
  [object, serializable, cloneable, charSequence, comparable, stringClass, reflectedClass, number]
    ++ Primitive.all.map box
    ++ [enumeration, record, throwable, exception, runtimeException, math]

/-- The store that holds the core library and nothing else. -/
def store : Store := ({} : Store).addAll classes

end CodeAssist.CoreLibrary
