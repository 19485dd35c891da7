import CodeAssist.QualifiedName
import CodeAssist.Text.Identifier
/-!
# Import declarations

An import names one type, all types of a package or type, one static member of a type, or all of
them. A declaration is read leniently: it may carry the keyword and semicolons, and blanks may
stand around it and around the segments of its path.
-/

namespace CodeAssist

/-- An import declaration. -/
inductive Import where
  /-- The type with this name. -/
  | type (path : QualifiedName)
  /-- The types of this package or type. -/
  | typesOf (path : QualifiedName)
  /-- A static member of a type. -/
  | member (owner : QualifiedName) (name : String)
  /-- The static members of a type. -/
  | membersOf (owner : QualifiedName)
deriving DecidableEq, Repr, Inhabited

/-- Why a text is no import declaration. -/
inductive ImportError where
  | empty
  | staticWithoutType (text : String)
  | malformed (text : String)
deriving DecidableEq, Repr

/-- The text that describes an error. -/
def ImportError.message : ImportError → String
  | .empty => "empty import declaration"
  | .staticWithoutType text => "static import `" ++ text ++ "` must name a member of a type"
  | .malformed text => "malformed import `" ++ text ++ "`"

namespace Import

/-- The declaration inside a text: without blanks around it, the keyword before it and the
semicolons behind it. -/
def body (text : List Char) : List Char :=
  let trimmed := Text.trim text
  let bare := (Text.after? "import ".toList trimmed).getD trimmed
  Text.trim (bare.reverse.dropWhile (· == ';')).reverse

/-- Splits off the word for a static import. -/
def splitStatic (text : List Char) : Bool × List Char :=
  match Text.after? "static ".toList text with
  | some rest => (true, Text.trim rest)
  | none => (false, text)

/-- Splits off the star of an import on demand. -/
def splitStar (text : List Char) : Bool × List Char :=
  match Text.before? ".*".toList text with
  | some rest => (true, rest)
  | none => (false, text)

/-- The name that a path spells, if all its segments are identifiers but for blanks around them. -/
def path? (text : List Char) : Option QualifiedName :=
  if (Text.splitAt '.' text).all fun segment => Text.isIdentifier (Text.trim segment) then
    some (.ofDotted (String.ofList text))
  else none

/-- Reads an import declaration. -/
def parse (text : String) : Except ImportError Import :=
  let text := body text.toList
  if text.isEmpty then .error .empty
  else
    let (isStatic, rest) := splitStatic text
    let (isStar, rest) := splitStar rest
    match path? rest with
    | none => .error (.malformed (String.ofList text))
    | some path =>
      match isStatic, isStar with
      | false, false => .ok (.type path)
      | false, true => .ok (.typesOf path)
      | true, true => .ok (.membersOf path)
      | true, false =>
        match path.parent?, path.last? with
        | some owner, some name => .ok (.member owner name)
        | _, _ => .error (.staticWithoutType (String.ofList text))

/-- The declaration as it is written without keyword and semicolon. -/
def text : Import → String
  | .type path => path.dotted
  | .typesOf path => path.dotted ++ ".*"
  | .member owner name => "static " ++ (owner.child name).dotted
  | .membersOf owner => "static " ++ owner.dotted ++ ".*"

end Import

/-- Where the types of a container are imported from on demand. -/
inductive OnDemandSource where
  | type
  | static
  | implicit
deriving DecidableEq, Repr

/-- The imports of a compilation unit, by their shape, each in the order of its declarations. -/
structure Imports where
  types : List QualifiedName := []
  typeContainers : List QualifiedName := []
  members : List (QualifiedName × String) := []
  memberOwners : List QualifiedName := []
deriving DecidableEq, Repr, Inhabited

namespace Imports

/-- The package that every compilation unit imports. -/
def implicitPackage : QualifiedName := ⟨["java", "lang"]⟩

/-- Adds a declaration behind those of its shape. -/
def add (imports : Imports) : Import → Imports
  | .type path => { imports with types := imports.types ++ [path] }
  | .typesOf path => { imports with typeContainers := imports.typeContainers ++ [path] }
  | .member owner name => { imports with members := imports.members ++ [(owner, name)] }
  | .membersOf owner => { imports with memberOwners := imports.memberOwners ++ [owner] }

/-- Reads a declaration into the imports that are there. Nothing is added before all of the text is
read. -/
def push (imports : Imports) (text : String) : Except ImportError Unit × Imports :=
  match Import.parse text with
  | .ok declaration => (.ok (), imports.add declaration)
  | .error error => (.error error, imports)

/-- The imports with one more declaration. -/
def addText (imports : Imports) (text : String) : Except ImportError Imports :=
  match imports.push text with
  | (.ok (), after) => .ok after
  | (.error error, _) => .error error

/-- Reads declarations up to the first that is none. -/
def ofTexts (texts : List String) : Except ImportError Imports :=
  texts.foldlM addText {}

/-- The imported type with a simple name. -/
def type? (imports : Imports) (simple : String) : Option QualifiedName :=
  imports.types.find? fun path => path.simple == simple

/-- The containers whose types are imported on demand: those of type imports, those of static
imports, and the implicit package unless it is among them. -/
def onDemand (imports : Imports) : List (QualifiedName × OnDemandSource) :=
  let declared := imports.typeContainers.map (·, OnDemandSource.type)
    ++ imports.memberOwners.map (·, OnDemandSource.static)
  if declared.any fun entry => entry.1 == implicitPackage then declared
  else declared ++ [(implicitPackage, .implicit)]

def isEmpty (imports : Imports) : Bool :=
  imports.types.isEmpty && imports.typeContainers.isEmpty && imports.members.isEmpty
    && imports.memberOwners.isEmpty

end Imports

end CodeAssist
