import CodeAssist.Class.Codec
import CodeAssist.Scope.Graph
/-!
# Scopes as JSON values

The form in which imports and variables are shown to clients.
-/

namespace CodeAssist

namespace OnDemandSource

/-- The word for a source. -/
def word : OnDemandSource → String
  | .type => "type"
  | .static => "static"
  | .implicit => "implicit"

end OnDemandSource

/-- The imports of a file, by their shape, and the containers that are imported on demand. -/
def Imports.toJson (imports : Imports) : Json :=
  .object
    [("type_single", .array (imports.types.map fun path =>
       .array [path.toJson, .string path.simple])),
     ("type_star", .array (imports.typeContainers.map QualifiedName.toJson)),
     ("static_single", .array (imports.members.map fun (owner, name) =>
       .array [owner.toJson, .string name])),
     ("static_star", .array (imports.memberOwners.map QualifiedName.toJson)),
     ("on_demand", .array (imports.onDemand.map fun (path, source) =>
       .array [path.toJson, .string source.word])),
     ("empty", .bool imports.isEmpty)]

namespace LocalKind

/-- The word for a kind of variable. -/
def word : LocalKind → String
  | .variable => "local"
  | .parameter => "parameter"
  | .pattern => "pattern"

/-- The kind of variable with a given word. -/
def ofWord? (word : String) : Option LocalKind :=
  [LocalKind.variable, parameter, pattern].find? fun kind => kind.word == word

end LocalKind

/-- A variable without its name. -/
def Local.toJson (binding : Local) : Json :=
  .object
    [("type", binding.type.toJson), ("kind", .string binding.kind.word),
     ("final", .bool binding.isFinal)]

/-- A member by its class and its place. -/
def MemberRef.toJson (ref : MemberRef) : Json := .array [.nat ref.owner, .nat ref.index]

end CodeAssist
