import CodeAssist.Settings.Document
/-!
# The schema of settings

A description of the settings document for editors: each section with its keys, their types and
their defaults. No other keys are foreseen.
-/

namespace CodeAssist.Settings

/-- A key with its default value and its type. A key whose type is a section has no type of its
own. -/
structure Property where
  name : String
  default : Json
  type : Json := .null

/-- The keys of the completion section. -/
def completionProperties : List Property :=
  Options.flags.map (fun flag => ⟨flag.name, .bool (flag.get {}), .string "boolean"⟩)
    ++ [⟨Options.favoritesName, .strings ({} : Options).favorites, .string "array"⟩]

/-- The keys of the logging section. -/
def loggingProperties : List Property :=
  let logging : Logging := {}
  [⟨"level", .string logging.level, .string "string"⟩,
   ⟨"json", .bool logging.json, .string "boolean"⟩,
   ⟨"stderr", .bool logging.stderr, .string "boolean"⟩,
   ⟨"file", Json.ofOption .string logging.file, .strings ["string", "null"]⟩]

/-- The sections of a document, each referring to a definition. -/
def rootProperties : List Property :=
  let settings : Settings := {}
  [⟨"completion", settings.completion.toJson, .null⟩, ⟨"logging", settings.logging.toJson, .null⟩]

/-- The definitions that the sections refer to. -/
def definitions : List (String × List Property) :=
  [("CompletionOptions", completionProperties), ("LoggingConfig", loggingProperties)]

/-- A table of keys as a value. -/
def describeProperties (properties : List Property) : Json :=
  .object
    [("properties", .object (properties.map fun property =>
       (property.name, .object [("default", property.default), ("type", property.type)]))),
     ("additional", .bool false)]

/-- The whole schema as a value. -/
def schema : Json :=
  .object
    [("root", describeProperties rootProperties),
     ("definitions", .object (definitions.map fun (name, properties) =>
       (name, describeProperties properties)))]

end CodeAssist.Settings
