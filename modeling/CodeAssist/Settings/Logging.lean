import CodeAssist.Json.Basic
import CodeAssist.Settings.LevelFilter
/-!
# Logging settings

The configured log level is free text: a level, or the directives of a filter. Directives from the
environment are put behind the configured ones, and what cannot be read gives way to what can.
-/

namespace CodeAssist

/-- Where and how much is logged. -/
structure Logging where
  level : String := "info"
  json : Bool := false
  stderr : Bool := true
  file : Option String := none
deriving DecidableEq, Repr, Inhabited

namespace Logging

/-- The directives of a configured level. A level alone may be written in letters of either case,
and `warning` is a level too; nothing means `info`. -/
def normalize (text : String) : String :=
  let trimmed := Text.trim text.toList
  let small := String.ofList (trimmed.map Char.toLower)
  if trimmed.isEmpty then "info"
  else if small = "warning" then "warn"
  else if ["trace", "debug", "info", "warn", "error"].contains small then small
  else String.ofList trimmed

/-- Whether a configured level can be read. -/
def isValid (logging : Logging) : Bool :=
  (Text.trim logging.level.toList).isEmpty || (LevelFilter.parse? (normalize logging.level)).isSome

/-- The filter of the configured level. -/
def configuredFilter (logging : Logging) : LevelFilter :=
  (LevelFilter.parse? (normalize logging.level)).getD (.plain .info)

/-- The filter in force, with directives from the environment. -/
def filter (logging : Logging) (environment : Option String) : LevelFilter :=
  match environment.map Text.trimmed with
  | none | some "" => logging.configuredFilter
  | some directives =>
    (LevelFilter.parse? (normalize logging.level ++ "," ++ directives)
      <|> LevelFilter.parse? directives).getD logging.configuredFilter

def toJson (logging : Logging) : Json :=
  .object
    [("level", .string logging.level), ("json", .bool logging.json),
     ("stderr", .bool logging.stderr), ("file", Json.ofOption .string logging.file)]

end Logging

end CodeAssist
