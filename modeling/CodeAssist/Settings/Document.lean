import CodeAssist.Settings.Logging
import CodeAssist.Settings.Options
import CodeAssist.Settings.Redaction
import CodeAssist.Toml.Reader
/-!
# Settings documents

Settings are read from a TOML document with two sections. Every key is optional. A key that the
library does not know is reported and passed over; a value of the wrong kind is an error, and of
several such values the first in the document is the one reported. A section may also be written as
the array of its values in order.
-/

namespace CodeAssist

/-- The settings of a workspace. -/
structure Settings where
  completion : Options := {}
  logging : Logging := {}
deriving DecidableEq, Repr, Inhabited

/-- A value of the wrong kind, and what was wanted instead. -/
structure Mismatch where
  found : Toml
  wanted : String
deriving Repr

/-- A text in double quotes. -/
def quoteText (text : String) : String :=
  String.ofList ('"' :: text.toList.flatMap (fun c =>
    if c = '"' ∨ c = '\\' then ['\\', c] else if c = '\n' then ['\\', 'n'] else [c]) ++ ['"'])

/-- What kind of value was found, with the value if it is a simple one. -/
def Toml.describe : Toml → String
  | .string value => "string " ++ quoteText value
  | .integer value => "integer `" ++ toString value ++ "`"
  | .float value => "floating point `" ++ String.ofList value.text ++ "`"
  | .boolean value => "boolean `" ++ toString value ++ "`"
  | .array _ => "sequence"
  | .table _ | .dateTime => "map"

namespace Mismatch

/-- What is wrong with a value, the value included. -/
def fullMessage (mismatch : Mismatch) : String :=
  "invalid type: " ++ mismatch.found.describe ++ ", expected " ++ mismatch.wanted

/-- What is wrong with a value, as it is shown. -/
def message (mismatch : Mismatch) : String := Redaction.redact mismatch.fullMessage

end Mismatch

/-- Why settings could not be loaded. -/
inductive SettingsError where
  /-- The file could not be read. -/
  | unreadable
  /-- The text is no TOML document. -/
  | noDocument
  | mismatch (mismatch : Mismatch)
deriving Repr

namespace Settings

/-! ## Reading values -/

def readFlag : Toml → Except Mismatch Bool
  | .boolean value => .ok value
  | found => .error ⟨found, "a boolean"⟩

def readText : Toml → Except Mismatch String
  | .string value => .ok value
  | found => .error ⟨found, "a string"⟩

def readPath : Toml → Except Mismatch String
  | .string value => .ok value
  | found => .error ⟨found, "path string"⟩

def readTexts : Toml → Except Mismatch (List String)
  | .array items => items.mapM readText
  | found => .error ⟨found, "a sequence"⟩

/-- A key of a section: its name and a way to store a value that has been read. -/
structure Key (σ : Type) where
  name : String
  read : σ → Toml → Except Mismatch σ

/-- The keys for completion options. -/
def completionKeys : List (Key Options) :=
  Options.flags.map (fun flag =>
    ⟨flag.name, fun options value => return flag.set (← readFlag value) options⟩)
  ++ [⟨Options.favoritesName, fun options value =>
        return { options with favorites := ← readTexts value }⟩]

/-- The keys for logging. -/
def loggingKeys : List (Key Logging) :=
  [⟨"level", fun logging value => return { logging with level := ← readText value }⟩,
   ⟨"json", fun logging value => return { logging with json := ← readFlag value }⟩,
   ⟨"stderr", fun logging value => return { logging with stderr := ← readFlag value }⟩,
   ⟨"file", fun logging value => return { logging with file := some (← readPath value) }⟩]

/-- Reads the members of a section and collects the keys it does not know. -/
def readMembers (keys : List (Key σ)) : σ → List (String × Toml) →
    Except Mismatch (σ × List String)
  | state, [] => .ok (state, [])
  | state, (name, value) :: members =>
    match keys.find? fun key => key.name == name with
    | some key => do readMembers keys (← key.read state value) members
    | none => do
      let (state, unknown) ← readMembers keys state members
      return (state, name :: unknown)

/-- Reads the values of a section written as an array. Values beyond the last key are passed
over. -/
def readPositions : List (Key σ) → σ → List Toml → Except Mismatch σ
  | key :: keys, state, value :: values => do readPositions keys (← key.read state value) values
  | _, state, _ => .ok state

/-- The key under which the text of a date stands when the date is taken for a table. -/
def dateKey : String := "$__toml_private_datetime"

/-- Reads a section. A date is taken for a table with one member, which no section knows. -/
def readSection (keys : List (Key σ)) (wanted : String) (start : σ) :
    Toml → Except Mismatch (σ × List String)
  | .table members => readMembers keys start members
  | .array values => do return (← readPositions keys start values, [])
  | .dateTime => .ok (start, [dateKey])
  | found => .error ⟨found, wanted⟩

/-! ## Unknown keys -/

/-- The path of an unknown key: a segment of digits behind the first one is written as an index. -/
def showPath (path : List Char) : List Char :=
  let segments := Text.splitAt '.' (path.dropWhile (· == '.'))
  segments.zipIdx.foldl (fun shown (segment, index) =>
    if 0 < index && !segment.isEmpty && segment.all Char.isDigit then
      shown ++ '[' :: segment ++ [']']
    else if shown.isEmpty then segment
    else shown ++ '.' :: segment) []

/-- The texts of a list in increasing order, each once. -/
def sortTexts (texts : List String) : List String :=
  (texts.mergeSort fun a b => !(b < a)).eraseReps

/-- Reads the members of a document: the settings, and the paths of the keys it does not know. -/
def readDocument : Settings → List (String × Toml) → Except Mismatch (Settings × List String)
  | settings, [] => .ok (settings, [])
  | settings, (name, value) :: members => do
    let (settings, found) ←
      match name with
      | "completion" => do
        let (completion, unknown) ←
          readSection completionKeys "struct CompletionOptions" ({} : Options) value
        pure ({ settings with completion }, unknown.map ("completion." ++ ·))
      | "logging" => do
        let (logging, unknown) ←
          readSection loggingKeys "struct LoggingConfig" ({} : Logging) value
        pure ({ settings with logging }, unknown.map ("logging." ++ ·))
      | name => pure (settings, [name])
    let (settings, unknown) ← readDocument settings members
    return (settings, found ++ unknown)

/-! ## Diagnostics -/

/-- A setting that can be read but makes no sense. -/
inductive Warning where
  /-- A favorite that is none, with its place in the list. -/
  | invalidFavorite (index : Nat) (value : String)
  /-- Discouraged references are hidden while forbidden ones are not. -/
  | discouragedWithoutForbidden
  | invalidLevel (value normalized : String)
deriving DecidableEq, Repr

/-- Where in the document a favorite stands. -/
def favoritePath (index : Nat) : String :=
  "completion." ++ Options.favoritesName ++ "[" ++ toString index ++ "]"

/-- What makes no sense in the settings. -/
def warnings (settings : Settings) : List Warning :=
  settings.completion.favorites.zipIdx.filterMap (fun (value, index) =>
    if (Favorite.parse? value).isNone then some (.invalidFavorite index value) else none)
  ++ (if settings.completion.checkDiscouraged && !settings.completion.checkForbidden then
        [.discouragedWithoutForbidden]
      else [])
  ++ (if settings.logging.isValid then []
      else [.invalidLevel settings.logging.level (Logging.normalize settings.logging.level)])

/-- Settings with what is to be said about them. -/
structure Loaded where
  settings : Settings := {}
  unknownKeys : List String := []
  warnings : List Warning := []
deriving DecidableEq, Repr, Inhabited

/-- Whether there is nothing to be said. -/
def Loaded.isClean (loaded : Loaded) : Bool :=
  loaded.unknownKeys.isEmpty && loaded.warnings.isEmpty

/-- Reads the text of a settings document. -/
def ofText (text : String) : Except SettingsError Loaded :=
  match Toml.parse text with
  | none => .error .noDocument
  | some members =>
    match readDocument {} members with
    | .error mismatch => .error (.mismatch mismatch)
    | .ok (settings, unknown) =>
      .ok
        { settings
          unknownKeys := sortTexts (unknown.map fun path => String.ofList (showPath path.toList))
          warnings := settings.warnings }

def toJson (settings : Settings) : Json :=
  .object [("completion", settings.completion.toJson), ("logging", settings.logging.toJson)]

/-- A warning with its kind. -/
def Warning.toJson : Warning → Json
  | .invalidFavorite index value =>
    .object
      [("kind", .string "FavoritePatternInvalid"), ("toml_path", .string (favoritePath index)),
       ("value", .string value)]
  | .discouragedWithoutForbidden =>
    .object [("kind", .string "DiscouragedCheckWithoutForbiddenCheck")]
  | .invalidLevel value normalized =>
    .object
      [("kind", .string "LoggingLevelInvalid"), ("value", .string value),
       ("normalized", .string normalized)]

/-- Settings with the favorites as they were read and all that is to be said. -/
def Loaded.toJson (loaded : Loaded) : Json :=
  .object
    [("config", loaded.settings.toJson),
     ("favorites", .array (loaded.settings.completion.parsedFavorites.map Favorite.toJson)),
     ("unknown_keys", .strings loaded.unknownKeys),
     ("warnings", .array (loaded.warnings.map Warning.toJson)), ("clean", .bool loaded.isClean)]

end Settings

end CodeAssist
