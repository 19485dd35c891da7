import CodeAssist.Settings.Document
/-!
# Settings of a workspace

A workspace is a directory of files, each with a path of its own. Its settings are in the file that
the environment names, or else in the first file with one of the usual names; without such a file
the defaults hold.
-/

namespace CodeAssist

/-- A directory of text files with their paths, and the settings file that the environment names. -/
structure Workspace where
  files : List (String × String)
  chosen : Option String := none
deriving DecidableEq, Repr, Inhabited

namespace Workspace

/-- The usual names of a settings file, in the order in which they are looked for. -/
def usualNames : List String := ["sable.toml", ".sable.toml"]

/-! ## Paths -/

/-- The parts of a path between its slashes. -/
def parts (path : String) : List (List Char) := Text.splitAt '/' path.toList

/-- Whether a part of a path leads nowhere: it is empty or a single dot. -/
def isIdle (part : List Char) : Bool := part.isEmpty || part == ['.']

/-- A path without the parts at its start and at its end that lead nowhere. Whatever stands between
two other parts is kept as it is written. -/
def shownPath (path : String) : String :=
  String.ofList <| Text.joinWith '/' <|
    (((parts path).dropWhile isIdle).reverse.dropWhile isIdle).reverse

/-- The place of a file: the parts of its path that lead somewhere. -/
def place (path : String) : List (List Char) := (parts path).filter fun part => !isIdle part

/-! ## Files -/

/-- The text of the file at a place; of several files at one place the last stands. -/
def textAt? (workspace : Workspace) (here : List (List Char)) : Option String :=
  (workspace.files.reverse.map fun file => (place file.1, file.2)).lookup here

/-- Whether a place is a directory: the workspace itself, or a place that has a file inside it. -/
def isDirectory (workspace : Workspace) (here : List (List Char)) : Bool :=
  here.isEmpty || workspace.files.any fun file =>
    here.isPrefixOf (place file.1) && here != place file.1

/-- Follows the parts of a path from a place. Every part is looked up in a directory, also one that
leads nowhere, so that a file has nothing behind it; a path does not leave the workspace. -/
def follow? (workspace : Workspace) (here : List (List Char)) :
    List (List Char) → Option (List (List Char))
  | [] => some here
  | part :: rest =>
    if !workspace.isDirectory here then none
    else if isIdle part then workspace.follow? here rest
    else if part = ['.', '.'] then
      if here.isEmpty then none else workspace.follow? here.dropLast rest
    else workspace.follow? (here ++ [part]) rest

/-- The text of the file that a path leads to. -/
def file? (workspace : Workspace) (path : String) : Option String :=
  (workspace.follow? [] (parts path)).bind workspace.textAt?

/-! ## Settings -/

/-- The path of the settings file: the one chosen, whether it is there or not, or else a usual
one. -/
def settingsPath? (workspace : Workspace) : Option String :=
  workspace.chosen <|> usualNames.find? fun name => (workspace.file? name).isSome

/-- The path of the settings file as it is shown. -/
def settingsFile? (workspace : Workspace) : Option String :=
  workspace.settingsPath?.map shownPath

/-- Loads the settings, and says from which file. -/
def load (workspace : Workspace) : Except SettingsError (Option String × Settings.Loaded) :=
  match workspace.settingsPath? with
  | none => .ok (none, {})
  | some path =>
    match workspace.file? path with
    | none => .error .unreadable
    | some text => (Settings.ofText text).map (some (shownPath path), ·)

end Workspace

end CodeAssist
