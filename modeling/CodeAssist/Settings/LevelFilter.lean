import CodeAssist.Text.Alphanumeric
import CodeAssist.Text.Blank
import CodeAssist.Text.Split
import CodeAssist.Text.Utf8
/-!
# Log filters

A log filter is a set of directives, at most one for each target and at most one without a target.
A directive is a level, or a target with a level. The text of a filter lists the directives with
commas between them, the longest target first and the plain level last.
-/

namespace CodeAssist

/-- A log level. -/
inductive Level where
  | off
  | error
  | warn
  | info
  | debug
  | trace
deriving DecidableEq, Repr, Inhabited

namespace Level

/-- The levels in the order of their numbers. -/
def all : List Level := [.off, .error, .warn, .info, .debug, .trace]

def word : Level → String
  | .off => "off"
  | .error => "error"
  | .warn => "warn"
  | .info => "info"
  | .debug => "debug"
  | .trace => "trace"

/-- The value of a natural number, which may have a plus sign and leading zeros. -/
def number? (text : List Char) : Option Nat :=
  let digits := (Text.after? ['+'] text).getD text
  if !digits.isEmpty && digits.all Char.isDigit then
    some (digits.foldl (fun value c => 10 * value + (c.toNat - '0'.toNat)) 0)
  else none

/-- The level with a word, in letters of either case, or with a number. -/
def ofText? (text : List Char) : Option Level :=
  match number? text with
  | some number => all[number]?
  | none => all.find? fun level => level.word.toList == text.map Char.toLower

end Level

/-- One directive of a filter. -/
structure Directive where
  target : Option String
  level : Level
deriving DecidableEq, Repr, Inhabited

namespace Directive

/-- Whether a directive may begin with a character: a letter, a number, `-`, `:` or `_`. -/
def isStart (c : Char) : Bool :=
  Text.isAlphanumeric c || c == '-' || c == ':' || c == '_'

/-- Reads a directive. A target alone, or with nothing behind its equals sign, means everything.
Blanks before a target that has an equals sign are refused. -/
def parse? (text : List Char) : Option Directive :=
  match Text.trim text with
  | [] => none
  | first :: _ =>
    if !isStart first then none
    else
      match text.dropWhile (· != '=') with
      | [] =>
        match Level.ofText? text with
        | some level => some { target := none, level }
        | none => some { target := some (String.ofList text), level := .trace }
      | _ :: level =>
        if text.head?.any Text.isBlank then none
        else
          let target := some (String.ofList (text.takeWhile (· != '=')))
          if level.isEmpty then some { target, level := .trace }
          else (Level.ofText? level).map fun level => { target, level }

def text (directive : Directive) : String :=
  match directive.target with
  | some target => target ++ "=" ++ directive.level.word
  | none => directive.level.word

/-- The order of targets in a filter: longer ones first, equally long ones from the last to the
first in the order of their characters, and no target last. -/
def before : Option String → Option String → Bool
  | some a, some b =>
    b.utf8ByteSize < a.utf8ByteSize || (a.utf8ByteSize == b.utf8ByteSize && b < a)
  | some _, none => true
  | none, _ => false

end Directive

/-- A log filter: its directives in the order of their targets. -/
structure LevelFilter where
  directives : List Directive
deriving DecidableEq, Repr, Inhabited

namespace LevelFilter

/-- Puts a directive in its place. It replaces one with the same target. -/
def insertInto (directive : Directive) : List Directive → List Directive
  | [] => [directive]
  | other :: others =>
    if directive.target = other.target then directive :: others
    else if Directive.before directive.target other.target then directive :: other :: others
    else other :: insertInto directive others

/-- The filter of some directives, later ones replacing earlier ones. -/
def ofDirectives (directives : List Directive) : LevelFilter :=
  ⟨directives.foldl (fun sorted directive => insertInto directive sorted) []⟩

/-- Reads the directives between commas, passing over empty ones. -/
def parse? (text : String) : Option LevelFilter :=
  let pieces := (Text.splitAt ',' text.toList).filter fun piece => !piece.isEmpty
  (pieces.mapM Directive.parse?).map ofDirectives

/-- The filter for one level. -/
def plain (level : Level) : LevelFilter := ⟨[{ target := none, level }]⟩

def text (filter : LevelFilter) : String :=
  ",".intercalate (filter.directives.map Directive.text)

end LevelFilter

end CodeAssist
