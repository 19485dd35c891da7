import CodeAssist.Decimal.Estimate
import CodeAssist.Json.Basic
import CodeAssist.Text.Utf8
/-!
# Reading JSON from left to right

A text is read into a `Draft`: the value it spells as far as it can be followed. Reading stops at
the first place where the text leaves the grammar, and the draft holds what came before together
with the *fault* met there. Whoever then looks into the draft for data of a certain shape meets
faults and mismatches in the order of the text, so the first thing wrong with a text is the first
thing that its reader trips over.

A value that nobody looks into is only skipped, and skipping is more lenient than reading in three
respects: half of a surrogate pair and a number too large for a double are let pass, and a number
cut off by the end of the text counts as misspelt rather than as cut off. A draft records both
views.
-/

namespace CodeAssist.Json

/-- What can be wrong with a text. -/
inductive Fault where
  /-- The text leaves the grammar. -/
  | grammar
  /-- The text stops too early. -/
  | ending
  /-- The text spells a value of another shape than is asked for. -/
  | shape
deriving DecidableEq, Repr

/-- What has been read of a value. -/
inductive Draft where
  | null
  | bool (value : Bool)
  /-- A number, or the fault of one that can only be skipped. -/
  | number (value : Except Fault Number)
  /-- A string, or the fault of one that can only be skipped. -/
  | string (value : Except Fault String)
  /-- The items read, and the fault that kept the array from being closed. -/
  | array (items : List Draft) (stop : Option Fault)
  /-- The members read, and the fault that kept the object from being closed. -/
  | object (members : List (Except Fault String × Draft)) (stop : Option Fault)
  /-- A word or a number that is not spelled to its end: the fault for a reader, and the fault for
  someone who skips. -/
  | fragment (read skipped : Fault)
  /-- No value, or a string without an end: the fault for a reader, and the fault for someone who
  skips. -/
  | broken (read skipped : Fault)

/-! ## Lexemes -/

/-- The blanks of the grammar. -/
def isSpace (c : Char) : Bool := c == ' ' || c == '\n' || c == '\t' || c == '\r'

/-- The text without leading blanks. -/
def skipSpace (text : List Char) : List Char := text.dropWhile isSpace

/-- The value of a hexadecimal digit. -/
def hexValue? (c : Char) : Option Nat :=
  if '0' ≤ c ∧ c ≤ '9' then some (c.toNat - '0'.toNat)
  else if 'a' ≤ c ∧ c ≤ 'f' then some (c.toNat - 'a'.toNat + 10)
  else if 'A' ≤ c ∧ c ≤ 'F' then some (c.toNat - 'A'.toNat + 10)
  else none

/-- The value of four hexadecimal digits. -/
def hexUnit? (a b c d : Char) : Option Nat := do
  return 4096 * (← hexValue? a) + 256 * (← hexValue? b) + 16 * (← hexValue? c) + (← hexValue? d)

/-- The fault of a text that does not begin with four hexadecimal digits. -/
def hexFault (text : List Char) : Fault :=
  if Text.byteLength text < 4 then .ending else .grammar

/-- The character that a letter after a backslash stands for. -/
def simpleEscape? : Char → Option Char
  | '"' => some '"'
  | '\\' => some '\\'
  | '/' => some '/'
  | 'b' => some '\x08'
  | 'f' => some '\x0c'
  | 'n' => some '\n'
  | 'r' => some '\r'
  | 't' => some '\t'
  | _ => none

/-- What a quoted string is written with: characters and 16-bit code units. -/
inductive StringUnit where
  | char (c : Char)
  | unit (code : Nat)
deriving DecidableEq, Repr

/-- Reads a string behind its opening quote: what it is written with, and either the text behind its
closing quote or the fault that hides the quote. -/
def scanString : List Char → List StringUnit × Except Fault (List Char)
  | [] => ([], .error .ending)
  | '"' :: rest => ([], .ok rest)
  | '\\' :: 'u' :: a :: b :: c :: d :: rest =>
    match hexUnit? a b c d with
    | none => ([], .error .grammar)
    | some code =>
      let (units, rest) := scanString rest
      (.unit code :: units, rest)
  | '\\' :: 'u' :: rest => ([], .error (hexFault rest))
  | ['\\'] => ([], .error .ending)
  | '\\' :: letter :: rest =>
    match simpleEscape? letter with
    | none => ([], .error .grammar)
    | some c =>
      let (units, rest) := scanString rest
      (.char c :: units, rest)
  | c :: rest =>
    if c.toNat < 0x20 then ([], .error .grammar)
    else
      let (units, rest) := scanString rest
      (.char c :: units, rest)

def isHighSurrogate (code : Nat) : Bool := 0xd800 ≤ code && code ≤ 0xdbff

def isLowSurrogate (code : Nat) : Bool := 0xdc00 ≤ code && code ≤ 0xdfff

/-- The characters that a string is written with. Code units have to form surrogate pairs; the
fault is the one met where the second half of a pair is missing, `stop` being what lies behind the
last unit. -/
def joinUnits (stop : Fault) : List StringUnit → Except Fault (List Char)
  | [] => .ok []
  | .char c :: units => (joinUnits stop units).map (c :: ·)
  | [.unit code] =>
    if isHighSurrogate code then .error stop
    else if isLowSurrogate code then .error .grammar
    else .ok [Char.ofNat code]
  | .unit code :: .unit low :: units =>
    if isHighSurrogate code then
      if isLowSurrogate low then
        (joinUnits stop units).map
          (Char.ofNat (0x10000 + 0x400 * (code - 0xd800) + (low - 0xdc00)) :: ·)
      else .error .grammar
    else if isLowSurrogate code then .error .grammar
    else (joinUnits stop (.unit low :: units)).map (Char.ofNat code :: ·)
  | .unit code :: .char c :: units =>
    if isHighSurrogate code || isLowSurrogate code then .error .grammar
    else (joinUnits stop (.char c :: units)).map (Char.ofNat code :: ·)

/-- Reads a quoted string behind its opening quote: the text, or the fault of one that can only be
skipped, and what follows. -/
def scanQuoted (text : List Char) :
    Except (Fault × Fault) (Except Fault String × List Char) :=
  match scanString text with
  | (units, .ok rest) => .ok ((joinUnits .grammar units).map String.ofList, rest)
  | (units, .error stop) =>
    match joinUnits stop units with
    | .ok _ => .error (stop, stop)
    | .error fault => .error (fault, stop)

/-- The value of a run of decimal digits. -/
def digitsValue (digits : List Char) : Nat :=
  digits.foldl (fun value c => 10 * value + (c.toNat - '0'.toNat)) 0

/-- The number spelled by an integer part, a fraction and an exponent. An integer literal of at most
64 bits is an integer; minus zero is not. A number whose double is estimated to be infinite leaves
the grammar. -/
def numberOf (negative : Bool) (whole : List Char) (fraction exponent : Option (List Char))
    (exponentNegative : Bool) (literal : List Char) : Except Fault Number :=
  let value := digitsValue whole
  let isWhole := fraction.isNone && exponent.isNone
  if isWhole ∧ !negative ∧ value < 18446744073709551616 then .ok (.integer value)
  else if isWhole ∧ negative ∧ 0 < value ∧ value ≤ 9223372036854775808 then .ok (.integer (-value))
  else
    let size : Int := digitsValue (exponent.getD [])
    let decimal := (Decimal.leading 0 whole).withPlaces (fraction.getD [])
    let power := decimal.power + if exponentNegative then -size else size
    if Decimal.exceedsDouble { decimal with power } then .error .grammar
    else .ok (.other (String.ofList literal))

/-- The fault for a reader of a number after which digits are missing. -/
def digitsFault (rest : List Char) : Fault :=
  if rest.isEmpty then .ending else .grammar

/-- Reads the exponent of a number, behind its letter. -/
def scanExponent (negative : Bool) (whole : List Char) (fraction : Option (List Char))
    (start text : List Char) : Draft × List Char :=
  let (minus, text) :=
    match text with
    | '-' :: rest => (true, rest)
    | '+' :: rest => (false, rest)
    | text => (false, text)
  let digits := text.takeWhile Char.isDigit
  let rest := text.dropWhile Char.isDigit
  if digits.isEmpty then (.fragment (digitsFault text) .grammar, [])
  else
    (.number (numberOf negative whole fraction (some digits) minus
      (start.take (start.length - rest.length))), rest)

/-- Reads a number from its first digit on. -/
def scanUnsigned (negative : Bool) (start text : List Char) : Draft × List Char :=
  let whole := text.takeWhile Char.isDigit
  let rest := text.dropWhile Char.isDigit
  let finish (fraction : Option (List Char)) (rest : List Char) : Draft × List Char :=
    match rest with
    | 'e' :: rest => scanExponent negative whole fraction start rest
    | 'E' :: rest => scanExponent negative whole fraction start rest
    | rest =>
      (.number (numberOf negative whole fraction none false
        (start.take (start.length - rest.length))), rest)
  match whole with
  | [] => (.fragment (digitsFault rest) .grammar, [])
  | '0' :: _ :: _ => (.fragment .grammar .grammar, [])
  | _ =>
    match rest with
    | '.' :: rest =>
      let places := rest.takeWhile Char.isDigit
      let rest := rest.dropWhile Char.isDigit
      if places.isEmpty then (.fragment (digitsFault rest) .grammar, [])
      else finish (some places) rest
    | rest => finish none rest

/-- Reads the rest of a word of which the first letter has been seen. -/
def scanWord (value : Draft) : List Char → List Char → Draft × List Char
  | [], text => (value, text)
  | _ :: _, [] => (.fragment .ending .ending, [])
  | letter :: letters, c :: text =>
    if c = letter then scanWord value letters text else (.fragment .grammar .grammar, [])

/-! ## Values

A reader returns the draft of a value and the text behind it, and no text at all if reading
stopped inside the value. The first argument bounds the depth of recursion; the length of the text
is always enough. -/

mutual

/-- Whether reading went to the end of a value. -/
def Draft.isWhole : Draft → Bool
  | .array items stop => stop.isNone && Draft.allWhole items
  | .object members stop => stop.isNone && Draft.allMembersWhole members
  | .fragment _ _ => false
  | .broken _ _ => false
  | _ => true

/-- Whether reading went to the end of every item. -/
def Draft.allWhole : List Draft → Bool
  | [] => true
  | item :: items => item.isWhole && Draft.allWhole items

/-- Whether reading went to the end of every member. -/
def Draft.allMembersWhole : List (Except Fault String × Draft) → Bool
  | [] => true
  | (_, value) :: members => value.isWhole && Draft.allMembersWhole members

end

/-- A member that has no name. -/
def namelessMember (fault : Fault) : Except Fault String × Draft :=
  (.error fault, .broken fault fault)

mutual

/-- Reads a value, blanks before it included. -/
def scanValue : Nat → List Char → Draft × List Char
  | 0, _ => (.broken .ending .ending, [])
  | fuel + 1, text =>
    match skipSpace text with
    | [] => (.broken .ending .ending, [])
    | 'n' :: rest => scanWord .null ['u', 'l', 'l'] rest
    | 't' :: rest => scanWord (.bool true) ['r', 'u', 'e'] rest
    | 'f' :: rest => scanWord (.bool false) ['a', 'l', 's', 'e'] rest
    | '"' :: rest =>
      match scanQuoted rest with
      | .ok (value, rest) => (.string value, rest)
      | .error (read, skipped) => (.broken read skipped, [])
    | '[' :: rest =>
      match skipSpace rest with
      | [] => (.array [] (some .ending), [])
      | ']' :: rest => (.array [] none, rest)
      | rest =>
        let (items, stop, rest) := scanItems fuel rest
        (.array items stop, rest)
    | '\x7b' :: rest =>
      match skipSpace rest with
      | '\x7d' :: rest => (.object [] none, rest)
      | rest =>
        let (members, stop, rest) := scanMembers fuel rest
        (.object members stop, rest)
    | '-' :: rest => scanUnsigned true ('-' :: rest) rest
    | c :: rest =>
      if c.isDigit then scanUnsigned false (c :: rest) (c :: rest)
      else (.broken .grammar .grammar, [])

/-- Reads the items of an array from an item on, to its end. -/
def scanItems : Nat → List Char → List Draft × Option Fault × List Char
  | 0, _ => ([], some .ending, [])
  | fuel + 1, text =>
    let (item, rest) := scanValue fuel text
    if !item.isWhole then ([item], some .ending, [])
    else
      match skipSpace rest with
      | [] => ([item], some .ending, [])
      | ']' :: rest => ([item], none, rest)
      | ',' :: rest =>
        let (items, stop, rest) := scanItems fuel rest
        (item :: items, stop, rest)
      | _ => ([item], some .grammar, [])

/-- Reads the members of an object from a name on, to its end. -/
def scanMembers : Nat → List Char →
    List (Except Fault String × Draft) × Option Fault × List Char
  | 0, _ => ([], some .ending, [])
  | fuel + 1, text =>
    match skipSpace text with
    | [] => ([namelessMember .ending], some .ending, [])
    | '"' :: rest =>
      match scanQuoted rest with
      | .error (read, skipped) => ([(.error read, .broken read skipped)], some .ending, [])
      | .ok (name, rest) =>
        match skipSpace rest with
        | [] => ([(name, .broken .ending .ending)], some .ending, [])
        | ':' :: rest =>
          let (value, rest) := scanValue fuel rest
          if !value.isWhole then ([(name, value)], some .ending, [])
          else
            match skipSpace rest with
            | [] => ([(name, value)], some .ending, [])
            | '\x7d' :: rest => ([(name, value)], none, rest)
            | ',' :: rest =>
              let (members, stop, rest) := scanMembers fuel rest
              ((name, value) :: members, stop, rest)
            | _ => ([(name, value)], some .grammar, [])
        | _ => ([(name, .broken .grammar .grammar)], some .ending, [])
    | _ => ([namelessMember .grammar], some .grammar, [])

end

/-- A whole text: the draft of its value and whether anything but blanks follows. -/
structure Document where
  value : Draft
  trailing : Bool

/-- Reads a text. -/
def scan (text : List Char) : Document :=
  let (value, rest) := scanValue (2 * text.length + 2) text
  { value, trailing := !(skipSpace rest).isEmpty }

/-! ## Looking into a draft -/

mutual

/-- What someone who skips a value trips over. -/
def Draft.skip : Draft → Except Fault Unit
  | .array items stop => do
    Draft.skipItems items
    match stop with
    | none => pure ()
    | some fault => throw fault
  | .object members stop => do
    Draft.skipMembers members
    match stop with
    | none => pure ()
    | some fault => throw fault
  | .fragment _ skipped => .error skipped
  | .broken _ skipped => .error skipped
  | _ => .ok ()

/-- What someone who skips the items of an array trips over. -/
def Draft.skipItems : List Draft → Except Fault Unit
  | [] => .ok ()
  | item :: items => do
    item.skip
    Draft.skipItems items

/-- What someone who skips the members of an object trips over. -/
def Draft.skipMembers : List (Except Fault String × Draft) → Except Fault Unit
  | [] => .ok ()
  | (_, value) :: members => do
    value.skip
    Draft.skipMembers members

end

/-- The fault of a draft that has not the shape asked for. A word, number or string is read to its
end before its shape is judged; an array or object is judged by its opening bracket. -/
def Draft.mismatch : Draft → Fault
  | .fragment read _ => read
  | .broken read _ => read
  | .number (.error fault) => fault
  | .string (.error fault) => fault
  | _ => .shape

mutual

/-- A draft as a value, or the first fault in it. -/
def Draft.value : Draft → Except Fault Json
  | .null => .ok .null
  | .bool value => .ok (.bool value)
  | .number value => value.map .number
  | .string value => value.map .string
  | .array items stop => do
    let items ← Draft.values items
    match stop with
    | none => return .array items
    | some fault => throw fault
  | .object members stop => do
    let members ← Draft.memberValues members
    match stop with
    | none => return .object members
    | some fault => throw fault
  | .fragment read _ => .error read
  | .broken read _ => .error read

/-- The items of an array as values. -/
def Draft.values : List Draft → Except Fault (List Json)
  | [] => .ok []
  | item :: items => do return (← item.value) :: (← Draft.values items)

/-- The members of an object as values. -/
def Draft.memberValues :
    List (Except Fault String × Draft) → Except Fault (List (String × Json))
  | [] => .ok []
  | (name, value) :: members => do
    return (← name, ← value.value) :: (← Draft.memberValues members)

end

mutual

/-- A value as a draft in which nothing is wrong. -/
def draft : Json → Draft
  | .null => .null
  | .bool value => .bool value
  | .number value => .number (.ok value)
  | .string value => .string (.ok value)
  | .array items => .array (drafts items) none
  | .object members => .object (memberDrafts members) none

/-- Items as drafts. -/
def drafts : List Json → List Draft
  | [] => []
  | item :: items => draft item :: drafts items

/-- Members as drafts. -/
def memberDrafts : List (String × Json) → List (Except Fault String × Draft)
  | [] => []
  | (name, value) :: members => (.ok name, draft value) :: memberDrafts members

end

/-- The value that a text spells. -/
def parse (text : String) : Except Fault Json :=
  let document := scan text.toList
  match document.value.value with
  | .error fault => .error fault
  | .ok value => if document.trailing then .error .grammar else .ok value

end CodeAssist.Json
