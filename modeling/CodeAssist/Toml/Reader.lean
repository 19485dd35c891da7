import CodeAssist.Text.Split
import CodeAssist.Toml.Document
/-!
# Reading TOML

Reads the text of a document into its members. A text that is no document is refused without a
reason, because nobody asks for one.
-/

namespace CodeAssist.Toml

/-! ## Blanks and lines -/

def isBlank (c : Char) : Bool := c == ' ' || c == '\t'

def skipBlanks (text : List Char) : List Char := text.dropWhile isBlank

/-- Whether a character may stand in a comment or in a literal string. -/
def isPlain (c : Char) : Bool := c == '\t' || (0x20 ≤ c.toNat && c.toNat != 0x7f)

/-- What follows a line break at the start of a text. -/
def newline? : List Char → Option (List Char)
  | '\n' :: rest => some rest
  | '\r' :: '\n' :: rest => some rest
  | _ => none

/-- What follows a comment, if the text begins with one. -/
def skipComment : List Char → List Char
  | '#' :: rest => rest.dropWhile isPlain
  | text => text

/-- What follows the blanks, the comment and the line break at the end of a line. -/
def lineEnd (text : List Char) : Option (List Char) :=
  match skipComment (skipBlanks text) with
  | [] => some []
  | rest => newline? rest

/-- The text without leading blanks, comments and line breaks. The first argument bounds the number
of lines. -/
def skipLines : Nat → List Char → List Char
  | 0, text => text
  | lines + 1, text =>
    match newline? (skipComment (skipBlanks text)) with
    | some rest => skipLines lines rest
    | none =>
      let rest := skipBlanks text
      match rest with
      | '#' :: _ => skipComment rest
      | _ => rest

/-! ## Strings -/

def hexDigit? (c : Char) : Option Nat :=
  if '0' ≤ c ∧ c ≤ '9' then some (c.toNat - '0'.toNat)
  else if 'a' ≤ c ∧ c ≤ 'f' then some (c.toNat - 'a'.toNat + 10)
  else if 'A' ≤ c ∧ c ≤ 'F' then some (c.toNat - 'A'.toNat + 10)
  else none

/-- The value of digits in a base. -/
def valueIn (base : Nat) (digit? : Char → Option Nat) (digits : List Char) : Option Nat :=
  digits.foldlM (fun value c => return base * value + (← digit? c)) 0

/-- The character with a hexadecimal code. -/
def codePoint? (digits : List Char) : Option Char := do
  let code ← valueIn 16 hexDigit? digits
  if code < 0xd800 ∨ (0xdfff < code ∧ code < 0x110000) then some (Char.ofNat code) else none

/-- The character that a letter after a backslash stands for. -/
def escape? : Char → Option Char
  | 'b' => some '\x08'
  | 't' => some '\t'
  | 'n' => some '\n'
  | 'f' => some '\x0c'
  | 'r' => some '\r'
  | '"' => some '"'
  | '\\' => some '\\'
  | _ => none

/-- Puts a character in front of a text that was read. -/
def consRead (c : Char) (read : Option (List Char × List Char)) : Option (List Char × List Char) :=
  read.map fun (text, rest) => (c :: text, rest)

/-- Reads an escape, behind its backslash. -/
def readEscape : List Char → Option (Char × List Char)
  | 'u' :: rest => do
    if (rest.take 4).length = 4 then return (← codePoint? (rest.take 4), rest.drop 4) else none
  | 'U' :: rest => do
    if (rest.take 8).length = 8 then return (← codePoint? (rest.take 8), rest.drop 8) else none
  | letter :: rest => do return (← escape? letter, rest)
  | [] => none

/-- Reads a string in double quotes, behind its opening quote. The first argument bounds the number
of characters. -/
def readBasic : Nat → List Char → Option (List Char × List Char)
  | 0, _ => none
  | _, [] => none
  | _, '"' :: rest => some ([], rest)
  | fuel + 1, '\\' :: rest =>
    match readEscape rest with
    | some (char, rest) => consRead char (readBasic fuel rest)
    | none => none
  | fuel + 1, c :: rest => if isPlain c then consRead c (readBasic fuel rest) else none

/-- Reads a string in single quotes, behind its opening quote. -/
def readLiteral : List Char → Option (List Char × List Char)
  | [] => none
  | '\'' :: rest => some ([], rest)
  | c :: rest => if isPlain c then consRead c (readLiteral rest) else none

/-- What follows the blanks and the line breaks at the start of a text. -/
def skipBlankLines : List Char → List Char
  | '\n' :: rest => skipBlankLines rest
  | '\r' :: '\n' :: rest => skipBlankLines rest
  | c :: rest => if isBlank c then skipBlankLines rest else c :: rest
  | [] => []

/-- What follows a backslash at the end of a line: the next text behind blanks and line breaks. -/
def continueLine? (text : List Char) : Option (List Char) :=
  (newline? (skipBlanks text)).map skipBlankLines

/-- Reads a string in three double quotes, behind its opening quotes. Up to two quotes may stand
before the closing ones. The first argument bounds the number of characters. -/
def readBasicLines : Nat → List Char → Option (List Char × List Char)
  | 0, _ => none
  | _, [] => none
  | _, '"' :: '"' :: '"' :: rest =>
    match rest with
    | '"' :: '"' :: rest => some (['"', '"'], rest)
    | '"' :: rest => some (['"'], rest)
    | rest => some ([], rest)
  | fuel + 1, '\r' :: '\n' :: rest => consRead '\n' (readBasicLines fuel rest)
  | fuel + 1, '\n' :: rest => consRead '\n' (readBasicLines fuel rest)
  | fuel + 1, '\\' :: rest =>
    match readEscape rest with
    | some (char, rest) => consRead char (readBasicLines fuel rest)
    | none =>
      match continueLine? rest with
      | some rest => readBasicLines fuel rest
      | none => none
  | fuel + 1, c :: rest => if isPlain c then consRead c (readBasicLines fuel rest) else none

/-- Reads a string in three single quotes, behind its opening quotes. -/
def readLiteralLines : List Char → Option (List Char × List Char)
  | '\'' :: '\'' :: '\'' :: rest =>
    match rest with
    | '\'' :: '\'' :: rest => some (['\'', '\''], rest)
    | '\'' :: rest => some (['\''], rest)
    | rest => some ([], rest)
  | '\r' :: '\n' :: rest => consRead '\n' (readLiteralLines rest)
  | '\n' :: rest => consRead '\n' (readLiteralLines rest)
  | c :: rest => if isPlain c then consRead c (readLiteralLines rest) else none
  | [] => none

/-- A text without the line break at its start. -/
def dropNewline (text : List Char) : List Char := (newline? text).getD text

/-- Reads a string of any kind, from its opening quote on. -/
def readString : List Char → Option (List Char × List Char)
  | '"' :: '"' :: '"' :: rest => readBasicLines rest.length (dropNewline rest)
  | '"' :: rest => readBasic rest.length rest
  | '\'' :: '\'' :: '\'' :: rest => readLiteralLines (dropNewline rest)
  | '\'' :: rest => readLiteral rest
  | _ => none

/-! ## Keys -/

def isBareKey (c : Char) : Bool := c.isAlphanum || c == '_' || c == '-'

/-- Reads one segment of a key. -/
def readSegment : List Char → Option (String × List Char)
  | '"' :: rest => (readBasic rest.length rest).map fun (key, rest) => (String.ofList key, rest)
  | '\'' :: rest => (readLiteral rest).map fun (key, rest) => (String.ofList key, rest)
  | text =>
    match text.takeWhile isBareKey with
    | [] => none
    | key => some (String.ofList key, text.dropWhile isBareKey)

/-- The largest number of segments of a key, and of brackets that are open at once in a value. -/
def maxDepth : Nat := 79

/-- Reads a dotted key with the blanks around it. The first argument bounds the number of
segments. -/
def readKey : Nat → List Char → Option (List String × List Char)
  | 0, _ => none
  | segments + 1, text => do
    let (key, rest) ← readSegment (skipBlanks text)
    match skipBlanks rest with
    | '.' :: rest => do
      let (keys, rest) ← readKey segments rest
      return (key :: keys, rest)
    | rest => return ([key], rest)

/-! ## Numbers and dates -/

/-- The digits of a group with underscores between digits. -/
def groupedDigits? (isDigit : Char → Bool) : List Char → Option (List Char)
  | [] => none
  | [c] => if isDigit c then some [c] else none
  | c :: '_' :: rest =>
    if isDigit c then do return c :: (← groupedDigits? isDigit rest) else none
  | c :: rest => if isDigit c then do return c :: (← groupedDigits? isDigit rest) else none

/-- The value of a decimal digit. -/
def decimalDigit? (c : Char) : Option Nat :=
  if c.isDigit then some (c.toNat - '0'.toNat) else none

/-- Whether an integer has at most 64 bits. -/
def fits (value : Int) : Bool :=
  -(9223372036854775808 : Int) ≤ value && value < 9223372036854775808

/-- An integer in a base other than ten. -/
def basedInteger? (base : Nat) (isDigit : Char → Bool) (text : List Char) : Option Toml := do
  let digits ← groupedDigits? isDigit text
  let value ← valueIn base hexDigit? digits
  if fits value then some (.integer value) else none

/-- Decimal digits without needless leading zeros. -/
def wholeDigits? (text : List Char) : Option (List Char) := do
  match ← groupedDigits? Char.isDigit text with
  | '0' :: _ :: _ => none
  | digits => some digits

/-- Splits off a sign. -/
def splitSign : List Char → Bool × List Char
  | '-' :: rest => (true, rest)
  | '+' :: rest => (false, rest)
  | text => (false, text)

/-- An integer in decimal notation. -/
def decimalInteger? (text : List Char) : Option Toml := do
  let (negative, text) := splitSign text
  let digits ← wholeDigits? text
  let value ← valueIn 10 decimalDigit? digits
  let value : Int := if negative then -value else value
  if fits value then some (.integer value) else none

/-- Splits a text at the first character of a class. -/
def splitAtFirst (isMark : Char → Bool) (text : List Char) : List Char × Option (List Char) :=
  match text.dropWhile fun c => !isMark c with
  | [] => (text, none)
  | _ :: rest => (text.takeWhile fun c => !isMark c, some rest)

/-- A floating-point number in decimal notation. It has a fraction, an exponent or both. A number
too large for a double is refused, and one too far below zero is infinite. -/
def decimalFloat? (text : List Char) : Option Toml := do
  let (negative, text) := splitSign text
  let (mantissa, exponent) := splitAtFirst (fun c => c == 'e' || c == 'E') text
  let (whole, fraction) := splitAtFirst (· == '.') mantissa
  if fraction.isNone ∧ exponent.isNone then none
  else
    let whole ← wholeDigits? whole
    let places ←
      match fraction with
      | none => some []
      | some digits => groupedDigits? Char.isDigit digits
    let power ←
      match exponent with
      | none => some (0 : Int)
      | some digits => do
        let (minus, digits) := splitSign digits
        let value ← valueIn 10 decimalDigit? (← groupedDigits? Char.isDigit digits)
        some (if minus then -value else value)
    let digits ← valueIn 10 decimalDigit? (whole ++ places)
    match Double.ofDecimal? ⟨digits, power - places.length⟩ with
    | some magnitude => some (.float (.finite negative magnitude))
    | none => if negative then some (.float (.infinite true)) else none

/-- A floating-point value that is no number of its own. -/
def specialFloat? (text : List Char) : Option Toml :=
  let (negative, text) := splitSign text
  if text = "inf".toList then some (.float (.infinite negative))
  else if text = "nan".toList then some (.float .notANumber)
  else none

/-- The value of a fixed number of decimal digits at the start of a text. -/
def digitsAt (count : Nat) (text : List Char) : Option (Nat × List Char) := do
  let digits := text.take count
  if digits.length = count then return (← valueIn 10 decimalDigit? digits, text.drop count)
  else none

/-- The number of days of a month. -/
def daysIn (year month : Nat) : Nat :=
  if month = 2 then
    if year % 4 = 0 ∧ (year % 100 ≠ 0 ∨ year % 400 = 0) then 29 else 28
  else if month = 4 ∨ month = 6 ∨ month = 9 ∨ month = 11 then 30
  else 31

/-- What follows a date. -/
def skipDate (text : List Char) : Option (List Char) := do
  let (year, rest) ← digitsAt 4 text
  let rest ← Text.after? ['-'] rest
  let (month, rest) ← digitsAt 2 rest
  let rest ← Text.after? ['-'] rest
  let (day, rest) ← digitsAt 2 rest
  if 1 ≤ month ∧ month ≤ 12 ∧ 1 ≤ day ∧ day ≤ daysIn year month then some rest else none

/-- What follows a time of day. -/
def skipTime (text : List Char) : Option (List Char) := do
  let (hour, rest) ← digitsAt 2 text
  let rest ← Text.after? [':'] rest
  let (minute, rest) ← digitsAt 2 rest
  let rest ← Text.after? [':'] rest
  let (second, rest) ← digitsAt 2 rest
  if 23 < hour ∨ 59 < minute ∨ 60 < second then none
  else
    match rest with
    | '.' :: rest =>
      match rest.takeWhile Char.isDigit with
      | [] => none
      | _ => some (rest.dropWhile Char.isDigit)
    | rest => some rest

/-- What follows the offset of a time, if there is one. -/
def skipOffset (text : List Char) : Option (List Char) :=
  match text with
  | 'Z' :: rest => some rest
  | 'z' :: rest => some rest
  | c :: rest =>
    if c = '+' ∨ c = '-' then do
      let (hour, rest) ← digitsAt 2 rest
      let rest ← Text.after? [':'] rest
      let (minute, rest) ← digitsAt 2 rest
      if hour ≤ 23 ∧ minute ≤ 59 then some rest else none
    else some text
  | [] => some []

/-- Whether a text is a date, a time or both. -/
def isDateTime (text : List Char) : Bool :=
  match skipTime text with
  | some [] => true
  | _ =>
    match skipDate text with
    | some [] => true
    | some (mark :: rest) =>
      (mark == 'T' || mark == 't' || mark == ' ')
        && (((skipTime rest).bind skipOffset).any List.isEmpty)
    | none => false

/-- The value of a word: a truth value, a number or a date. -/
def wordValue? (text : List Char) : Option Toml :=
  if text = "true".toList then some (.boolean true)
  else if text = "false".toList then some (.boolean false)
  else
    (match text with
      | '0' :: 'x' :: digits => basedInteger? 16 (fun c => (hexDigit? c).isSome) digits
      | '0' :: 'o' :: digits => basedInteger? 8 (fun c => '0' ≤ c && c ≤ '7') digits
      | '0' :: 'b' :: digits => basedInteger? 2 (fun c => c == '0' || c == '1') digits
      | _ => none)
    <|> decimalInteger? text
    <|> decimalFloat? text
    <|> specialFloat? text
    <|> (if isDateTime text then some .dateTime else none)

/-- Whether a character may stand in a word. -/
def isWordChar (c : Char) : Bool :=
  c.isAlphanum || c == '+' || c == '-' || c == '_' || c == '.' || c == ':'

/-- Reads a word. A blank may stand between a date and a time. -/
def readWord (text : List Char) : Option (Toml × List Char) :=
  let word := text.takeWhile isWordChar
  let rest := text.dropWhile isWordChar
  let joined : Option (List Char × List Char) :=
    match skipDate word, rest with
    | some [], ' ' :: a :: b :: ':' :: more =>
      if a.isDigit && b.isDigit then
        let time := a :: b :: ':' :: more
        some (word ++ ' ' :: time.takeWhile isWordChar, time.dropWhile isWordChar)
      else none
    | _, _ => none
  let (word, rest) := joined.getD (word, rest)
  (wordValue? word).map (·, rest)

/-! ## Values -/

mutual

/-- Reads a value. The first argument bounds the depth of recursion; the length of the text is
enough. The second is the number of brackets that may still be opened. -/
def readValue : Nat → Nat → List Char → Option (Toml × List Char)
  | 0, _, _ => none
  | fuel + 1, room, text =>
    match text with
    | '"' :: _ => (readString text).map fun (value, rest) => (.string (String.ofList value), rest)
    | '\'' :: _ => (readString text).map fun (value, rest) => (.string (String.ofList value), rest)
    | '[' :: rest =>
      if room = 0 then none
      else (readItems fuel (room - 1) rest).map fun (items, rest) => (.array items, rest)
    | '\x7b' :: rest =>
      if room = 0 then none
      else
        match skipBlanks rest with
        | '\x7d' :: rest => some (.table [], rest)
        | rest =>
          (readMembers fuel (room - 1) [] rest).map fun (members, rest) =>
            (.table (finishMembers members), rest)
    | _ => readWord text

/-- Reads the items of an array up to its closing bracket. -/
def readItems : Nat → Nat → List Char → Option (List Toml × List Char)
  | 0, _, _ => none
  | fuel + 1, room, text =>
    match skipLines text.length text with
    | ']' :: rest => some ([], rest)
    | text => do
      let (item, rest) ← readValue fuel room text
      match skipLines rest.length rest with
      | ',' :: rest => do
        let (items, rest) ← readItems fuel room rest
        return (item :: items, rest)
      | ']' :: rest => return ([item], rest)
      | _ => none

/-- Reads the members of an inline table up to its closing brace. -/
def readMembers : Nat → Nat → Members → List Char → Option (Members × List Char)
  | 0, _, _, _ => none
  | fuel + 1, room, members, text => do
    let (path, rest) ← readKey maxDepth text
    let rest ← Text.after? ['='] rest
    let (value, rest) ← readValue fuel room (skipBlanks rest)
    let (outer, key) ← Draft.splitLast path
    let members ← Members.insert value key outer members
    match skipBlanks rest with
    | ',' :: rest => readMembers fuel room members rest
    | '\x7d' :: rest => return (members, rest)
    | _ => none

end

/-! ## Documents -/

/-- Reads the header of a table or of an array of tables, behind its first bracket. -/
def readHeader (draft : Draft) (text : List Char) : Option (Draft × List Char) :=
  match text with
  | '[' :: text => do
    let (path, rest) ← readKey maxDepth text
    let rest ← Text.after? [']', ']'] rest
    return (← draft.arrayHeader path, rest)
  | text => do
    let (path, rest) ← readKey maxDepth text
    let rest ← Text.after? [']'] rest
    return (← draft.header path, rest)

/-- Reads a key with its value. -/
def readAssignment (draft : Draft) (text : List Char) : Option (Draft × List Char) := do
  let (path, rest) ← readKey maxDepth text
  let rest ← Text.after? ['='] rest
  let (value, rest) ← readValue (2 * rest.length + 2) maxDepth (skipBlanks rest)
  return (← draft.assign path value, rest)

/-- Reads the lines of a document. The first argument bounds their number. -/
def readLines : Nat → Draft → List Char → Option Draft
  | 0, _, _ => none
  | lines + 1, draft, text =>
    match skipLines text.length text with
    | [] => some draft
    | '[' :: rest => do
      let (draft, rest) ← readHeader draft rest
      readLines lines draft (← lineEnd rest)
    | rest => do
      let (draft, rest) ← readAssignment draft rest
      readLines lines draft (← lineEnd rest)

/-- The members of the document that a text spells. A byte order mark may stand before it. -/
def parse (text : String) : Option (List (String × Toml)) :=
  let chars := text.toList
  let chars := (Text.after? ['\uFEFF'] chars).getD chars
  (readLines (chars.length + 1) {} chars).map fun draft => finishMembers draft.members

end CodeAssist.Toml
