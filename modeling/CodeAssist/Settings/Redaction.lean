import CodeAssist.Text.Identifier
import CodeAssist.Text.Split
/-!
# Redaction

Messages about a settings document end up in logs, so values that the user wrote are taken out of
them. Two passes do it: the first replaces every quotation, the second replaces what stands in
backticks behind the words that announce a value.
-/

namespace CodeAssist.Redaction

/-- What stands in place of a value. -/
def redacted : List Char := "<redacted>".toList

/-! ## Quotations -/

/-- The number of characters up to and including the closing quote, behind an opening one. A
backslash takes the next character with it, unless that is a line break. -/
def quotationLength? (quote : Char) : List Char → Option Nat
  | [] => none
  | '\\' :: c :: rest => if c = '\n' then none else (quotationLength? quote rest).map (· + 2)
  | c :: rest =>
    if c = quote then some 1
    else if c = '\\' then none
    else (quotationLength? quote rest).map (· + 1)

/-- Replaces quotations. The first argument counts the characters of a quotation that are still to
be passed over. -/
def replaceQuotations : Nat → List Char → List Char
  | _, [] => []
  | pending + 1, _ :: rest => replaceQuotations pending rest
  | 0, c :: rest =>
    if c = '"' ∨ c = '\'' then
      match quotationLength? c rest with
      | some length => redacted ++ replaceQuotations length rest
      | none => c :: replaceQuotations 0 rest
    else c :: replaceQuotations 0 rest

/-! ## Announced values -/

/-- Whether a character belongs to a word. -/
def isWordChar (c : Char) : Bool := c != '$' && Text.isIdentifierPart c

/-- The phrases that announce a value. Where the flag is set a word follows. -/
def announcements : List (List Char × Bool) :=
  [("unknown field".toList, false), ("unknown variant".toList, false),
   ("invalid type: ".toList, true), ("invalid value: ".toList, true)]

/-- The text of an announcement at the start of a text, up to the value, and what follows. -/
def announcement? (text : List Char) : Option (List Char × List Char) :=
  announcements.findSome? fun (phrase, hasWord) => do
    let rest ← Text.after? phrase text
    let word := if hasWord then rest.takeWhile isWordChar else []
    if hasWord ∧ word.isEmpty then none
    else
      let rest ← Text.after? [' ', '`'] (rest.drop word.length)
      return (phrase ++ word, rest)

/-- The announcement of a value at the start of a text, and the number of characters from there to
the end of the value. -/
def announced? (text : List Char) : Option (List Char × Nat) := do
  let (announcement, rest) ← announcement? text
  let value := rest.takeWhile (· != '`')
  if value.length < rest.length then
    return (announcement, announcement.length + 2 + value.length + 1)
  else none

/-- Replaces announced values. The first argument counts the characters that are still to be passed
over. -/
def replaceAnnounced : Nat → List Char → List Char
  | _, [] => []
  | pending + 1, _ :: rest => replaceAnnounced pending rest
  | 0, c :: rest =>
    match announced? (c :: rest) with
    | some (announcement, length) =>
      announcement ++ " `".toList ++ redacted ++ '`' :: replaceAnnounced (length - 1) rest
    | none => c :: replaceAnnounced 0 rest

/-- A message without the user's values. -/
def redact (message : String) : String :=
  String.ofList (replaceAnnounced 0 (replaceQuotations 0 message.toList))

end CodeAssist.Redaction
