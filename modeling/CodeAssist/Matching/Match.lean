import CodeAssist.Matching.Pieces
import CodeAssist.Text.Utf8
/-!
# Matching a name

A pattern matches a name in one of five ways, from the strongest to the weakest: it is the name, it
begins the name, its segments begin humps of the name, it occurs in the name, or its words begin
words of the name. The first two are always looked for, the others are optional, and only the
strongest way that succeeds is reported. ASCII letters are compared without regard to case; whether
the case agreed as well is reported beside the way.
-/

namespace CodeAssist.Matching

/-- The ways in which a pattern can match a name. -/
inductive MatchKind where
  | subword
  | substring
  | camelCase
  | leading
  | exact
deriving DecidableEq, Repr

/-- The strength of a way to match, `0` for the weakest. -/
def MatchKind.rank : MatchKind → Nat
  | .subword => 0
  | .substring => 1
  | .camelCase => 2
  | .leading => 3
  | .exact => 4

/-- The word for a way to match. -/
def MatchKind.word : MatchKind → String
  | .subword => "subword"
  | .substring => "substring"
  | .camelCase => "camel_case"
  | .leading => "prefix"
  | .exact => "exact"

/-- The way to match with a given word. -/
def MatchKind.ofWord? (word : String) : Option MatchKind :=
  [MatchKind.subword, substring, camelCase, leading, exact].find? fun kind => kind.word == word

/-- How a name was matched. -/
structure NameMatch where
  kind : MatchKind
  /-- The matched bytes agree in case too. -/
  caseExact : Bool
deriving DecidableEq, Repr

/-- Matches are ranked by their kind first and by agreement in case second. -/
def NameMatch.rank (m : NameMatch) : Nat :=
  2 * m.kind.rank + if m.caseExact then 1 else 0

/-- The optional ways to match. -/
structure MatchOptions where
  camelCase : Bool := true
  substring : Bool := true
  subword : Bool := false
deriving DecidableEq, Repr, Inhabited

namespace MatchOptions

/-- Only the ways that are always on. -/
def leadingOnly : MatchOptions := ⟨false, false, false⟩

/-- Every way. -/
def all : MatchOptions := ⟨true, true, true⟩

end MatchOptions

/-- Whether one byte string begins another up to ASCII case. -/
def foldBegins : List UInt8 → List UInt8 → Bool
  | [], _ => true
  | _ :: _, [] => false
  | n :: needle, h :: hay => fold n == fold h && foldBegins needle hay

/-- Compares a needle with the start of a text: `none` if they differ, and otherwise whether they
agree in case. -/
def agreement (needle hay : List UInt8) : Option Bool :=
  if foldBegins needle hay then some (needle.isPrefixOf hay) else none

/-- Sends needles to pieces in order, each to the first remaining piece that it begins. The result
is whether all of them agreed in case. -/
def assign : List Piece → List Piece → Option Bool
  | [], _ => some true
  | _ :: _, [] => none
  | needle :: needles, piece :: pieces =>
    match agreement needle.bytes piece.bytes with
    | some exact => (assign needles pieces).map (exact && ·)
    | none => assign (needle :: needles) pieces

/-- The camel-case way: at least two segments, the first begins the first hump, and the others
begin later humps in order. -/
def camelCaseMatch (pattern candidate : List UInt8) : Option Bool :=
  match segments pattern, humps candidate with
  | first :: second :: others, hump :: later => do
    let exact ← agreement first.bytes hump.bytes
    let rest ← assign (second :: others) later
    return exact && rest
  | _, _ => none

/-- The substring way: the pattern occurs somewhere. An occurrence that agrees in case counts before
any other. -/
def substringMatch (pattern : List UInt8) (candidate : List UInt8) : Option Bool :=
  if occurs List.isPrefixOf candidate then some true
  else if occurs foldBegins candidate then some false
  else none
where
  /-- Whether the pattern begins some suffix of a text, by a comparison. -/
  occurs (begins : List UInt8 → List UInt8 → Bool) : List UInt8 → Bool
    | [] => begins pattern []
    | c :: rest => begins pattern (c :: rest) || occurs begins rest

/-- The subword way: the pattern has a word, and its words begin words of the candidate in order. -/
def subwordMatch (pattern candidate : List UInt8) : Option Bool :=
  match words pattern with
  | [] => none
  | needles => assign needles (words candidate)

/-- Matches bytes: the strongest enabled way that succeeds. The empty pattern begins every name. -/
def matchBytes (options : MatchOptions) (pattern candidate : List UInt8) : Option NameMatch :=
  if pattern.isEmpty then some ⟨.leading, true⟩
  else if pattern == candidate then some ⟨.exact, true⟩
  else
    (agreement pattern candidate).map (⟨.leading, ·⟩)
    <|> (if options.camelCase then (camelCaseMatch pattern candidate).map (⟨.camelCase, ·⟩)
         else none)
    <|> (if options.substring then (substringMatch pattern candidate).map (⟨.substring, ·⟩)
         else none)
    <|> (if options.subword then (subwordMatch pattern candidate).map (⟨.subword, ·⟩) else none)

/-- Matches a pattern against a candidate name. -/
def matchName (options : MatchOptions) (pattern candidate : String) : Option NameMatch :=
  matchBytes options (Text.bytesOf pattern) (Text.bytesOf candidate)

/-- Whether a pattern begins a name up to ASCII case. -/
def begins (pattern candidate : String) : Bool :=
  foldBegins (Text.bytesOf pattern) (Text.bytesOf candidate)

end CodeAssist.Matching
