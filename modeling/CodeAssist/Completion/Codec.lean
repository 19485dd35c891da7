import CodeAssist.Class.Codec
import CodeAssist.Completion.Run
/-!
# Requests and answers in words

The words for what a request can ask, and the form in which proposals are shown to clients.
-/

namespace CodeAssist.Completion

/-- The filter with a given word. -/
def TypeFilter.ofWord? : String → Option TypeFilter
  | "subtype" => some .subtype
  | "supertype" => some .supertype
  | "exact" => some .exact
  | _ => none

/-- The hint with a given word. -/
def KindHint.ofWord? : String → Option KindHint
  | "class" => some .class
  | "interface" => some .interface
  | "annotation" => some .annotationType
  | "exception" => some .exception
  | "enum" => some .enumeration
  | _ => none

/-- The kind of candidate with a given word. -/
def CandidateKind.ofWord? : String → Option CandidateKind
  | "field" => some .field
  | "method" => some .method
  | "constructor" => some .constructor
  | "type" => some .type
  | "package" => some .package
  | "module" => some .module
  | "label" => some .label
  | "keyword" => some .keyword
  | "local" => some .local
  | _ => none

/-- The word for a way to make an object. -/
def AllocationStyle.word : AllocationStyle → String
  | .direct => "direct"
  | .anonymous => "anonymous"

/-- The word for the state of a known type. -/
def ConstructorState.word : ConstructorState → String
  | .unknown => "unknown"
  | .known => "known"

/-- The answer of the known types. -/
def KnownTypes.Reply.toJson : KnownTypes.Reply → Json
  | .done => .null
  | .yesNo answer => .bool answer
  | .state found => Json.ofOption (fun constructors => .string constructors.word) found
  | .owner holder => Json.ofOption QualifiedName.toJson holder
  | .count number => .nat number

/-- The word for an outcome. -/
def Outcome.word : Outcome → String
  | .completed => "completed"
  | .cancelled => "cancelled"

namespace Proposal

/-- A proposal with all that is known of it. -/
def toJson (proposal : Proposal) : Json :=
  .object
    [("kind", .string proposal.kind.word), ("completion", .string proposal.completion),
     ("name", .string proposal.name),
     ("replace", .array [.nat proposal.range.start, .nat proposal.range.stop]),
     ("relevance", .nat proposal.relevance),
     ("declaring", Json.ofOption .string proposal.declaring),
     ("signature", Json.ofOption .string proposal.signature), ("key", .string proposal.key),
     ("modifiers", proposal.modifiers.toJson), ("access", .string proposal.access.word),
     ("qualification", Json.ofOption .string proposal.qualification),
     ("required_import", Json.ofOption .string proposal.requiredImport),
     ("allocation", Json.ofOption (fun style => .string style.word) proposal.allocation),
     ("missing", .bool proposal.missing), ("qualified", .bool proposal.isQualified)]

/-- A proposal by its kind, its text and its relevance. -/
def toBriefJson (proposal : Proposal) : Json :=
  .array
    [.string proposal.kind.word, .string proposal.completion, .nat proposal.relevance]

end Proposal

/-- A tally by the words for its reasons. -/
def Tally.toJson (tally : Tally) : Json :=
  .object
    [("name_mismatch", .nat tally.nameMismatch), ("invisible", .nat tally.invisible),
     ("forbidden_reference", .nat tally.forbiddenReference),
     ("discouraged_reference", .nat tally.discouragedReference),
     ("deprecated", .nat tally.deprecated), ("static_context", .nat tally.staticContext),
     ("duplicate", .nat tally.duplicate), ("ignored_kind", .nat tally.ignoredKind)]

/-- Why a request came to nothing. -/
def Failure.toJson (failure : Failure) : Json :=
  .object
    [("token", .string failure.token), ("site", .string failure.site.tag),
     ("filtered", failure.rejections.toJson), ("total", .nat failure.rejections.total)]

/-- What a request came to; proposals are shown in full or in brief. -/
def Answer.toJson (answer : Answer) (brief : Bool) : Json :=
  .object
    [("outcome", .string answer.outcome.word), ("emitted", .nat answer.emitted),
     ("bracketed", .bool answer.isBracketed),
     ("proposals", .array (answer.proposals.map
       (if brief then Proposal.toBriefJson else Proposal.toJson))),
     ("sorted", .strings (answer.ranked.map Proposal.completion)),
     ("failure", Json.ofOption Failure.toJson answer.failure?)]

end CodeAssist.Completion
