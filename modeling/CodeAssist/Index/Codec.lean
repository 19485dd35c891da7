import CodeAssist.Index.Fact
import CodeAssist.Json.Draft
import CodeAssist.Json.Printer
/-!
# Snapshots as JSON

Snapshots are written as JSON objects with all their fields, and read back from objects in which
most fields may be missing and unknown ones are passed over, or from arrays of the fields in order.
A text is read from left to right, and the fault reported is the first one met.
-/

namespace CodeAssist

open Json (Fault Draft)

/-! ## Writing -/

namespace TypeFact

def toJson (fact : TypeFact) : Json :=
  .object
    [("package", .string fact.package.dotted),
     ("enclosing_types", .strings fact.enclosing),
     ("simple_name", .string fact.simpleName),
     ("modifiers", .nat fact.modifiers.bits.toNat),
     ("kind", .string fact.kind.word),
     ("access", .string fact.access.word)]

end TypeFact

namespace ConstructorFact

def toJson (fact : ConstructorFact) : Json :=
  .object
    [("declaring", fact.declaring.toJson),
     ("params", .strings fact.parameters),
     ("param_names", .strings fact.parameterNames),
     ("modifiers", .nat fact.modifiers.bits.toNat),
     ("access", .string fact.access.word)]

end ConstructorFact

namespace Snapshot

def toJson (snapshot : Snapshot) : Json :=
  .object
    [("types", .array (snapshot.types.map TypeFact.toJson)),
     ("constructors", .array (snapshot.constructors.map ConstructorFact.toJson)),
     ("packages", .strings (snapshot.packages.map QualifiedName.dotted))]

/-- The text of a snapshot. -/
def toText (snapshot : Snapshot) : String := snapshot.toJson.pretty

end Snapshot

/-! ## Reading -/

namespace Json.Draft

/-- Reads a string. -/
def readString : Draft → Except Fault String
  | .string value => value
  | draft => .error draft.mismatch

/-- Reads a dotted name. -/
def readName (draft : Draft) : Except Fault QualifiedName :=
  draft.readString.map QualifiedName.ofDotted

/-- Reads a set of modifiers: an integer of 16 bits. -/
def readModifiers : Draft → Except Fault Modifiers
  | .number (.ok (.integer value)) =>
    if 0 ≤ value ∧ value < 65536 then .ok ⟨value.toNat.toUInt16⟩ else .error .shape
  | draft => .error draft.mismatch

/-- Reads items one after the other, then whatever kept the array from being closed. -/
def readItems (read : Draft → Except Fault α) (stop : Option Fault) :
    List Draft → Except Fault (List α)
  | [] =>
    match stop with
    | none => .ok []
    | some fault => .error fault
  | item :: items => do
    let first ← read item
    let rest ← readItems read stop items
    return first :: rest

/-- Reads an array. -/
def readList (read : Draft → Except Fault α) : Draft → Except Fault (List α)
  | .array items stop => readItems read stop items
  | draft => .error draft.mismatch

/-- Reads one of several words. A word may also be written as an object with the word as its only
name and nothing as its value. A value that begins neither as a string nor as an object is out of
place, whether it is spelled to its end or not, and so is whatever follows the value in such an
object. -/
def readWord (ofWord? : String → Option α) : Draft → Except Fault α
  | .string word => do
    match ofWord? (← word) with
    | some value => .ok value
    | none => .error .shape
  | .object ((name, value) :: members) stop => do
    match ofWord? (← name) with
    | none => .error .shape
    | some word =>
      match value with
      | .null =>
        if !members.isEmpty then .error .grammar
        else
          match stop with
          | none => .ok word
          | some fault => .error fault
      | value => .error value.mismatch
  | .broken read _ => .error read
  | _ => .error .grammar

/-- How the fields of a record are read: a name and a way to store a value that has been read. -/
structure FieldReader (σ : Type) where
  name : String
  read : σ → Draft → Except Fault σ

/-- Reads the members of an object into a record. A known name may come once; an unknown one is
passed over. `seen` holds the known names met so far. -/
def readMembers (fields : List (FieldReader σ)) (stop : Option Fault) :
    σ → List String → List (Except Fault String × Draft) → Except Fault (σ × List String)
  | state, seen, [] =>
    match stop with
    | none => .ok (state, seen)
    | some fault => .error fault
  | state, seen, (name, value) :: members => do
    let name ← name
    match fields.find? fun field => field.name == name with
    | none =>
      value.skip
      readMembers fields stop state seen members
    | some field =>
      if seen.contains name then .error .shape
      else
        let state ← field.read state value
        readMembers fields stop state (name :: seen) members

/-- Reads the items of an array as the fields of a record, in order. More items than fields are out
of place. The result says which fields were there. -/
def readPositions (stop : Option Fault) :
    List (FieldReader σ) → σ → List String → List Draft → Except Fault (σ × List String)
  | [], state, seen, [] =>
    match stop with
    | none => .ok (state, seen)
    | some fault => .error fault
  | [], _, _, _ :: _ => .error .grammar
  | _ :: _, state, seen, [] =>
    match stop with
    | none => .ok (state, seen)
    | some fault => .error fault
  | field :: fields, state, seen, item :: items => do
    let state ← field.read state item
    readPositions stop fields state (field.name :: seen) items

/-- Reads a record from an object or an array. The fields named in `required` have to be there. -/
def readRecord (fields : List (FieldReader σ)) (required : List String) (start : σ)
    (draft : Draft) : Except Fault σ := do
  let (state, seen) ←
    match draft with
    | .object members stop => readMembers fields stop start [] members
    | .array items stop => readPositions stop fields start [] items
    | draft => .error draft.mismatch
  if required.all seen.contains then return state else throw .shape

end Json.Draft

namespace TypeFact

open Json.Draft

/-- The fields of a type fact. -/
def fields : List (FieldReader TypeFact) :=
  [⟨"package", fun fact draft => return { fact with package := ← draft.readName }⟩,
   ⟨"enclosing_types", fun fact draft =>
      return { fact with enclosing := ← draft.readList readString }⟩,
   ⟨"simple_name", fun fact draft => return { fact with simpleName := ← draft.readString }⟩,
   ⟨"modifiers", fun fact draft => return { fact with modifiers := ← draft.readModifiers }⟩,
   ⟨"kind", fun fact draft => return { fact with kind := ← draft.readWord ClassKind.ofWord? }⟩,
   ⟨"access", fun fact draft => return { fact with access := ← draft.readWord Access.ofWord? }⟩]

/-- Reads a type fact. Only its simple name has to be there. -/
def read (draft : Draft) : Except Fault TypeFact :=
  draft.readRecord fields ["simple_name"] { simpleName := "" }

end TypeFact

namespace ConstructorFact

open Json.Draft

/-- The fields of a constructor fact. -/
def fields : List (FieldReader ConstructorFact) :=
  [⟨"declaring", fun fact draft => return { fact with declaring := ← TypeFact.read draft }⟩,
   ⟨"params", fun fact draft => return { fact with parameters := ← draft.readList readString }⟩,
   ⟨"param_names", fun fact draft =>
      return { fact with parameterNames := ← draft.readList readString }⟩,
   ⟨"modifiers", fun fact draft => return { fact with modifiers := ← draft.readModifiers }⟩,
   ⟨"access", fun fact draft => return { fact with access := ← draft.readWord Access.ofWord? }⟩]

/-- Reads a constructor fact. Only its declaring type has to be there. -/
def read (draft : Draft) : Except Fault ConstructorFact :=
  draft.readRecord fields ["declaring"] { declaring := { simpleName := "" } }

end ConstructorFact

namespace Snapshot

open Json.Draft

/-- The fields of a snapshot. -/
def fields : List (FieldReader Snapshot) :=
  [⟨"types", fun snapshot draft =>
      return { snapshot with types := ← draft.readList TypeFact.read }⟩,
   ⟨"constructors", fun snapshot draft =>
      return { snapshot with constructors := ← draft.readList ConstructorFact.read }⟩,
   ⟨"packages", fun snapshot draft =>
      return { snapshot with packages := ← draft.readList readName }⟩]

/-- Reads a snapshot. -/
def read (draft : Draft) : Except Fault Snapshot := draft.readRecord fields [] {}

/-- Reads the text of a snapshot. -/
def ofText (text : String) : Except Fault Snapshot := do
  let document := Json.scan text.toList
  let snapshot ← read document.value
  if document.trailing then throw .grammar else return snapshot

end Snapshot

end CodeAssist
