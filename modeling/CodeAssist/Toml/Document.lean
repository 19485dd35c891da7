import CodeAssist.Toml.Basic
/-!
# Building a document

A document comes as a sequence of headers and of keys with values, and grows into a tree of tables.
A table is opened by a header, implied by the header of a table inside it, or made by a dotted key;
what came to be in one of these ways may be extended only in some of the others, and nothing is
defined twice.
-/

namespace CodeAssist.Toml

/-- How a table came to be. -/
inductive Origin where
  | header
  | implied
  | dotted
deriving DecidableEq, Repr

/-- A table under construction, or a value in one. -/
inductive Node where
  | value (value : Toml)
  | table (origin : Origin) (members : List (String × Node))
  /-- Tables under repeated array headers; the last one is open. -/
  | tables (items : List (List (String × Node)))

/-- The members of a table under construction. -/
abbrev Members := List (String × Node)

namespace Members

/-- The member with a key. -/
def get? (members : Members) (key : String) : Option Node := members.lookup key

/-- Replaces the member with a key. -/
def set (members : Members) (key : String) (node : Node) : Members :=
  members.map fun member => if member.1 == key then (key, node) else member

/-- Takes out the member with a key. -/
def erase (members : Members) (key : String) : Members :=
  members.filter fun member => member.1 != key

/-- Changes the table that a path of headers leads to. Missing tables on the way are implied, and an
array of tables stands for its last one. -/
def atPath (change : Members → Option Members) : List String → Members → Option Members
  | [], members => change members
  | key :: path, members =>
    match get? members key with
    | none => do return members ++ [(key, .table .implied (← atPath change path []))]
    | some (.table origin inner) => do
      return set members key (.table origin (← atPath change path inner))
    | some (.tables items) =>
      match items.getLast? with
      | none => none
      | some last => do
        return set members key (.tables (items.dropLast ++ [← atPath change path last]))
    | some (.value _) => none

/-- Opens the table with a key for a header. A table that was only implied moves behind the
others. -/
def openTable (key : String) (members : Members) : Option Members :=
  match get? members key with
  | none => some (members ++ [(key, .table .header [])])
  | some (.table .implied inner) => some (erase members key ++ [(key, .table .header inner)])
  | _ => none

/-- Opens one more table of an array of tables. -/
def openItem (key : String) (members : Members) : Option Members :=
  match get? members key with
  | none => some (members ++ [(key, .tables [[]])])
  | some (.tables items) => some (set members key (.tables (items ++ [[]])))
  | _ => none

/-- Adds a value under a dotted key. The tables on the way must not have been opened by a header,
and the last of them must have been made by a dotted key. -/
def insert (value : Toml) (key : String) : List String → Members → Option Members
  | [], members =>
    match get? members key with
    | none => some (members ++ [(key, .value value)])
    | some _ => none
  | step :: path, members =>
    match get? members step with
    | none => do return members ++ [(step, .table .dotted (← insert value key path []))]
    | some (.table origin inner) =>
      if origin = .header ∨ (path.isEmpty ∧ origin ≠ .dotted) then none
      else do return set members step (.table origin (← insert value key path inner))
    | some (.tables items) =>
      match items.getLast? with
      | none => none
      | some last =>
        if path.isEmpty then none
        else do
          return set members step (.tables (items.dropLast ++ [← insert value key path last]))
    | some (.value _) => none

end Members

mutual

/-- A finished node as a value. -/
def Node.finish : Node → Toml
  | .value value => value
  | .table _ members => .table (finishMembers members)
  | .tables items => .array (finishTables items)

/-- The finished members of a table. -/
def finishMembers : List (String × Node) → List (String × Toml)
  | [] => []
  | (key, node) :: members => (key, node.finish) :: finishMembers members

/-- The finished tables of an array. -/
def finishTables : List (List (String × Node)) → List Toml
  | [] => []
  | members :: items => .table (finishMembers members) :: finishTables items

end

/-- A document under construction: its members and the header that is in force. -/
structure Draft where
  members : Members := []
  path : List String := []

namespace Draft

/-- Splits a path into the part before its last key and that key. -/
def splitLast : List String → Option (List String × String)
  | [] => none
  | path => do return (path.dropLast, ← path.getLast?)

/-- Puts the header of a table in force. -/
def header (draft : Draft) (path : List String) : Option Draft := do
  let (outer, key) ← splitLast path
  return { members := ← Members.atPath (Members.openTable key) outer draft.members, path }

/-- Puts the header of an array of tables in force. -/
def arrayHeader (draft : Draft) (path : List String) : Option Draft := do
  let (outer, key) ← splitLast path
  return { members := ← Members.atPath (Members.openItem key) outer draft.members, path }

/-- Adds a value under a dotted key to the table in force. -/
def assign (draft : Draft) (path : List String) (value : Toml) : Option Draft := do
  let (outer, key) ← splitLast path
  return { draft with
    members := ← Members.atPath (Members.insert value key outer) draft.path draft.members }

end Draft

end CodeAssist.Toml
