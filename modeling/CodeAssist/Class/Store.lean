import CodeAssist.Class.Implicit
/-!
# The class store

Classes in the order in which they were added; a class is referred to by its place. Adding a class
completes it with what the language declares implicitly. A name that is added again leaves the
earlier class in place but is looked up as the later one.
-/

namespace CodeAssist

/-- The stored classes. -/
structure Store where
  classes : Array ClassDef := #[]
deriving DecidableEq, Repr, Inhabited

namespace Store

def size (store : Store) : Nat := store.classes.size

def isEmpty (store : Store) : Bool := store.classes.isEmpty

/-- The class at a place. -/
def class? (store : Store) (id : ClassId) : Option ClassDef := store.classes[id]?

/-- The ids of the stored classes. -/
def ids (store : Store) : List ClassId := List.range store.size

/-- The dotted name of the class at a place. -/
def name? (store : Store) (id : ClassId) : Option QualifiedName := (store.class? id).map (·.name)

/-- The latest class whose dotted name is the text. -/
def named? (store : Store) (dotted : String) : Option ClassId :=
  store.ids.reverse.find? fun id => (store.name? id).any fun name => name.dotted == dotted

/-- Looks up a dotted name. A simple name that no class has is looked up in `java.lang`. -/
def lookup? (store : Store) (text : String) : Option ClassId :=
  match store.named? text with
  | some id => some id
  | none => if text.toList.contains '.' then none else store.named? ("java.lang." ++ text)

/-- Replaces the class at a place. -/
def modify (store : Store) (id : ClassId) (change : ClassDef → ClassDef) : Store :=
  ⟨store.classes.modify id change⟩

/-- Completes a class that is to be stored at a place. The very first class has no default
superclass. -/
def complete (store : Store) (id : ClassId) (definition : ClassDef) : ClassDef :=
  (if store.isEmpty then definition else definition.completeSuperclass id).completeMembers id

/-- Records a class as a member of another. -/
def addMemberType (id : ClassId) (outer : ClassDef) : ClassDef :=
  if outer.memberTypes.contains id then outer
  else { outer with memberTypes := outer.memberTypes ++ [id] }

/-- Adds a class and says where it is stored. -/
def add (store : Store) (definition : ClassDef) : Store × ClassId :=
  let id := store.size
  let linked :=
    match definition.enclosing with
    | some outer => store.modify outer (addMemberType id)
    | none => store
  (⟨linked.classes.push (store.complete id definition)⟩, id)

/-- A class made a member of another: it takes the outer class's package and the outer name before
its own simple name. Members of interfaces are public and static, and every member but a plain class
is static. -/
def asMember (store : Store) (outer : ClassId) (definition : ClassDef) : ClassDef :=
  let placed : ClassDef :=
    match store.class? outer with
    | none => definition
    | some outerDef =>
      { definition with
        name := outerDef.name.child definition.simpleName
        package := outerDef.package
        modifiers :=
          if outerDef.isInterface then definition.modifiers ||| .public ||| .static
          else definition.modifiers }
  { placed with
    modifiers := if definition.kind = .class then placed.modifiers else placed.modifiers ||| .static
    enclosing := some outer }

/-- Adds a class as a member of another. -/
def addMember (store : Store) (outer : ClassId) (definition : ClassDef) : Store × ClassId :=
  store.add (store.asMember outer definition)

/-- Adds several classes one after the other. -/
def addAll (store : Store) (definitions : List ClassDef) : Store :=
  definitions.foldl (fun store definition => (store.add definition).1) store

/-! ## Members by place -/

def field? (store : Store) (id : ClassId) (index : Nat) : Option Field := do
  (← store.class? id).fields[index]?

def method? (store : Store) (id : ClassId) (index : Nat) : Option Method := do
  (← store.class? id).methods[index]?

def constructor? (store : Store) (id : ClassId) (index : Nat) : Option Constructor := do
  (← store.class? id).constructors[index]?

end Store

end CodeAssist
