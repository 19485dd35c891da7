import CodeAssist.Class.Hierarchy
/-!
# Visibility

Whether a reference that stands in a package, inside a class, may name a member or a class, as the
language has it. This is apart from the workspace's access rules.
-/

namespace CodeAssist

/-- Where a reference stands: its package and the innermost class around it. -/
structure Viewpoint where
  package : QualifiedName := .empty
  within : Option ClassId := none
deriving DecidableEq, Repr, Inhabited

namespace Store

/-- How many classes around a class are looked at to find the outermost. -/
def nestingLimit : Nat := 64

/-- The class around a class, a number of steps out or as far as there is one. -/
def outward (store : Store) : Nat → ClassId → ClassId
  | 0, id => id
  | steps + 1, id =>
    match store.linked? ClassDef.enclosing id with
    | some outer => store.outward steps outer
    | none => id

/-- The outermost class around a class. -/
def outermost (store : Store) (id : ClassId) : ClassId := store.outward nestingLimit id

/-- Whether a member that a class declares with some modifiers may be named. Private members are
shared by all classes with the same outermost class, members without a modifier by the package, and
protected ones also by subclasses and the classes inside them. -/
def isMemberVisible (store : Store) (declaring : ClassId) (modifiers : Modifiers)
    (view : Viewpoint) : Bool :=
  if modifiers.isPublic then true
  else
    match store.class? declaring with
    | none => false
    | some definition =>
      if definition.isInterface && !modifiers.isPrivate then true
      else if modifiers.isPrivate then
        view.within.any fun id => store.outermost id == store.outermost declaring
      else if definition.package = view.package then true
      else if modifiers.isProtected then
        view.within.any fun id =>
          (store.enclosingChain id).any fun outer => store.isSubclass outer declaring
      else false

/-- Whether a class may be named as far as its own modifiers go: as a member of the class around it,
or in its package. -/
def isLinkVisible (store : Store) (view : Viewpoint) (id : ClassId) : Bool :=
  match store.class? id with
  | none => false
  | some definition =>
    match definition.enclosing with
    | none => definition.modifiers.isPublic || definition.package == view.package
    | some outer => store.isMemberVisible outer definition.modifiers view

/-- Whether a class may be named: it and every class around it. -/
def isClassVisible (store : Store) (id : ClassId) (view : Viewpoint) : Bool :=
  (store.enclosingChain id).all (store.isLinkVisible view)

/-! ## Asking from the inside outward -/

/-- Asks whether a class may be named, and if it may be as a member, goes on to ask of the class
around it. Nothing bounds the way outward, so it is followed for a number of calls; there is no
answer if that many do not return. -/
def askOutward (store : Store) (view : Viewpoint) : Nat → ClassId → Option Bool
  | 0, _ => none
  | calls + 1, id =>
    match store.class? id with
    | none => some false
    | some definition =>
      match definition.enclosing with
      | none => some (definition.modifiers.isPublic || definition.package == view.package)
      | some outer =>
        if store.isMemberVisible outer definition.modifiers view then
          store.askOutward view calls outer
        else some false

/-- The answer of the unbounded recursion, none if it does not return. A recursion that returns asks
of each stored class once at most, and then perhaps of a place where no class is. -/
def visibility? (store : Store) (id : ClassId) (view : Viewpoint) : Option Bool :=
  store.askOutward view (store.size + 1) id

end Store

end CodeAssist
