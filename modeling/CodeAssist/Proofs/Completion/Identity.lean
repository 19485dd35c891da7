import CodeAssist.Proofs.Class.Lookup
import CodeAssist.Proofs.Completion.Allocations
import CodeAssist.Proofs.Completion.Words
import CodeAssist.Proofs.Index.Packages
/-!
# What a proposal is known by

A client knows a proposal by its kind, its declaring type and its key. No two proposals of a request
agree in all three, provided that keys tell things apart in the first place. They need not: a key
has the parameters of a method by the simple names of their classes, and two overloads can differ in
classes that have one simple name, as those of `onMain` do. `Store.PrintsApart` and
`Index.PrintsApart` say what is needed of the keys.

The rest is about the request: nothing is offered twice, by whatever ways it is reached. For members
that is `members_differ`, for words `words_walked`, and types are registered by their names.
-/

namespace CodeAssist

open Completion

/-- The text of a name below another tells the last segment. -/
theorem QualifiedName.dotted_child_inj {parent : QualifiedName} {first second : String}
    (same : (parent.child first).dotted = (parent.child second).dotted) : first = second := by
  obtain ⟨segments⟩ := parent
  simp only [child, dotted] at same
  induction segments with
  | nil => simpa using same
  | cons segment segments ih =>
    rw [List.cons_append, List.cons_append, String.intercalate_cons_of_ne_nil (by simp),
      String.intercalate_cons_of_ne_nil (by simp)] at same
    exact ih (by simpa using same)

/-- Where the items of all lists are shown in different ways, an item is found by how it is
shown. -/
theorem eq_of_nodup_flatMap {α β γ : Type} {lists : List γ} {items : γ → List α} {shown : γ → α → β}
    (different : (lists.flatMap fun list => (items list).map (shown list)).Nodup)
    {i j k l : Nat} {first second : γ} {x y : α} (hfirst : lists[i]? = some first)
    (hsecond : lists[j]? = some second) (hx : (items first)[k]? = some x)
    (hy : (items second)[l]? = some y) (same : shown first x = shown second y) :
    i = j ∧ k = l := by
  obtain ⟨inside, apart⟩ := List.nodup_flatMap.mp different
  have memX : shown first x ∈ (items first).map (shown first) :=
    List.mem_map_of_mem (List.mem_of_getElem? hx)
  have memY : shown second y ∈ (items second).map (shown second) :=
    List.mem_map_of_mem (List.mem_of_getElem? hy)
  obtain ⟨hi, rfl⟩ := List.getElem?_eq_some_iff.mp hfirst
  obtain ⟨hj, rfl⟩ := List.getElem?_eq_some_iff.mp hsecond
  rcases Nat.lt_trichotomy i j with less | rfl | less
  · exact (List.pairwise_iff_getElem.mp apart i j hi hj less memX (same ▸ memY)).elim
  · refine ⟨rfl, ?_⟩
    have shownX : ((items lists[i]).map (shown lists[i]))[k]? = some (shown lists[i] x) := by
      rw [List.getElem?_map, hx, Option.map_some]
    have shownY : ((items lists[i]).map (shown lists[i]))[l]? = some (shown lists[i] x) := by
      rw [List.getElem?_map, hy, Option.map_some, same]
    exact (List.getElem?_inj (List.getElem?_eq_some_iff.mp shownX).1
      (inside _ (List.getElem_mem hi))).mp (shownX.trans shownY.symm)
  · exact (List.pairwise_iff_getElem.mp apart j i hj hi less memY (same ▸ memX)).elim

/-! ## Keys that tell things apart -/

/-- Members of classes with one name have different keys, and so do the constructors of a class. -/
structure Store.PrintsApart (store : Store) : Prop where
  plain : store.PlainNames
  fields : (store.classes.toList.flatMap fun definition =>
    definition.fields.map fun field => (definition.name, field.name)).Nodup
  methods : (store.classes.toList.flatMap fun definition => definition.methods.map fun method =>
    (definition.name, method.name ++ Proposal.erasedList store method.parameters)).Nodup
  constructors : ∀ definition ∈ store.classes.toList,
    (definition.constructors.map fun constructor =>
      Proposal.erasedList store constructor.parameters).Nodup

instance (store : Store) : Decidable store.PrintsApart :=
  decidable_of_iff (store.PlainNames ∧ _ ∧ _ ∧ _)
    ⟨fun ⟨plain, fields, methods, constructors⟩ => ⟨plain, fields, methods, constructors⟩,
      fun prints => ⟨prints.plain, prints.fields, prints.methods, prints.constructors⟩⟩

/-- Constructors of types with one name have different keys. -/
structure Index.PrintsApart (index : Index) : Prop where
  types : ∀ fact ∈ index.types, fact.name.Plain
  declaring : ∀ constructor ∈ index.constructors, constructor.declaring.name.Plain
  constructors : (index.constructors.map fun constructor =>
    (constructor.declaring.name, ",".intercalate constructor.parameters)).Nodup

instance (index : Index) : Decidable index.PrintsApart :=
  decidable_of_iff (_ ∧ _ ∧ _)
    ⟨fun ⟨types, declaring, constructors⟩ => ⟨types, declaring, constructors⟩,
      fun prints => ⟨prints.types, prints.declaring, prints.constructors⟩⟩

namespace Completion.Session

variable {session : Session} {first second candidate : Candidate}

/-- The proposals of two candidates have one kind and one identity. -/
def Alike (session : Session) (first second : Candidate) : Prop :=
  (session.proposal first).kind = (session.proposal second).kind ∧
    (session.proposal first).identity = (session.proposal second).identity

namespace Alike

theorem kind (alike : session.Alike first second) : first.kind = second.kind := by
  have kinds : ProposalKind.ofCandidate first = ProposalKind.ofCandidate second := alike.1
  unfold ProposalKind.ofCandidate at kinds
  cases hfirst : first.kind <;> cases hsecond : second.kind <;> simp only [hfirst, hsecond] at kinds
    <;> first | rfl | (split at kinds <;> cases kinds) | cases kinds

theorem declaring (alike : session.Alike first second) :
    Proposal.declaringOf session.store first = Proposal.declaringOf session.store second :=
  congrArg Prod.fst alike.2

theorem key (alike : session.Alike first second) :
    Proposal.keyOf session.store first = Proposal.keyOf session.store second :=
  congrArg Prod.snd alike.2

end Alike

/-! ## Members -/

/-- A signed member is one of a stored class, or one of the two that arrays have. -/
theorem SignedBy.cases {signature : Signature} (signed : session.SignedBy candidate signature) :
    (∃ declaration, candidate.StandsFor session.store declaration) ∨
      candidate.symbol.owner? = none ∧ (signature = { name := "length", parameters := none } ∨
        signature = { name := "clone", parameters := some [] }) := by
  have symbol := signed.symbol
  cases held : candidate.symbol with
  | field ref =>
    rw [held, Store.signatureOf?, Option.map_eq_some_iff] at symbol
    obtain ⟨data, stored, rfl⟩ := symbol
    exact .inl ⟨.field ref data, stored, signed.kind, held, signed.name, by
      rw [signed.declaring, held]
      rfl⟩
  | method ref =>
    rw [held, Store.signatureOf?, Option.map_eq_some_iff] at symbol
    obtain ⟨data, stored, rfl⟩ := symbol
    exact .inl ⟨.method ref data, stored, signed.kind, held, signed.name, by
      rw [signed.declaring, held]
      rfl⟩
  | arrayLength =>
    rw [held] at symbol
    exact .inr ⟨rfl, .inl (Option.some.inj symbol).symm⟩
  | arrayClone array =>
    rw [held] at symbol
    exact .inr ⟨rfl, .inr (Option.some.inj symbol).symm⟩
  | _ => rw [held] at symbol; cases symbol

theorem declaringOf_of_isMember (member : candidate.isMember = true) :
    Proposal.declaringOf session.store candidate =
      (candidate.declaring.bind session.store.name?).map QualifiedName.dotted := by
  unfold Proposal.declaringOf
  split
  next kind => simp [Candidate.isMember, kind] at member
  next kind => simp [Candidate.isMember, kind] at member
  next => rfl

/-- Members whose proposals are alike have declaring classes of one name. -/
theorem classes_of_alike (prints : session.store.PrintsApart) {a b : Declaration}
    (ha : first.StandsFor session.store a) (hb : second.StandsFor session.store b)
    (alike : session.Alike first second) :
    ∃ classA classB, session.store.class? a.owner = some classA ∧
      session.store.class? b.owner = some classB ∧ classA.name = classB.name := by
  obtain ⟨classA, heldA⟩ := Option.isSome_iff_exists.mp (Declaration.class?_of_storedIn ha.stored)
  obtain ⟨classB, heldB⟩ := Option.isSome_iff_exists.mp (Declaration.class?_of_storedIn hb.stored)
  have nameA : session.store.name? a.owner = some classA.name := by
    rw [Store.name?, heldA, Option.map_some]
  have nameB : session.store.name? b.owner = some classB.name := by
    rw [Store.name?, heldB, Option.map_some]
  have declaring := alike.declaring
  rw [declaringOf_of_isMember ha.isMember, declaringOf_of_isMember hb.isMember, ha.declaring,
    hb.declaring, Option.bind_some, Option.bind_some, nameA, nameB, Option.map_some,
    Option.map_some, Option.some.injEq] at declaring
  obtain ⟨someA, plainA⟩ := prints.plain.of_name? nameA
  obtain ⟨someB, plainB⟩ := prints.plain.of_name? nameB
  exact ⟨classA, classB, heldA, heldB,
    QualifiedName.dotted_inj plainA plainB someA someB declaring⟩

/-- Members of stored classes are told apart by their keys. -/
theorem symbol_of_alike (prints : session.store.PrintsApart) {a b : Declaration}
    (ha : first.StandsFor session.store a) (hb : second.StandsFor session.store b)
    (alike : session.Alike first second) : first.symbol = second.symbol := by
  obtain ⟨classA, classB, heldA, heldB, names⟩ := classes_of_alike prints ha hb alike
  have placeA : session.store.classes.toList[a.owner]? = some classA := by
    rw [Array.getElem?_toList, ← Store.class?, heldA]
  have placeB : session.store.classes.toList[b.owner]? = some classB := by
    rw [Array.getElem?_toList, ← Store.class?, heldB]
  have storedA := ha.stored
  have storedB := hb.stored
  have kinds := alike.kind
  have keys := alike.key
  rw [ha.kind, hb.kind] at kinds
  rw [ha.symbol, hb.symbol]
  cases a with
  | field refA dataA =>
    cases b with
    | method refB dataB => cases kinds
    | field refB dataB =>
      simp only [Declaration.owner, Declaration.ref] at heldA heldB placeA placeB
      simp only [Declaration.StoredIn, Store.field?, heldA, heldB, Option.bind_eq_bind,
        Option.bind_some] at storedA storedB
      simp only [Proposal.keyOf, ha.symbol, hb.symbol, Declaration.symbol, ha.name, hb.name,
        Declaration.name] at keys
      obtain ⟨owners, indices⟩ := eq_of_nodup_flatMap prints.fields placeA placeB storedA storedB
        (by rw [names, keys])
      exact congrArg Symbol.field (congrArg₂ MemberRef.mk owners indices)
  | method refA dataA =>
    cases b with
    | field refB dataB => cases kinds
    | method refB dataB =>
      have methodA : session.store.methodAt? refA = some dataA := storedA
      have methodB : session.store.methodAt? refB = some dataB := storedB
      simp only [Declaration.owner, Declaration.ref] at heldA heldB placeA placeB
      simp only [Declaration.StoredIn, Store.method?, heldA, heldB, Option.bind_eq_bind,
        Option.bind_some] at storedA storedB
      simp only [Proposal.keyOf, ha.symbol, hb.symbol, Declaration.symbol, methodA, methodB] at keys
      obtain ⟨owners, indices⟩ := eq_of_nodup_flatMap prints.methods placeA placeB storedA storedB
        (by rw [names, keys])
      exact congrArg Symbol.method (congrArg₂ MemberRef.mk owners indices)

/-- The members that stay are told apart. -/
theorem not_alike_of_members (prints : session.store.PrintsApart) {a b : Signature}
    (ha : session.SignedBy first a) (hb : session.SignedBy second b)
    (apart : session.store.signature? first = session.store.signature? second →
      first.symbol ≠ second.symbol ∧ first.root? ≠ second.root?) :
    ¬ session.Alike first second := by
  intro alike
  have unnamed : ∀ {declaration : Declaration} {stored array : Candidate},
      stored.StandsFor session.store declaration → array.symbol.owner? = none →
      array.declaring = array.symbol.owner? → array.isMember = true →
      Proposal.declaringOf session.store stored ≠ Proposal.declaringOf session.store array := by
    intro declaration stored array standsFor unowned declaring member same
    obtain ⟨definition, held⟩ :=
      Option.isSome_iff_exists.mp (Declaration.class?_of_storedIn standsFor.stored)
    rw [declaringOf_of_isMember standsFor.isMember, declaringOf_of_isMember member,
      standsFor.declaring, declaring, unowned, Option.bind_some, Store.name?, held] at same
    cases same
  rcases ha.cases with ⟨declarationA, standsForA⟩ | ⟨unownedA, arrayA⟩
  · rcases hb.cases with ⟨declarationB, standsForB⟩ | ⟨unownedB, -⟩
    · have symbols := symbol_of_alike prints standsForA standsForB alike
      obtain rfl := ha.eq_of_symbol hb symbols
      exact (apart (ha.signed.trans hb.signed.symm)).1 symbols
    · exact unnamed standsForA unownedB hb.declaring hb.isMember alike.declaring
  · rcases hb.cases with ⟨declarationB, standsForB⟩ | ⟨unownedB, arrayB⟩
    · exact unnamed standsForB unownedA ha.declaring ha.isMember alike.declaring.symm
    · -- arrays have one field and one method, and both are found through no class
      have kinds := alike.kind
      rw [ha.kind, hb.kind] at kinds
      have signatures : a = b := by
        rcases arrayA with rfl | rfl <;> rcases arrayB with rfl | rfl <;>
          first | rfl | cases kinds
      refine (apart (by rw [ha.signed, hb.signed, signatures])).2 ?_
      rw [ha.rootless unownedA, hb.rootless unownedB]

/-! ## Types -/

/-- The candidate is a type or a constructor, and the name of the type is plain. -/
structure NamesType (session : Session) (candidate : Candidate) : Prop where
  kind : candidate.kind = .type ∨ candidate.kind = .constructor
  plain : ∃ name, session.store.typeName? candidate = some name ∧ name.segments ≠ [] ∧ name.Plain

theorem NamesType.inPlace {type : Candidate} (names : session.NamesType type)
    (stands : candidate.InPlaceOf session.store type) : session.NamesType candidate :=
  ⟨stands.kind, stands.name ▸ names.plain⟩

/-- Types of different names are told apart, by themselves or by their constructors. -/
theorem not_alike_of_names (ha : session.NamesType first) (hb : session.NamesType second)
    (differ : session.store.typeName? first ≠ session.store.typeName? second) :
    ¬ session.Alike first second := by
  intro alike
  have declaringOf : ∀ {candidate : Candidate}, session.NamesType candidate →
      Proposal.declaringOf session.store candidate =
        (session.store.typeName? candidate).map QualifiedName.dotted := by
    intro candidate names
    rcases names.kind with kind | kind <;> simp [Proposal.declaringOf, kind]
  obtain ⟨a, denotesA, someA, plainA⟩ := ha.plain
  obtain ⟨b, denotesB, someB, plainB⟩ := hb.plain
  have declaring := alike.declaring
  rw [declaringOf ha, declaringOf hb, denotesA, denotesB, Option.map_some, Option.map_some,
    Option.some.injEq] at declaring
  rw [denotesA, denotesB, QualifiedName.dotted_inj plainA plainB someA someB declaring] at differ
  exact differ rfl

/-- What stands in the place of types of different names is told apart, if it is for each type. -/
theorem flatMap_apart {α : Type} {things : List α} (type : α → Candidate)
    {block : α → List Candidate} (names : ∀ thing ∈ things, session.NamesType (type thing))
    (stands : ∀ thing ∈ things, ∀ candidate ∈ block thing,
      candidate.InPlaceOf session.store (type thing))
    (inside : ∀ thing ∈ things, (block thing).Pairwise fun first second =>
      ¬ session.Alike first second)
    (different : things.Pairwise fun thing other =>
      session.store.typeName? (type thing) ≠ session.store.typeName? (type other)) :
    (things.flatMap block).Pairwise fun first second => ¬ session.Alike first second := by
  refine List.pairwise_flatMap.mpr ⟨inside, different.imp_of_mem ?_⟩
  intro thing other hthing hother differ first hfirst second hsecond
  have standsFirst := stands thing hthing first hfirst
  have standsSecond := stands other hother second hsecond
  refine not_alike_of_names ((names thing hthing).inPlace standsFirst)
    ((names other hother).inPlace standsSecond) ?_
  rwa [standsFirst.name, standsSecond.name]

/-! ## The walk -/

theorem keyOf_of_isWord (word : candidate.symbol.isWord = true) :
    Proposal.keyOf session.store candidate = candidate.name := by
  unfold Proposal.keyOf
  cases symbol : candidate.symbol <;> simp_all [Symbol.isWord]

/-- What stays of a walk are members, types of stored classes, and words. -/
theorem walks_of_kept (mem : candidate ∈ session.kept) :
    candidate.isMember = true ∨
      (candidate.kind = .type ∧ ∃ id definition, candidate.symbol = .type id ∧
        session.store.class? id = some definition) ∨
      (candidate.kind.isWord = true ∧ candidate.symbol.isWord = true) := by
  obtain ⟨walked, hwalked, same⟩ := exists_walked_of_kept mem
  simp only [Candidate.profile, Prod.mk.injEq] at same
  rw [Candidate.isMember, same.1, same.2.1]
  cases session.words_walked.each walked hwalked with
  | member member => exact .inl member
  | type stored => exact .inr (.inl ⟨stored.kind, _, _, stored.symbol, stored.stored⟩)
  | word kind symbol => exact .inr (.inr ⟨kind, symbol⟩)

/-- The types of a walk are registered, whatever the site. -/
theorem registered_walk (session : Session) :
    session.Registered (session.known, session.kept) := by
  refine registered_of_stored fun candidate mem kind => ?_
  cases session.words_walked.each candidate mem with
  | member member => simp [Candidate.isMember, kind] at member
  | type stored => exact ⟨_, _, stored⟩
  | word word => simp [kind, CandidateKind.isWord] at word

/-- The types that stay have plain names, which are known. -/
theorem namesType_of_kept (prints : session.store.PrintsApart) (mem : candidate ∈ session.kept)
    (kind : candidate.kind = .type) :
    session.NamesType candidate ∧ ∀ name, session.store.typeName? candidate = some name →
      session.known.contains name = true := by
  rcases walks_of_kept mem with member | ⟨-, id, definition, symbol, stored⟩ | ⟨word, -⟩
  · simp [Candidate.isMember, kind] at member
  · have named : session.store.name? id = some definition.name := by
      rw [Store.name?, stored, Option.map_some]
    refine ⟨⟨.inl kind, definition.name, ?_, prints.plain.of_name? named⟩, ?_⟩
    · rw [Store.typeName?, symbol]
      exact named
    · exact session.registered_walk.known candidate
        (List.mem_filter.mpr ⟨mem, by simpa using kind⟩)
  · simp [kind, CandidateKind.isWord] at word

theorem types_differ (session : Session) : session.kept.Pairwise fun first second =>
    first.kind = .type → second.kind = .type →
      session.store.typeName? first ≠ session.store.typeName? second := by
  have types := session.registered_walk.names.distinct
  rw [List.Nodup, List.pairwise_map, typesOf, List.pairwise_filter] at types
  exact types.imp fun differ hfirst hsecond =>
    differ (by simpa using hfirst) (by simpa using hsecond)

/-- Nothing that stays of a walk is proposed twice. -/
theorem kept_apart (rooted : session.store.RootedAtObject) (files : FilesOutermost session.scopes)
    (prints : session.store.PrintsApart) :
    session.kept.Pairwise fun first second => ¬ session.Alike first second := by
  obtain ⟨signed, members⟩ := members_differ rooted (orderly_walked files).turns
    (orderly_walked files).signed
  refine (members.and (session.words_kept.and session.types_differ)).imp_of_mem ?_
  intro first second hfirst hsecond ⟨member, word, type⟩ alike
  have kinds := alike.kind
  rcases walks_of_kept hfirst with isMember | ⟨kind, -⟩ | ⟨isWord, symbol⟩
  · have isMember' : second.isMember = true := by
      rwa [Candidate.isMember, ← kinds]
    obtain ⟨a, ha⟩ := signed first hfirst isMember
    obtain ⟨b, hb⟩ := signed second hsecond isMember'
    exact not_alike_of_members prints ha hb (member isMember isMember') alike
  · have kind' : second.kind = .type := kinds ▸ kind
    exact not_alike_of_names (namesType_of_kept prints hfirst kind).1
      (namesType_of_kept prints hsecond kind').1 (type kind kind') alike
  · have names := alike.key
    rcases walks_of_kept hsecond with member' | ⟨kind, -⟩ | ⟨-, symbol'⟩
    · rw [kinds, not_isWord_of_isMember member'] at isWord
      cases isWord
    · rw [kinds, kind] at isWord
      cases isWord
    · rw [keyOf_of_isWord symbol, keyOf_of_isWord symbol'] at names
      exact word isWord kinds names

/-! ## Constructors -/

theorem keyOf_of_screenConstructor {type : Candidate} {id : ClassId} {access : Access}
    {style : AllocationStyle} {constructor : Constructor} {index : Nat}
    (declared : session.store.constructor? id index = some constructor)
    (screened : session.screenConstructor type id access style constructor index =
      .ok candidate) :
    Proposal.keyOf session.store candidate =
      "<init>" ++ Proposal.erasedList session.store constructor.parameters := by
  simp only [screenConstructor, Screened.bind_eq_ok, Screened.pure_eq_ok] at screened
  obtain ⟨_, -, _, -, rfl⟩ := screened
  simp [Proposal.keyOf, Candidate.constructedAs, declared]

/-- The constructors of a stored class are told apart. -/
theorem passingConstructors_apart (prints : session.store.PrintsApart) {id : ClassId}
    {definition : ClassDef} (stored : session.store.class? id = some definition)
    (type : Candidate) (style : AllocationStyle) :
    (session.passingConstructors type id definition style).Pairwise fun first second =>
      ¬ session.Alike first second := by
  have different := prints.constructors definition (Store.mem_classes.mpr ⟨id, stored⟩)
  rw [List.Nodup, ← List.zipIdx_map_fst 0 definition.constructors, List.map_map,
    List.pairwise_map] at different
  refine List.pairwise_filterMap.mpr (different.imp_of_mem ?_)
  rintro ⟨a, i⟩ ⟨b, j⟩ ha hb differ first hfirst second hsecond alike
  have declared : ∀ {constructor index}, (constructor, index) ∈ definition.constructors.zipIdx →
      session.store.constructor? id index = some constructor := by
    intro constructor index mem
    rw [Store.constructor?, stored, Option.bind_eq_bind, Option.bind_some]
    exact List.mem_zipIdx_iff_getElem?.mp mem
  have keys := alike.key
  rw [keyOf_of_screenConstructor (declared ha) (Screened.toOption_eq_some.mp hfirst),
    keyOf_of_screenConstructor (declared hb) (Screened.toOption_eq_some.mp hsecond)] at keys
  exact differ (by simpa using keys)

theorem foundConstructors_sublist (session : Session) :
    session.foundConstructors.Sublist session.index.constructors := by
  unfold foundConstructors
  split
  · exact List.filter_sublist.trans List.filter_sublist
  · exact List.nil_sublist _

theorem keyOf_of_screenIndexedConstructor {type : Candidate} {fact : TypeFact}
    {style : AllocationStyle} {constructor : ConstructorFact}
    (screened : session.screenIndexedConstructor type fact style constructor = .ok candidate) :
    Proposal.keyOf session.store candidate =
      "<init>(" ++ ",".intercalate constructor.parameters ++ ")" := by
  simp only [screenIndexedConstructor, Screened.bind_eq_ok, Screened.pure_eq_ok] at screened
  obtain ⟨_, -, _, -, rfl⟩ := screened
  rfl

/-- The constructors of a type of the class path are told apart. -/
theorem passingIndexed_apart (prints : session.index.PrintsApart) (name : QualifiedName)
    (type : Candidate) (fact : TypeFact) (style : AllocationStyle) :
    (session.passingIndexed type fact style (session.foundConstructors.filter
      fun constructor => constructor.declaring.name == name)).Pairwise fun first second =>
        ¬ session.Alike first second := by
  have different := prints.constructors
  rw [List.Nodup, List.pairwise_map] at different
  have named := (different.sublist session.foundConstructors_sublist).filter fun constructor =>
    constructor.declaring.name == name
  refine List.pairwise_filterMap.mpr (named.imp_of_mem ?_)
  intro a b ha hb differ first hfirst second hsecond alike
  have keys := alike.key
  rw [keyOf_of_screenIndexedConstructor (Screened.toOption_eq_some.mp hfirst),
    keyOf_of_screenIndexedConstructor (Screened.toOption_eq_some.mp hsecond)] at keys
  have names : a.declaring.name = b.declaring.name :=
    (beq_iff_eq.mp (List.mem_filter.mp ha).2).trans (beq_iff_eq.mp (List.mem_filter.mp hb).2).symm
  exact differ (Prod.ext names (by simpa using keys))

/-- What replaces a class of the walk behind `new` is told apart. -/
theorem replacements_apart (prints : session.store.PrintsApart) {type : Candidate}
    (mem : type ∈ session.kept) (kind : type.kind = .type) :
    (∀ candidate ∈ session.replacements type, candidate.InPlaceOf session.store type) ∧
      (session.replacements type).Pairwise fun first second => ¬ session.Alike first second := by
  rcases walks_of_kept mem with member | ⟨-, id, definition, symbol, stored⟩ | ⟨word, -⟩
  · simp [Candidate.isMember, kind] at member
  · have block : session.replacements type =
        Event.items (session.storedAllocations type id) := by rw [replacements, symbol]
    rw [block]
    refine ⟨(session.replaces_storedAllocations stored symbol kind).stands, ?_⟩
    rcases storedAllocations_cases stored symbol kind with
      ⟨-, nothing⟩ | ⟨-, ⟨candidate, one, -⟩ | ⟨style, -, constructors⟩⟩
    · rw [nothing]
      exact List.Pairwise.nil
    · rw [one]
      exact List.pairwise_singleton _ _
    · rw [constructors]
      exact passingConstructors_apart prints stored type style
  · simp [kind, CandidateKind.isWord] at word

/-- Behind `new`, only types are walked. -/
theorem kind_of_kept_allocation (site : session.request.site = .allocation) :
    ∀ candidate ∈ session.kept, candidate.kind = .type := by
  intro candidate mem
  obtain ⟨walked, hwalked, same⟩ := exists_walked_of_kept mem
  simp only [Candidate.profile, Prod.mk.injEq] at same
  rw [Session.walked, walk, site] at hwalked
  exact same.1.trans (kind_of_walkScopes_types hwalked)

/-- The candidates of the walk, as they are offered, are told apart. -/
theorem reached_apart (rooted : session.store.RootedAtObject)
    (files : FilesOutermost session.scopes) (prints : session.store.PrintsApart) :
    (Event.items (session.reached session.walked session.kept)).Pairwise
      fun first second => ¬ session.Alike first second := by
  by_cases site : session.request.site = .allocation
  · have types := kind_of_kept_allocation site
    rw [items_reached_allocation site]
    refine flatMap_apart (fun type => type)
      (fun type mem => (namesType_of_kept prints mem (types type mem)).1)
      (fun type mem => (replacements_apart prints mem (types type mem)).1)
      (fun type mem => (replacements_apart prints mem (types type mem)).2)
      (session.types_differ.imp_of_mem fun hfirst hsecond differ => ?_)
    exact differ (types _ hfirst) (types _ hsecond)
  · rw [items_reached site]
    exact kept_apart rooted files prints

/-- A type or a constructor that the walk offers names a type that is known. -/
theorem known_of_reached (prints : session.store.PrintsApart)
    (mem : candidate ∈ Event.items (session.reached session.walked session.kept)) :
    candidate.kind ≠ .package ∧ (candidate.kind = .type ∨ candidate.kind = .constructor →
      session.NamesType candidate ∧ ∀ name, session.store.typeName? candidate = some name →
        session.known.contains name = true) := by
  by_cases site : session.request.site = .allocation
  · rw [items_reached_allocation site] at mem
    obtain ⟨type, htype, mem⟩ := List.mem_flatMap.mp mem
    have kind := kind_of_kept_allocation site type htype
    have stands := (replacements_apart prints htype kind).1 candidate mem
    obtain ⟨names, known⟩ := namesType_of_kept prints htype kind
    refine ⟨?_, fun _ => ⟨names.inPlace stands, fun name denotes => ?_⟩⟩
    · rcases stands.kind with kind | kind <;> simp [kind]
    · exact known name (stands.name.symm.trans denotes)
  · rw [items_reached site] at mem
    rcases walks_of_kept mem with member | ⟨kind, -⟩ | ⟨word, -⟩
    · refine ⟨fun package => ?_, ?_⟩
      · simp [Candidate.isMember, package] at member
      · rintro (kind | kind) <;> simp [Candidate.isMember, kind] at member
    · exact ⟨by simp [kind], fun _ => namesType_of_kept prints mem kind⟩
    · refine ⟨fun package => ?_, ?_⟩
      · simp [CandidateKind.isWord, package] at word
      · rintro (kind | kind) <;> simp [CandidateKind.isWord, kind] at word

/-! ## The class path -/

section ClassPath

variable {known : KnownTypes} {placed : Placed}

/-- A type that the class path offers has the name of a fact that the index lists. -/
theorem plain_of_placedTypes (prints : session.index.PrintsApart)
    (mem : placed ∈ session.placedTypes known) : placed.name.Plain := by
  obtain ⟨fact, found, screened⟩ := mem_placedTypes.mp mem
  rw [Placed.name, (screenFact_eq_ok screened).1]
  rcases List.mem_append.mp (mem_of_mem_uniqueNames found) with listed | listed
  · exact prints.types fact (List.mem_filter.mp (List.mem_filter.mp listed).1).1
  · obtain ⟨constructor, hconstructor, rfl⟩ := List.mem_map.mp listed
    exact prints.declaring constructor (session.foundConstructors_sublist.mem hconstructor)

/-- What is known of a settled type of the class path. -/
theorem names_of_settled (prints : session.index.PrintsApart)
    (mem : placed ∈ Placed.settle known (session.placedTypes known)) :
    session.NamesType placed.written ∧
      session.store.typeName? placed.written = some placed.name ∧
      known.contains placed.name = false := by
  rw [Placed.settle_eq_map] at mem
  obtain ⟨original, horiginal, rfl⟩ := List.mem_map.mp mem
  obtain ⟨fact, candidate⟩ := original.sameType_settled known (session.placedTypes known)
  have places := places_of_mem horiginal
  have name : (original.settled known (session.placedTypes known)).name = original.name := by
    rw [Placed.name, fact, Placed.name]
  have denotes : session.store.typeName?
      (original.settled known (session.placedTypes known)).written = some original.name := by
    rw [Store.typeName?, Placed.symbol_written, candidate, places.symbol]
    rfl
  rw [name]
  refine ⟨⟨.inl ?_, original.name, denotes, ?_, plain_of_placedTypes prints horiginal⟩, denotes,
    places.fresh⟩
  · rw [Placed.kind_written, candidate, places.kind]
  · simp [Placed.name, TypeFact.name, QualifiedName.child]

theorem nodup_settle (session : Session) (known : KnownTypes) :
    ((Placed.settle known (session.placedTypes known)).map Placed.name).Nodup := by
  have names : (session.placedTypes known).map (Placed.name ∘ Placed.settled known
      (session.placedTypes known)) = (session.placedTypes known).map Placed.name := by
    refine List.map_congr_left fun placed _ => ?_
    rw [Function.comp_apply, Placed.name, (placed.sameType_settled _ _).1, Placed.name]
  rw [Placed.settle_eq_map, List.map_map, names]
  exact session.nodup_placedTypes known

/-- What is offered for a settled type stands in its place and is told apart. -/
theorem placedCandidates_apart (prints : session.index.PrintsApart)
    (mem : placed ∈ Placed.settle known (session.placedTypes known)) :
    (∀ candidate ∈ Event.items (session.placedCandidates placed),
      candidate.InPlaceOf session.store placed.written) ∧
    (Event.items (session.placedCandidates placed)).Pairwise
      fun first second => ¬ session.Alike first second := by
  by_cases site : session.request.site = .allocation
  · have block : Event.items (session.placedCandidates placed) =
        session.indexedReplacements placed := by rw [placedCandidates, if_pos site]; rfl
    rw [block]
    refine ⟨(session.replaces_indexedReplacements known placed mem).stands, ?_⟩
    rw [Placed.settle_eq_map] at mem
    obtain ⟨original, horiginal, rfl⟩ := List.mem_map.mp mem
    obtain ⟨fact, candidate⟩ := original.sameType_settled known (session.placedTypes known)
    have places := places_of_mem horiginal
    have symbol : (original.settled known (session.placedTypes known)).written.symbol =
        .indexedType (original.settled known (session.placedTypes known)).fact := by
      rw [Placed.symbol_written, candidate, fact, places.symbol]
    have kind : (original.settled known (session.placedTypes known)).written.kind = .type := by
      rw [Placed.kind_written, candidate, places.kind]
    unfold indexedReplacements
    rcases session.indexedAllocations_cases symbol kind _ with
      ⟨-, nothing⟩ | ⟨-, ⟨candidate, one, -⟩ | ⟨style, -, passing⟩⟩
    · rw [nothing]
      exact List.Pairwise.nil
    · rw [one]
      exact List.pairwise_singleton _ _
    · rw [passing]
      exact passingIndexed_apart prints _ _ _ style
  · rw [placedCandidates, if_neg site, Event.items_found, Event.items_nil]
    refine ⟨fun candidate mem' => ?_, List.pairwise_singleton _ _⟩
    rw [List.mem_singleton.mp mem']
    exact ⟨(names_of_settled prints mem).1.kind, rfl, rfl⟩

/-- The types and constructors of the class path are told apart. -/
theorem searchTypes_apart (prints : session.index.PrintsApart) (known : KnownTypes) :
    (Event.items (session.searchTypes known)).Pairwise
      fun first second => ¬ session.Alike first second := by
  rw [items_searchTypes]
  refine flatMap_apart Placed.written (fun placed mem => (names_of_settled prints mem).1)
    (fun placed mem => (placedCandidates_apart prints mem).1)
    (fun placed mem => (placedCandidates_apart prints mem).2) ?_
  refine (List.pairwise_map.mp (session.nodup_settle known)).imp_of_mem ?_
  intro placed other hplaced hother differ
  rw [(names_of_settled prints hplaced).2.1, (names_of_settled prints hother).2.1]
  exact fun same => differ (Option.some.inj same)

/-- They name types that are not known. -/
theorem fresh_of_searchTypes (prints : session.index.PrintsApart)
    (mem : candidate ∈ Event.items (session.searchTypes known)) :
    session.NamesType candidate ∧ ∃ name, session.store.typeName? candidate = some name ∧
      known.contains name = false := by
  rw [items_searchTypes] at mem
  obtain ⟨placed, hplaced, mem⟩ := List.mem_flatMap.mp mem
  obtain ⟨names, denotes, fresh⟩ := names_of_settled prints hplaced
  have stands := (placedCandidates_apart prints hplaced).1 candidate mem
  exact ⟨names.inPlace stands, placed.name, stands.name.trans denotes, fresh⟩

/-- Packages below one parent are told apart. -/
theorem searchPackages_apart {snapshot : Snapshot} (built : session.index = .build snapshot) :
    (Event.items session.searchPackages).Pairwise
      fun first second => ¬ session.Alike first second := by
  have symbols : ∀ {depth package candidate},
      session.screenPackage depth package = .ok candidate →
        candidate.symbol = .package package := by
    intro depth package candidate screened
    unfold screenPackage at screened
    split at screened
    next => exact absurd screened Screened.throw_ne_ok
    next =>
      simp only [Screened.bind_eq_ok, Screened.pure_eq_ok] at screened
      obtain ⟨nameMatch, -, rfl⟩ := screened
      rfl
  rw [searchPackages, Screened.items_flatMap_step, List.pairwise_filterMap, built]
  refine (Index.increasing_findPackages _).imp_of_mem ?_
  intro package other hpackage hother less first hfirst second hsecond alike
  obtain ⟨segment, rfl⟩ := Index.mem_findPackages hpackage
  obtain ⟨segment', rfl⟩ := Index.mem_findPackages hother
  have keys := alike.key
  simp only [Proposal.keyOf, symbols (Screened.toOption_eq_some.mp hfirst),
    symbols (Screened.toOption_eq_some.mp hsecond)] at keys
  rw [QualifiedName.dotted_child_inj keys] at less
  exact QualifiedName.compare_self_ne_lt _ less

end ClassPath

/-! ## All proposals -/

/-- No two candidates that a request comes to have proposals of one kind and identity. -/
theorem offered_apart {snapshot : Snapshot} (rooted : session.store.RootedAtObject)
    (files : FilesOutermost session.scopes) (stored : session.store.PrintsApart)
    (built : session.index = .build snapshot) (indexed : session.index.PrintsApart) :
    session.offered.Pairwise fun first second => ¬ session.Alike first second := by
  unfold offered
  split
  · exact List.Pairwise.nil
  refine List.pairwise_append.mpr ⟨List.pairwise_append.mpr ⟨reached_apart rooted files stored,
    ?_, ?_⟩, ?_, ?_⟩
  · split
    · exact searchTypes_apart indexed session.known
    · exact List.Pairwise.nil
  · -- what the walk has made known is left out of the class path
    intro first hfirst second hsecond alike
    obtain ⟨-, hsecond⟩ := List.mem_ite_nil_right.mp hsecond
    obtain ⟨names, name, denotes, fresh⟩ := fresh_of_searchTypes indexed hsecond
    obtain ⟨names', known⟩ := (known_of_reached stored hfirst).2 (alike.kind ▸ names.kind)
    refine not_alike_of_names names' names (fun same => ?_) alike
    exact absurd ((known name (same.trans denotes)).symm.trans fresh) (by decide)
  · split
    · exact searchPackages_apart built
    · exact List.Pairwise.nil
  · intro first hfirst second hsecond alike
    obtain ⟨-, hsecond⟩ := List.mem_ite_nil_right.mp hsecond
    have package := kind_of_mem_searchPackages hsecond
    rcases List.mem_append.mp hfirst with hfirst | hfirst
    · exact (known_of_reached stored hfirst).1 (alike.kind.trans package)
    · obtain ⟨-, hfirst⟩ := List.mem_ite_nil_right.mp hfirst
      have kind := (fresh_of_searchTypes indexed hfirst).1.kind
      rw [alike.kind, package] at kind
      exact absurd kind (by decide)

/-- No two proposals of a request agree in their kind and their identity, if keys tell things
apart. -/
theorem proposals_have_identities {snapshot : Snapshot} (built : session.store.Built)
    (files : FilesOutermost session.scopes) (stored : session.store.PrintsApart)
    (index : session.index = .build snapshot) (indexed : session.index.PrintsApart)
    (ignores : ProposalKind → Bool) (signal : Signal) :
    ((session.run ignores signal).proposals.map
      fun proposal => (proposal.kind, proposal.identity)).Nodup := by
  have apart := (offered_apart built.rootedAtObject files stored index indexed).filter
    fun candidate => !ignores (.ofCandidate candidate)
  have initial := (session.proposals_run_initial ignores signal).sublist
  refine List.Nodup.sublist (initial.map _) ?_
  rw [List.map_map, List.Nodup, List.pairwise_map]
  refine apart.imp fun differ same => differ ?_
  exact ⟨congrArg Prod.fst same, congrArg Prod.snd same⟩

/-- A library with a class that has two overloads, one for each of two classes. -/
def withOverloads (first second : QualifiedName) : Store :=
  let size := CoreLibrary.store.size
  let overload (id : ClassId) : Method := { name := "add", parameters := [.plain id] }
  let main := { ClassDef.topLevel ⟨["app", "Main"]⟩ with
    methods := [overload size, overload (size + 1)] }
  (((CoreLibrary.store.add (.topLevel first)).1.add (.topLevel second)).1.add main).1

/-- The class with the overloads. -/
def mainClass : ClassId := CoreLibrary.store.size + 2

/-- A request inside the class with the overloads, over a class path with one more type. -/
def insideMain (first second : QualifiedName) (site : Site) : Session :=
  let graph : ScopeGraph := ⟨#[{ parent := none, kind := .unit ⟨["app"]⟩ {} [mainClass] },
    { parent := some 0, kind := .class mainClass }]⟩
  { overCore "add" site graph (.build { types := [.topLevel ⟨["lib", "Adder"]⟩] }) with
    store := withOverloads first second
    request := { Request.ofToken "add" 0 site with scope := 1 } }

/-- Overloads for classes with two simple names are told apart. -/
theorem overloads_have_identities :
    (withOverloads ⟨["a", "List"]⟩ ⟨["b", "Set"]⟩).PrintsApart ∧
      (insideMain ⟨["a", "List"]⟩ ⟨["b", "Set"]⟩ .name).index.PrintsApart ∧
      (((insideMain ⟨["a", "List"]⟩ ⟨["b", "Set"]⟩ .name).run (fun _ => false)
        fun _ _ => false).proposals.map
          fun proposal => (proposal.kind, proposal.identity)).Nodup := by
  have stored : (withOverloads ⟨["a", "List"]⟩ ⟨["b", "Set"]⟩).PrintsApart := by
    decide +kernel
  have indexed : (insideMain ⟨["a", "List"]⟩ ⟨["b", "Set"]⟩ .name).index.PrintsApart := by
    decide +kernel
  have built : (withOverloads ⟨["a", "List"]⟩ ⟨["b", "Set"]⟩).Built := by
    unfold withOverloads
    exact ((Store.Built.core.add _).add _).add _
  exact ⟨stored, indexed, proposals_have_identities (built : (insideMain _ _ _).store.Built)
    (by decide +kernel) stored rfl indexed _ _⟩

/-- A request for the members of the class, where the two classes have one simple name. -/
def onMain : Session :=
  insideMain ⟨["a", "List"]⟩ ⟨["b", "List"]⟩ (.memberAccess (.plain mainClass) none)

/-- Only the class and the root class have members for the request. -/
theorem visits_onMain : onMain.visits mainClass mainClass .declared =
    [{ owner := mainClass, route := [mainClass], isStart := true, origin := .declared },
      { owner := .object, route := [mainClass, .object], isStart := false
        origin := .inherited }] := by
  have chain : onMain.store.chainRoutes mainClass mainClass =
      [(mainClass, [mainClass]), (.object, [mainClass, .object])] := by decide +kernel
  have interfaces : onMain.store.interfaceRoutes mainClass mainClass = [] :=
    Store.interfaceRoutes_eq_nil (by decide +kernel)
  simp only [visits, Store.objectRoute, chain, interfaces]
  decide +kernel

/-- Overloads for classes with one simple name are not. -/
theorem overloads_print_alike :
    (onMain.run (fun _ => false) fun _ _ => false).proposals.map
        (fun proposal => (proposal.kind, proposal.identity, proposal.completion)) =
      [(.method, (some "app.Main", "add(List)"), "add()"),
        (.method, (some "app.Main", "add(List)"), "add()")] := by
  have walk : onMain.walk = onMain.members {} mainClass mainClass .declared := rfl
  rw [proposals_run (run_outcome_of_silent onMain _ fun _ _ => rfl)]
  simp only [shown, offered, known, kept, walked, walk, members, visits_onMain]
  decide +kernel

end Completion.Session

end CodeAssist
