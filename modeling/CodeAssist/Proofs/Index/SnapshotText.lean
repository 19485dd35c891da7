import CodeAssist.Index.Codec
import CodeAssist.Proofs.Json.RoundTrip
import CodeAssist.Proofs.Text.DottedNames
/-!
# Snapshots survive their text

A snapshot is read back from its text if its package names are *normal*: no segment is empty, has a
dot in itself or blanks around it. The names of packages are written with dots, and reading drops
what is not normal, so other names do not come back. Simple names, enclosing types and parameters
are texts of their own and come back whatever they hold.

Conversely all that is ever read is normal, from whatever text and in whatever form. Both directions
go by the fields of a record: what is asked of a record is asked of one field after the other.
-/

namespace CodeAssist

/-! ## Records -/

namespace Json.Draft

variable {α σ : Type} {fields : List (FieldReader σ)} {holds : σ → Prop} {stop : Option Fault}

/-- A reading in two steps succeeds if both do. -/
theorem bind_eq_ok {β : Type} {first : Except Fault α} {next : α → Except Fault β} {result : β} :
    first >>= next = .ok result ↔ ∃ a, first = .ok a ∧ next a = .ok result := by
  cases first <;> simp [bind, Except.bind]

@[simp] theorem ok_bind {β : Type} (a : α) (next : α → Except Fault β) :
    (Except.ok a >>= next) = next a := rfl

@[simp] theorem pure_eq_ok (a : α) : (pure a : Except Fault α) = .ok a := rfl

/-- A field that keeps a property of the record it is stored in. -/
def FieldReader.Keeps (holds : σ → Prop) (field : FieldReader σ) : Prop :=
  ∀ state draft next, holds state → field.read state draft = .ok next → holds next

/-- What all fields keep is kept by the members of an object. -/
theorem keeps_readMembers (kept : ∀ field ∈ fields, field.Keeps holds)
    {members : List (Except Fault String × Draft)} {state result : σ} {seen met : List String}
    (start : holds state) (read : readMembers fields stop state seen members = .ok (result, met)) :
    holds result := by
  induction members generalizing state seen with
  | nil =>
    unfold readMembers at read
    split at read <;> cases read
    exact start
  | cons member members ih =>
    obtain ⟨name, value⟩ := member
    obtain ⟨name, -, read⟩ := bind_eq_ok.mp read
    split at read
    next =>
      obtain ⟨_, -, read⟩ := bind_eq_ok.mp read
      exact ih start read
    next field found =>
      split at read
      · cases read
      · obtain ⟨next, stored, read⟩ := bind_eq_ok.mp read
        exact ih (kept field (List.mem_of_find?_eq_some found) _ _ _ start stored) read

/-- What all fields keep is kept by the items of an array. -/
theorem keeps_readPositions (kept : ∀ field ∈ fields, field.Keeps holds) {items : List Draft}
    {state result : σ} {seen met : List String} (start : holds state)
    (read : readPositions stop fields state seen items = .ok (result, met)) : holds result := by
  induction fields generalizing state seen items with
  | nil =>
    cases items with
    | nil =>
      unfold readPositions at read
      split at read <;> cases read
      exact start
    | cons => cases read
  | cons field fields ih =>
    cases items with
    | nil =>
      unfold readPositions at read
      split at read <;> cases read
      exact start
    | cons item items =>
      obtain ⟨next, stored, read⟩ := bind_eq_ok.mp read
      exact ih (fun other mem => kept other (List.mem_cons_of_mem _ mem))
        (kept field List.mem_cons_self _ _ _ start stored) read

/-- What all fields keep holds of a record that is read, if it holds of the defaults. -/
theorem keeps_readRecord (holds : σ → Prop) (kept : ∀ field ∈ fields, field.Keeps holds)
    {required : List String} {start result : σ} (defaults : holds start) {draft : Draft}
    (read : draft.readRecord fields required start = .ok result) : holds result := by
  have finish : ∀ {state : σ} {seen : List String}, holds state →
      (if required.all seen.contains then pure state else throw .shape : Except Fault σ) =
        .ok result → holds result := by
    intro state seen held done
    split at done <;> cases done
    exact held
  cases draft with
  | object members stop =>
    obtain ⟨⟨state, seen⟩, stored, done⟩ := bind_eq_ok.mp read
    exact finish (keeps_readMembers kept defaults stored) done
  | array items stop =>
    obtain ⟨⟨state, seen⟩, stored, done⟩ := bind_eq_ok.mp read
    exact finish (keeps_readPositions kept defaults stored) done
  | _ => cases read

/-- What holds of everything that a reader accepts holds of every item of a list. -/
theorem forall_of_readItems {property : α → Prop} {read : Draft → Except Fault α}
    (each : ∀ draft a, read draft = .ok a → property a) {drafts : List Draft} {items : List α}
    (found : readItems read stop drafts = .ok items) : ∀ a ∈ items, property a := by
  induction drafts generalizing items with
  | nil =>
    unfold readItems at found
    split at found <;> cases found
    simp
  | cons draft drafts ih =>
    obtain ⟨first, hfirst, found⟩ := bind_eq_ok.mp found
    obtain ⟨rest, hrest, found⟩ := bind_eq_ok.mp found
    cases found
    exact List.forall_mem_cons.mpr ⟨each draft first hfirst, ih hrest⟩

/-- What holds of each item that is read holds of all items of an array. -/
theorem forall_of_readList {property : α → Prop} {read : Draft → Except Fault α}
    (each : ∀ draft a, read draft = .ok a → property a) {draft : Draft} {items : List α}
    (found : draft.readList read = .ok items) : ∀ a ∈ items, property a := by
  unfold readList at found
  split at found
  · exact forall_of_readItems each found
  · cases found

/-- A list is read back if its items are. -/
theorem readItems_drafts {read : Draft → Except Fault α} {toJson : α → Json} {items : List α}
    (each : ∀ a ∈ items, read (draft (toJson a)) = .ok a) :
    readItems read none (drafts (items.map toJson)) = .ok items := by
  induction items with
  | nil => rfl
  | cons a items ih =>
    simp only [List.map_cons, drafts, readItems, each a List.mem_cons_self,
      ih fun other mem => each other (List.mem_cons_of_mem _ mem)]
    rfl

/-- An array is read back if its items are. -/
theorem readList_draft {read : Draft → Except Fault α} {toJson : α → Json} {items : List α}
    (each : ∀ a ∈ items, read (draft (toJson a)) = .ok a) :
    (draft (.array (items.map toJson))).readList read = .ok items :=
  readItems_drafts each

/-- An object with all fields in order is read like the array of their values. -/
theorem readMembers_eq_readPositions {all : List (FieldReader σ)} (stop : Option Fault)
    (distinct : (all.map FieldReader.name).Nodup) (before : List (FieldReader σ))
    (split : all = before ++ fields) (seen : List String)
    (met : ∀ name ∈ seen, name ∈ before.map FieldReader.name) (state : σ) {values : List Draft}
    (length : fields.length = values.length) :
    readMembers all stop state seen
        ((fields.map fun field => Except.ok field.name).zip values) =
      readPositions stop fields state seen values := by
  induction fields generalizing before seen state values with
  | nil =>
    obtain rfl := List.length_eq_zero_iff.mp length.symm
    rfl
  | cons field fields ih =>
    obtain ⟨value, values, rfl⟩ := List.exists_cons_of_length_eq_add_one length.symm
    have absent : field.name ∉ before.map FieldReader.name := by
      rw [split, List.map_append, List.nodup_append] at distinct
      exact fun listed => distinct.2.2 _ listed _ List.mem_cons_self rfl
    have found : all.find? (fun other => other.name == field.name) = some field := by
      have none : before.find? (fun other => other.name == field.name) = none := by
        refine List.find?_eq_none.mpr fun other listed same => absent ?_
        exact List.mem_map.mpr ⟨other, listed, beq_iff_eq.mp same⟩
      rw [split, List.find?_append, none, Option.none_or]
      exact List.find?_cons_of_pos (beq_self_eq_true field.name)
    have fresh : seen.contains field.name = false :=
      Bool.eq_false_iff.mpr fun listed => absent (met _ (List.contains_iff_mem.mp listed))
    have next : ∀ state, readMembers all stop state (field.name :: seen)
        ((fields.map fun field => Except.ok field.name).zip values) =
          readPositions stop fields state (field.name :: seen) values := by
      intro state
      refine ih (before ++ [field]) (by simp [split]) _ ?_ state (by simpa using length)
      intro name listed
      rw [List.map_append, List.mem_append]
      rcases List.mem_cons.mp listed with rfl | listed
      · exact .inr List.mem_cons_self
      · exact .inl (met name listed)
    simp only [List.map_cons, List.zip_cons_cons, readMembers, readPositions, bind, Except.bind,
      found, fresh, next, Bool.false_eq_true, ↓reduceIte]

/-- The members of an object as they are read: the names beside the values. -/
theorem memberDrafts_eq_zip (members : List (String × Json)) :
    memberDrafts members =
      (members.map fun member => Except.ok member.1).zip (drafts (members.map Prod.snd)) := by
  induction members with
  | nil => rfl
  | cons member members ih => simp [memberDrafts, drafts, ih]

theorem length_drafts (items : List Json) : (drafts items).length = items.length := by
  induction items with
  | nil => rfl
  | cons item items ih => simp [drafts, ih]

/-- An object of all fields in order is read like the array of their values. -/
theorem readRecord_object (distinct : (fields.map FieldReader.name).Nodup)
    (required : List String) (start : σ) {members : List (String × Json)}
    (named : fields.map FieldReader.name = members.map Prod.fst) :
    (draft (.object members)).readRecord fields required start =
      (draft (.array (members.map Prod.snd))).readRecord fields required start := by
  have names : (members.map fun member => (Except.ok member.1 : Except Fault String)) =
      fields.map fun field => .ok field.name := by
    have same := congrArg (List.map (Except.ok (ε := Fault))) named
    rw [List.map_map, List.map_map] at same
    exact same.symm
  have length : fields.length = (drafts (members.map Prod.snd)).length := by
    simpa [length_drafts] using congrArg List.length named
  have positions :=
    readMembers_eq_readPositions none distinct [] rfl [] (by simp) start length
  rw [← names, ← memberDrafts_eq_zip] at positions
  simp only [draft, readRecord, positions]

@[simp] theorem readString_string (text : String) :
    (Draft.string (.ok text)).readString = .ok text := rfl

/-- A normal name is read back from its dotted form. -/
theorem readName_string {name : QualifiedName} (normal : name.Normal) :
    (Draft.string (.ok name.dotted)).readName = .ok name :=
  congrArg Except.ok (QualifiedName.ofDotted_dotted normal)

/-- Names are read in their normal form, whatever the text is. -/
theorem normal_of_readName {draft : Draft} {name : QualifiedName}
    (found : draft.readName = .ok name) : name.Normal := by
  unfold readName at found
  cases read : draft.readString with
  | error fault => simp [read, Except.map] at found
  | ok text =>
    simp only [read, Except.map, Except.ok.injEq] at found
    exact found ▸ QualifiedName.normal_ofDotted text

@[simp] theorem readList_strings (items : List String) :
    (draft (.strings items)).readList readString = .ok items :=
  readList_draft fun _ _ => rfl

@[simp] theorem readModifiers_draft (modifiers : Modifiers) :
    (draft (.nat modifiers.bits.toNat)).readModifiers = .ok modifiers := by
  have small : modifiers.bits.toNat < 65536 := modifiers.bits.toNat_lt
  simp only [nat, draft, readModifiers]
  rw [if_pos ⟨by omega, by omega⟩]
  simp

@[simp] theorem readWord_kind (kind : ClassKind) :
    (Draft.string (.ok kind.word)).readWord ClassKind.ofWord? = .ok kind := by
  cases kind <;> rfl

@[simp] theorem readWord_access (access : Access) :
    (Draft.string (.ok access.word)).readWord Access.ofWord? = .ok access := by
  cases access <;> rfl

end Json.Draft

/-! ## Snapshots -/

open Json.Draft

namespace TypeFact

/-- The package of a type that is read has a normal name. -/
theorem normal_of_read {draft : Json.Draft} {fact : TypeFact} (found : read draft = .ok fact) :
    fact.package.Normal := by
  refine keeps_readRecord (fun fact => fact.package.Normal) ?_ ?_ found
  · simp only [fields, List.forall_mem_cons, List.not_mem_nil, false_implies, implies_true,
      and_true]
    refine ⟨?_, ?_, ?_, ?_, ?_, ?_⟩ <;> intro state draft next held stored <;>
      obtain ⟨value, found, done⟩ := bind_eq_ok.mp stored <;> cases done
    · exact normal_of_readName found
    all_goals exact held
  · rintro _ ⟨⟩

/-- A type is read back. -/
theorem read_draft {fact : TypeFact} (normal : fact.package.Normal) :
    read (Json.draft fact.toJson) = .ok fact := by
  unfold toJson read
  rw [readRecord_object (by simp [fields]) _ _ (by simp [fields])]
  simp [readRecord, fields, readPositions, Json.draft, Json.drafts, readName_string normal]

end TypeFact

namespace ConstructorFact

/-- The package of a constructor is read as a name. -/
theorem normal_of_read {draft : Json.Draft} {fact : ConstructorFact}
    (found : read draft = .ok fact) : fact.declaring.package.Normal := by
  refine keeps_readRecord (fun fact => fact.declaring.package.Normal) ?_ ?_ found
  · simp only [fields, List.forall_mem_cons, List.not_mem_nil, false_implies, implies_true,
      and_true]
    refine ⟨?_, ?_, ?_, ?_, ?_⟩ <;> intro state draft next held stored <;>
      obtain ⟨value, found, done⟩ := bind_eq_ok.mp stored <;> cases done
    · exact TypeFact.normal_of_read found
    all_goals exact held
  · rintro _ ⟨⟩

/-- A constructor is read back. -/
theorem read_draft {fact : ConstructorFact} (normal : fact.declaring.package.Normal) :
    read (Json.draft fact.toJson) = .ok fact := by
  unfold toJson read
  rw [readRecord_object (by simp [fields]) _ _ (by simp [fields])]
  simp [readRecord, fields, readPositions, Json.draft, Json.drafts, TypeFact.read_draft normal]

end ConstructorFact

namespace Snapshot

/-- All packages have normal names. -/
structure NormalPackages (snapshot : Snapshot) : Prop where
  types : ∀ fact ∈ snapshot.types, fact.package.Normal
  constructors : ∀ fact ∈ snapshot.constructors, fact.declaring.package.Normal
  packages : ∀ package ∈ snapshot.packages, package.Normal

/-- So are all packages of a snapshot. -/
theorem normal_of_read {draft : Json.Draft} {snapshot : Snapshot}
    (found : read draft = .ok snapshot) : snapshot.NormalPackages := by
  refine keeps_readRecord NormalPackages ?_ ⟨?_, ?_, ?_⟩ found
  · simp only [fields, List.forall_mem_cons, List.not_mem_nil, false_implies, implies_true,
      and_true]
    refine ⟨?_, ?_, ?_⟩ <;> intro state draft next held stored <;>
      obtain ⟨value, found, done⟩ := bind_eq_ok.mp stored <;> cases done
    · exact { held with types := forall_of_readList (fun _ _ => TypeFact.normal_of_read) found }
    · exact { held with
        constructors := forall_of_readList (fun _ _ => ConstructorFact.normal_of_read) found }
    · exact { held with packages := forall_of_readList (fun _ _ => normal_of_readName) found }
  all_goals simp

/-- A snapshot is read back from the value that is written for it. -/
theorem read_draft {snapshot : Snapshot} (normal : snapshot.NormalPackages) :
    read (Json.draft snapshot.toJson) = .ok snapshot := by
  have types := readList_draft fun fact mem => TypeFact.read_draft (normal.types fact mem)
  have constructors := readList_draft fun fact mem =>
    ConstructorFact.read_draft (normal.constructors fact mem)
  have packages : (Json.draft (.strings (snapshot.packages.map QualifiedName.dotted))).readList
      readName = .ok snapshot.packages := by
    rw [Json.strings, List.map_map]
    exact readList_draft fun name mem => readName_string (normal.packages name mem)
  unfold toJson read
  rw [readRecord_object (by simp [fields]) _ _ (by simp [fields])]
  rw [Json.draft] at types constructors
  simp [readRecord, fields, readPositions, Json.draft, Json.drafts, types, constructors, packages]

/-- What is written for a snapshot has no numbers but modifiers. -/
theorem exact_toJson (snapshot : Snapshot) : Json.Exact snapshot.toJson := by
  have strings : ∀ items, Json.Exact (.strings items) := by
    refine fun items => .array fun item mem => ?_
    obtain ⟨text, -, rfl⟩ := List.mem_map.mp mem
    exact .string text
  have modifiers : ∀ modifiers : Modifiers, Json.Exact (.nat modifiers.bits.toNat) := by
    intro modifiers
    have small : modifiers.bits.toNat < 65536 := modifiers.bits.toNat_lt
    exact .number (by omega) (by omega)
  have type : ∀ fact : TypeFact, Json.Exact fact.toJson := by
    intro fact
    refine .object ?_
    simp [strings, modifiers, Json.Exact.string]
  have constructor : ∀ fact : ConstructorFact, Json.Exact fact.toJson := by
    intro fact
    refine .object ?_
    simp [strings, modifiers, type, Json.Exact.string]
  refine .object ?_
  simp only [List.forall_mem_cons, List.not_mem_nil, false_implies, implies_true, and_true]
  refine ⟨.array fun item mem => ?_, .array fun item mem => ?_, strings _⟩
  · obtain ⟨fact, -, rfl⟩ := List.mem_map.mp mem
    exact type fact
  · obtain ⟨fact, -, rfl⟩ := List.mem_map.mp mem
    exact constructor fact

/-- A snapshot whose packages have normal names is read back from its text, and every snapshot that
is read from any text is of this kind. -/
theorem snapshot_survives_its_text (snapshot : Snapshot) :
    (snapshot.NormalPackages → ofText snapshot.toText = .ok snapshot) ∧
      ∀ text, ofText text = .ok snapshot → snapshot.NormalPackages := by
  refine ⟨fun normal => ?_, fun text found => ?_⟩
  · rw [ofText, toText, snapshot.exact_toJson.scan_pretty]
    dsimp only
    rw [read_draft normal]
    rfl
  · obtain ⟨read, hread, done⟩ := bind_eq_ok.mp found
    split at done <;> cases done
    exact normal_of_read hread

/-- A type with a name that has to be escaped, in a package of two segments. -/
theorem odd_names_survive :
    let odd : TypeFact :=
      { package := ⟨["java", "util"]⟩, enclosing := [" \t", ""], simpleName := "a.\"b\\\u0001é" }
    ofText (toText { types := [odd], constructors := [.ofParameters odd ["T[]", ""]] }) =
      .ok { types := [odd], constructors := [.ofParameters odd ["T[]", ""]] } := by
  refine (snapshot_survives_its_text _).1 ⟨?_, ?_, ?_⟩ <;> decide

end Snapshot

end CodeAssist
