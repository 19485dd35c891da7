import CodeAssist.Proofs.Class.Names
import CodeAssist.Proofs.Text.DottedNames
import CodeAssist.Class.Hierarchy
import Mathlib.Data.List.Basic
/-!
# Looking up dotted names

A store is asked for classes by text. Where no segment of a name has a dot in itself, the text tells
the segments apart (`dotted_inj`). So in a store of such names, no two of them the same, a class is
found by the text of its name (`lookup?_dotted`). What is found for a text need not have the name
that was meant, because `java.lang` stands in for a missing class, but it has the simple name
(`simpleName_of_lookup?`).
-/

namespace CodeAssist

namespace QualifiedName

/-- No segment has a dot in itself. -/
def Plain (name : QualifiedName) : Prop := ∀ segment ∈ name.segments, '.' ∉ segment.toList

instance (name : QualifiedName) : Decidable name.Plain :=
  inferInstanceAs (Decidable (∀ segment ∈ name.segments, _))

/-- A plain name stays plain with one more segment that has no dot. -/
theorem Plain.child {container : QualifiedName} (plain : container.Plain) {segment : String}
    (whole : '.' ∉ segment.toList) : (container.child segment).Plain := by
  intro other mem
  rcases List.mem_append.mp mem with mem | mem
  · exact plain other mem
  · rw [List.mem_singleton.mp mem]
    exact whole

theorem Plain.simple {name : QualifiedName} (plain : name.Plain) : '.' ∉ name.simple.toList := by
  unfold QualifiedName.simple last?
  cases last : name.segments.getLast? with
  | none => simp
  | some segment => exact plain segment (List.mem_of_getLast? last)

/-- The text of a name determines it. -/
theorem dotted_inj {first second : QualifiedName} (plainFirst : first.Plain)
    (plainSecond : second.Plain) (someFirst : first.segments ≠ [])
    (someSecond : second.segments ≠ []) (same : first.dotted = second.dotted) :
    first = second := by
  have segments := splitAt_dotted someSecond plainSecond
  rw [← same, splitAt_dotted someFirst plainFirst] at segments
  exact congrArg mk (List.map_injective_iff.mpr (fun _ _ => String.toList_injective) segments)

/-- A text without dots is the simple name. -/
theorem dotted_eq_simple {name : QualifiedName} (whole : '.' ∉ name.dotted.toList) :
    name.dotted = name.simple := by
  obtain ⟨segments⟩ := name
  match segments with
  | [] => rfl
  | [segment] => exact String.intercalate_singleton
  | first :: second :: rest =>
    refine absurd ?_ whole
    rw [dotted, String.intercalate_cons_of_ne_nil (by simp)]
    simp

theorem dotted_inJavaLang (simple : String) :
    (⟨["java", "lang", simple]⟩ : QualifiedName).dotted = "java.lang." ++ simple := by
  rw [dotted, String.intercalate_cons_of_ne_nil (by simp),
    String.intercalate_cons_of_ne_nil (by simp), String.intercalate_singleton,
    ← String.append_assoc, ← String.append_assoc]
  rfl

/-- The text of a name below a package has a dot in it. -/
theorem dot_mem_dotted_child {container : QualifiedName} (inside : container.segments ≠ [])
    (segment : String) : '.' ∈ (container.child segment).dotted.toList := by
  obtain ⟨first, rest, segments⟩ := List.exists_cons_of_ne_nil inside
  rw [dotted, child, segments, List.cons_append, String.intercalate_cons_of_ne_nil (by simp)]
  simp

end QualifiedName

namespace Store

open QualifiedName

variable {store : Store} {id : ClassId} {name : QualifiedName}

/-- Every class has a name, and its segments have no dots in themselves. -/
def PlainNames (store : Store) : Prop :=
  ∀ definition ∈ store.classes.toList, definition.name.segments ≠ [] ∧ definition.name.Plain

instance (store : Store) : Decidable store.PlainNames :=
  inferInstanceAs (Decidable (∀ definition ∈ store.classes.toList, _))

theorem PlainNames.of_name? (plain : store.PlainNames) (named : store.name? id = some name) :
    name.segments ≠ [] ∧ name.Plain := by
  obtain ⟨definition, stored, rfl⟩ := Option.map_eq_some_iff.mp named
  exact plain definition (mem_classes.mpr ⟨id, stored⟩)

/-- A class that is found by a text has the name that the text writes. -/
theorem name?_of_named? {text : String} (found : store.named? text = some id) :
    ∃ name, store.name? id = some name ∧ name.dotted = text := by
  have written := List.find?_some found
  simpa only [Option.any_eq_true, beq_iff_eq] using written

/-- A class is found by the text of its name. -/
theorem lookup?_dotted (distinct : store.DistinctNames) (plain : store.PlainNames)
    (named : store.name? id = some name) : store.lookup? name.dotted = some id := by
  have listed : id ∈ store.ids := by
    obtain ⟨definition, stored, -⟩ := Option.map_eq_some_iff.mp named
    simp [mem_ids, stored]
  have answered : (store.named? name.dotted).isSome := by
    refine List.find?_isSome.mpr ⟨id, List.mem_reverse.mpr listed, ?_⟩
    simp [named]
  obtain ⟨found, hfound⟩ := Option.isSome_iff_exists.mp answered
  obtain ⟨other, hother, same⟩ := name?_of_named? hfound
  obtain ⟨someName, plainName⟩ := plain.of_name? named
  obtain ⟨someOther, plainOther⟩ := plain.of_name? hother
  obtain rfl : other = name := dotted_inj plainOther plainName someOther someName same
  obtain rfl : found = id := distinct.eq hother named
  simp [lookup?, hfound]

/-- The text of a name leads to a class of that name, or else to one in `java.lang` if the name is
simple. -/
theorem name?_of_lookup? (plain : store.PlainNames) (whole : name.Plain)
    (nonempty : name.segments ≠ []) (found : store.lookup? name.dotted = some id) :
    store.name? id = some name ∨ store.name? id = some ⟨["java", "lang", name.simple]⟩ := by
  unfold lookup? at found
  split at found
  next first =>
    cases found
    obtain ⟨other, hother, same⟩ := name?_of_named? first
    obtain ⟨someOther, plainOther⟩ := plain.of_name? hother
    exact .inl (dotted_inj plainOther whole someOther nonempty same ▸ hother)
  next =>
    split at found
    · cases found
    next simple =>
      have simple : '.' ∉ name.dotted.toList := by simpa using simple
      rw [dotted_eq_simple simple] at found simple
      obtain ⟨other, hother, same⟩ := name?_of_named? found
      obtain ⟨someOther, plainOther⟩ := plain.of_name? hother
      have text : other.dotted = (⟨["java", "lang", name.simple]⟩ : QualifiedName).dotted :=
        same.trans (dotted_inJavaLang name.simple).symm
      have fallback : (⟨["java", "lang", name.simple]⟩ : QualifiedName).Plain := by
        simp only [Plain, List.mem_cons, List.not_mem_nil, or_false]
        rintro segment (rfl | rfl | rfl)
        · decide
        · decide
        · exact simple
      exact .inr (dotted_inj plainOther fallback someOther (by simp) text ▸ hother)

/-- What the text of a name leads to has its simple name. -/
theorem simpleName_of_lookup? (plain : store.PlainNames) (whole : name.Plain)
    (nonempty : name.segments ≠ []) (found : store.lookup? name.dotted = some id) :
    ∃ definition, store.class? id = some definition ∧ definition.simpleName = name.simple := by
  rcases name?_of_lookup? plain whole nonempty found with named | named <;>
    obtain ⟨definition, stored, named⟩ := Option.map_eq_some_iff.mp named
  · exact ⟨definition, stored, by rw [ClassDef.simpleName, named]⟩
  · exact ⟨definition, stored, by rw [ClassDef.simpleName, named]; rfl⟩

/-! ## Texts

What is looked up is a text, whatever the segments of the names are. -/

/-- The names of the classes as they are written, in the order of their places. -/
def texts (store : Store) : List String :=
  store.classes.toList.map fun definition => definition.name.dotted

/-- The name of a class is written so. -/
def IsCalled (store : Store) (id : ClassId) (text : String) : Prop :=
  ∃ name, store.name? id = some name ∧ name.dotted = text

/-- The text of a class stands at its place in the list of all texts. -/
theorem isCalled_iff_texts {text : String} :
    store.IsCalled id text ↔ store.texts[id]? = some text := by
  simp [IsCalled, texts, name?, class?]

/-- No two classes have names that are written alike. -/
def DistinctTexts (store : Store) : Prop := store.texts.Nodup

/-- Where the texts differ, two classes called the same are the same. -/
theorem DistinctTexts.eq (distinct : store.DistinctTexts) {first second : ClassId} {text : String}
    (hfirst : store.IsCalled first text) (hsecond : store.IsCalled second text) :
    first = second := by
  rw [isCalled_iff_texts] at hfirst hsecond
  obtain ⟨inside, -⟩ := List.getElem?_eq_some_iff.mp hfirst
  exact (List.getElem?_inj inside distinct).mp (hfirst.trans hsecond.symm)

theorem not_isCalled_of_texts {text : String} (absent : text ∉ store.texts) (id : ClassId) :
    ¬ store.IsCalled id text :=
  fun called => absent (List.mem_of_getElem? (isCalled_iff_texts.mp called))

/-- No class is found exactly if none is called so. -/
theorem named?_eq_none_iff {text : String} :
    store.named? text = none ↔ ∀ id, ¬ store.IsCalled id text := by
  constructor
  · rintro nothing id ⟨name, named, written⟩
    have stored : id ∈ store.ids := by
      obtain ⟨definition, stored, -⟩ := Option.map_eq_some_iff.mp named
      simp [mem_ids, stored]
    have other := List.find?_eq_none.mp nothing id (List.mem_reverse.mpr stored)
    exact other (by simp [named, written])
  · intro absent
    cases found : store.named? text with
    | none => rfl
    | some id => exact absurd (name?_of_named? found) (absent id)

/-- A class is found by the text of its name. -/
theorem IsCalled.named? (distinct : store.DistinctTexts) {text : String}
    (called : store.IsCalled id text) : store.named? text = some id := by
  cases found : store.named? text with
  | none => exact absurd called (named?_eq_none_iff.mp found id)
  | some other => rw [distinct.eq (name?_of_named? found) called]

theorem IsCalled.lookup? (distinct : store.DistinctTexts) {text : String}
    (called : store.IsCalled id text) : store.lookup? text = some id := by
  simp [Store.lookup?, called.named? distinct]

/-- Of several classes that are called so, the text leads to the latest. -/
theorem IsCalled.exists_latest {text : String} (called : store.IsCalled id text) :
    ∃ latest, store.lookup? text = some latest ∧ store.IsCalled latest text ∧
      ∀ other, store.IsCalled other text → other ≤ latest := by
  cases found : store.named? text with
  | none => exact absurd called (named?_eq_none_iff.mp found id)
  | some latest =>
    refine ⟨latest, by rw [Store.lookup?, found], name?_of_named? found, ?_⟩
    rintro other ⟨name, named, written⟩
    have stored : other ∈ store.ids.reverse := by
      obtain ⟨definition, stored, -⟩ := Option.map_eq_some_iff.mp named
      exact List.mem_reverse.mpr (mem_ids.mpr (by rw [stored]; rfl))
    -- the ids are gone through from the last to the first
    obtain ⟨-, later, earlier, parts, passed⟩ := List.find?_eq_some_iff_append.mp found
    have downward : store.ids.reverse.Pairwise fun first second => second < first :=
      List.pairwise_reverse.mpr List.pairwise_lt_range
    rw [parts] at stored downward
    rcases List.mem_append.mp stored with before | after
    · have refused := passed other before
      rw [named, Option.any_some, written, beq_self_eq_true] at refused
      exact absurd refused (by decide)
    · rcases List.mem_cons.mp after with rfl | after
      · exact Nat.le_refl _
      · have both := (List.pairwise_append.mp downward).2.1
        exact Nat.le_of_lt (List.rel_of_pairwise_cons both after)

/-- What a text leads to is called by it, in full or without the `java.lang` before it. -/
theorem isCalled_of_lookup? {text : String} (found : store.lookup? text = some id) :
    store.IsCalled id text ∨ store.IsCalled id ("java.lang." ++ text) := by
  unfold lookup? at found
  split at found
  next other named =>
    cases found
    exact .inl (name?_of_named? named)
  next =>
    split at found
    · cases found
    · exact .inr (name?_of_named? found)

/-- A text that no class is called by leads to `java.lang`, if it is a simple name. -/
theorem lookup?_of_absent {text : String} (absent : ∀ id, ¬ store.IsCalled id text)
    (whole : '.' ∉ text.toList) : store.lookup? text = store.named? ("java.lang." ++ text) := by
  simp [lookup?, named?_eq_none_iff.mpr absent, whole]

/-- A text with a dot leads to nothing but a class that is called by it. -/
theorem lookup?_of_dot {text : String} (dot : '.' ∈ text.toList) :
    store.lookup? text = store.named? text := by
  unfold lookup?
  cases store.named? text <;> simp [dot]

end Store

end CodeAssist
