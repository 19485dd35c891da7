import CodeAssist.Settings.Redaction
import Mathlib.Data.List.Basic
/-!
# What redaction takes out

The first pass takes out quotations. One is found to its closing quote whatever stands inside, as
long as quotes and backslashes stand there behind a backslash (`replaceQuotations_quotation`), and a
text without quotes is left as it is (`replaceQuotations_append`).

The second pass takes out what stands in backticks, but only where *one word* announces it. The
value behind `invalid type: integer` goes (`replaceAnnounced_value`); behind two words, as in
`invalid type: floating point`, it stays (`announcement?_words`, `replaceAnnounced_append`).
-/

namespace CodeAssist

namespace Redaction

variable {before body word value : List Char}

/-! ## Quotations -/

/-- The inside of a quotation: quotes and backslashes stand behind a backslash, and no line break
does. -/
inductive Inside (quote : Char) : List Char → Prop
  | nil : Inside quote []
  | plain {c : Char} {body : List Char} (notQuote : c ≠ quote) (notMark : c ≠ '\\')
      (more : Inside quote body) : Inside quote (c :: body)
  | escaped {c : Char} {body : List Char} (oneLine : c ≠ '\n') (more : Inside quote body) :
      Inside quote ('\\' :: c :: body)

theorem Inside.append {quote : Char} {other : List Char} (first : Inside quote body)
    (second : Inside quote other) : Inside quote (body ++ other) := by
  induction first with
  | nil => exact second
  | plain notQuote notMark _ ih => exact .plain notQuote notMark ih
  | escaped oneLine _ ih => exact .escaped oneLine ih

/-- A quotation ends at the first quote that is not inside it. -/
theorem quotationLength?_of_inside {quote : Char} (proper : quote ≠ '\\')
    (inside : Inside quote body) (rest : List Char) :
    quotationLength? quote (body ++ quote :: rest) = some (body.length + 1) := by
  -- a character that is no backslash is read by itself
  have single : ∀ c text, c ≠ '\\' → quotationLength? quote (c :: text) =
      if c = quote then some 1
      else if c = '\\' then none
      else (quotationLength? quote text).map (· + 1) := by
    intro c text notMark
    rw [quotationLength?.eq_3]
    rintro _ _ rfl
    exact absurd rfl notMark
  induction inside with
  | nil => rw [List.nil_append, single _ _ proper, if_pos rfl, List.length_nil]
  | @plain c body notQuote notMark _ ih =>
    rw [List.cons_append, single _ _ notMark, if_neg notQuote, if_neg notMark, ih]
    rfl
  | @escaped c body oneLine _ ih =>
    rw [List.cons_append, List.cons_append, quotationLength?, if_neg oneLine, ih]
    rfl

/-- What is still to be passed over is passed over. -/
theorem replaceQuotations_length (passed rest : List Char) :
    replaceQuotations passed.length (passed ++ rest) = replaceQuotations 0 rest := by
  induction passed with
  | nil => rfl
  | cons c passed ih => rw [List.length_cons, List.cons_append, replaceQuotations, ih]

/-- A quotation is replaced as a whole, whatever its inside is. -/
theorem replaceQuotations_quotation (inside : Inside '"' body) (rest : List Char) :
    replaceQuotations 0 ('"' :: (body ++ '"' :: rest)) = redacted ++ replaceQuotations 0 rest := by
  have found := quotationLength?_of_inside (by decide) inside rest
  have passed := replaceQuotations_length (body ++ ['"']) rest
  rw [List.length_append, List.length_singleton, List.append_assoc, List.singleton_append] at passed
  rw [replaceQuotations, if_pos (.inl rfl), found]
  dsimp only
  rw [passed]

/-- A text without quotes. -/
def Unquoted (text : List Char) : Prop := ∀ c ∈ text, c ≠ '"' ∧ c ≠ '\''

instance (text : List Char) : Decidable (Unquoted text) :=
  List.decidableBAll (fun c => c ≠ '"' ∧ c ≠ '\'') text

theorem Unquoted.append {text other : List Char} (first : Unquoted text) (second : Unquoted other) :
    Unquoted (text ++ other) := by
  intro c mem
  rcases List.mem_append.mp mem with mem | mem
  · exact first c mem
  · exact second c mem

/-- A text without quotes is left as it is, and what follows is read on its own. -/
theorem replaceQuotations_append (unquoted : Unquoted before) (rest : List Char) :
    replaceQuotations 0 (before ++ rest) = before ++ replaceQuotations 0 rest := by
  induction before with
  | nil => rfl
  | cons c before ih =>
    have bare : ¬ (c = '"' ∨ c = '\'') := not_or.mpr (unquoted c List.mem_cons_self)
    have more : Unquoted before := fun d mem => unquoted d (List.mem_cons_of_mem c mem)
    rw [List.cons_append, replaceQuotations, if_neg bare, ih more, List.cons_append]

/-- A text in double quotes. -/
def IsQuotation (text : String) : Prop :=
  ∃ body, Inside '"' body ∧ text.toList = '"' :: (body ++ ['"'])

/-- Behind a text without quotes one quotation is as good as another. -/
theorem redact_quotation {start quotation other : String} (unquoted : Unquoted start.toList)
    (first : IsQuotation quotation) (second : IsQuotation other) (rest : String) :
    redact (start ++ quotation ++ rest) = redact (start ++ other ++ rest) := by
  have shown : ∀ text, IsQuotation text →
      replaceQuotations 0 (start ++ text ++ rest).toList =
        start.toList ++ (redacted ++ replaceQuotations 0 rest.toList) := by
    rintro text ⟨body, inside, written⟩
    rw [String.toList_append, String.toList_append, written, List.append_assoc, List.cons_append,
      List.append_assoc, List.singleton_append, replaceQuotations_append unquoted,
      replaceQuotations_quotation inside]
  rw [redact, redact, shown quotation first, shown other second]

/-! ## Announcements -/

/-- The phrase that tells of a value of the wrong kind. -/
def wrongKind : List Char := "invalid type: ".toList

theorem announcements_eq :
    announcements =
      [('u' :: "nknown field".toList, false), ('u' :: "nknown variant".toList, false),
       (wrongKind, true), ('i' :: 'n' :: 'v' :: "alid value: ".toList, true)] :=
  rfl

theorem isWordChar_blank : isWordChar ' ' = false := by decide +kernel

/-- Behind the phrase stands a word, and then, if it announces a value, a backtick. -/
theorem announcement?_wrongKind (letters : ∀ c ∈ word, isWordChar c = true) (nonempty : word ≠ [])
    (rest : List Char) :
    announcement? (wrongKind ++ (word ++ ' ' :: rest)) =
      (Text.after? ['`'] rest).map fun value => (wrongKind ++ word, value) := by
  have reading : (word ++ ' ' :: rest).takeWhile isWordChar = word := by
    rw [List.takeWhile_append_of_pos letters,
      List.takeWhile_cons_of_neg (by rw [isWordChar_blank]; exact Bool.false_ne_true),
      List.append_nil]
  have empty : word.isEmpty = false := by simpa using nonempty
  have unknown : ∀ lead, Text.after? ('u' :: lead) (wrongKind ++ (word ++ ' ' :: rest)) = none :=
    fun lead => Text.after?_cons_of_ne (by decide) lead _
  have behind : Text.after? wrongKind (wrongKind ++ (word ++ ' ' :: rest)) =
      some (word ++ ' ' :: rest) := Text.after?_append wrongKind _
  have invalidValue : Text.after? ('i' :: 'n' :: 'v' :: "alid value: ".toList)
      (wrongKind ++ (word ++ ' ' :: rest)) = none := rfl
  have cut : Text.after? [' ', '`'] ((word ++ ' ' :: rest).drop word.length) =
      Text.after? ['`'] rest := by
    rw [List.drop_left, Text.after?, if_pos rfl]
  simp only [announcement?, announcements_eq, List.findSome?_cons, List.findSome?_nil, unknown,
    behind, invalidValue, Option.bind_eq_bind, Option.bind_none, Option.bind_some, if_true, reading,
    empty, Bool.false_eq_true, and_false, if_false, cut, Option.pure_def]
  cases Text.after? ['`'] rest <;> rfl

/-- Two words announce nothing. -/
theorem announcement?_words (letters : ∀ c ∈ word, isWordChar c = true) (nonempty : word ≠ [])
    {c : Char} (other : c ≠ '`') (rest : List Char) :
    announcement? (wrongKind ++ (word ++ ' ' :: c :: rest)) = none := by
  rw [announcement?_wrongKind letters nonempty, Text.after?_cons_of_ne other.symm, Option.map_none]

/-- An announcement begins like `unknown` or like `invalid`. -/
theorem announcement?_eq_none {text : List Char}
    (unknown : ∀ lead, Text.after? ('u' :: lead) text = none)
    (invalid : ∀ lead, Text.after? ('i' :: 'n' :: 'v' :: lead) text = none) :
    announcement? text = none := by
  have wrongKind_eq : wrongKind = 'i' :: 'n' :: 'v' :: "alid type: ".toList := rfl
  simp only [announcement?, announcements_eq, wrongKind_eq, List.findSome?_cons,
    List.findSome?_nil, unknown, invalid, Option.bind_eq_bind, Option.bind_none]

/-- Where no announcement begins, a character stays. -/
theorem replaceAnnounced_cons {c : Char} {text : List Char} (silent : announcement? (c :: text) = none) :
    replaceAnnounced 0 (c :: text) = c :: replaceAnnounced 0 text := by
  rw [replaceAnnounced, announced?, silent]
  rfl

/-- Whether no announcement begins in a text, whatever follows it. -/
def isQuiet : List Char → Bool
  | [] => true
  | 'i' :: c :: d :: rest => (c != 'n' || d != 'v') && isQuiet (c :: d :: rest)
  | c :: rest => c != 'i' && c != 'u' && isQuiet rest

/-- A quiet text is left as it is by the second pass. -/
theorem replaceAnnounced_append (quiet : isQuiet before = true) (rest : List Char) :
    replaceAnnounced 0 (before ++ rest) = before ++ replaceAnnounced 0 rest := by
  fun_induction isQuiet before with
  | case1 => rfl
  | case2 c d more ih =>
    obtain ⟨other, quiet⟩ := Bool.and_eq_true_iff.mp quiet
    have silent : announcement? ('i' :: (c :: d :: more ++ rest)) = none := by
      refine announcement?_eq_none (fun lead => Text.after?_cons_of_ne (by decide) lead _) ?_
      intro lead
      rw [Text.after?, if_pos rfl, List.cons_append, List.cons_append]
      by_cases same : c = 'n'
      · have differ : 'v' ≠ d := by
          rintro rfl
          simp [same] at other
        rw [Text.after?, if_pos same.symm, Text.after?_cons_of_ne differ]
      · rw [Text.after?_cons_of_ne (Ne.symm same)]
    rw [List.cons_append, replaceAnnounced_cons silent, ih quiet]
    rfl
  | case3 c more _ ih =>
    simp only [Bool.and_eq_true, bne_iff_ne] at quiet
    obtain ⟨⟨notI, notU⟩, quiet⟩ := quiet
    have silent : announcement? (c :: (more ++ rest)) = none :=
      announcement?_eq_none (fun lead => Text.after?_cons_of_ne notU.symm lead _)
        (fun lead => Text.after?_cons_of_ne notI.symm _ _)
    rw [List.cons_append, replaceAnnounced_cons silent, ih quiet, List.cons_append]

/-- Without the first letters of the announcements a text is quiet. -/
theorem isQuiet_of_forall {text : List Char} (other : ∀ c ∈ text, c ≠ 'i' ∧ c ≠ 'u') :
    isQuiet text = true := by
  induction text with
  | nil => rfl
  | cons c text ih =>
    obtain ⟨notI, notU⟩ := other c List.mem_cons_self
    rw [isQuiet.eq_3 _ _ (by rintro _ _ _ rfl; exact absurd rfl notI),
      ih fun d mem => other d (List.mem_cons_of_mem c mem)]
    simp [notI, notU]

/-- What is still to be passed over is passed over. -/
theorem replaceAnnounced_length (passed rest : List Char) :
    replaceAnnounced passed.length (passed ++ rest) = replaceAnnounced 0 rest := by
  induction passed with
  | nil => rfl
  | cons c passed ih => rw [List.length_cons, List.cons_append, replaceAnnounced, ih]

/-- What an announced value ends with is the end of what is passed over. -/
theorem replaceAnnounced_of_announced {announcement passed rest : List Char}
    (nonempty : passed ≠ [])
    (found : announced? (passed ++ rest) = some (announcement, passed.length)) :
    replaceAnnounced 0 (passed ++ rest) =
      announcement ++ " `".toList ++ redacted ++ '`' :: replaceAnnounced 0 rest := by
  cases passed with
  | nil => exact absurd rfl nonempty
  | cons c passed =>
    rw [List.cons_append] at found ⊢
    rw [replaceAnnounced, found]
    dsimp only
    rw [List.length_cons, Nat.add_sub_cancel, replaceAnnounced_length]

/-- The value that one word announces is replaced, whatever it is. -/
theorem replaceAnnounced_value (letters : ∀ c ∈ word, isWordChar c = true) (nonempty : word ≠ [])
    (inside : '`' ∉ value) (rest : List Char) :
    replaceAnnounced 0 (wrongKind ++ (word ++ ' ' :: '`' :: (value ++ '`' :: rest))) =
      wrongKind ++ word ++ " `".toList ++ redacted ++ '`' :: replaceAnnounced 0 rest := by
  have cut : wrongKind ++ (word ++ ' ' :: '`' :: (value ++ '`' :: rest)) =
      (wrongKind ++ word ++ [' ', '`'] ++ value ++ ['`']) ++ rest := by
    simp only [List.append_assoc, List.cons_append, List.nil_append]
  have reading : (value ++ '`' :: rest).takeWhile (· != '`') = value := by
    rw [List.takeWhile_append_of_pos, List.takeWhile_cons_of_neg (by simp), List.append_nil]
    intro c mem
    exact bne_iff_ne.mpr (fun same => inside (same ▸ mem))
  have found := announcement?_wrongKind letters nonempty ('`' :: (value ++ '`' :: rest))
  rw [Text.after?, if_pos rfl, Text.after?, Option.map_some, cut] at found
  rw [cut]
  refine replaceAnnounced_of_announced (by simp) ?_
  rw [announced?, found]
  simp [reading]
  omega

end Redaction

end CodeAssist
