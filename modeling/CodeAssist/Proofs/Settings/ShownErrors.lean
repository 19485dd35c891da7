import CodeAssist.Proofs.Settings.Redaction
import CodeAssist.Settings.Document
/-!
# What an error about settings tells of a value

Two documents are *alike* if they give the same keys values of the same kinds. Reading them takes
the same way: either both are read, or both are refused at the same place (`agree_readDocument`).
What is shown of the refusal is the same for every text, every integer and every truth value
(`message_string`, `message_word`). The kind of a floating-point value is written in two words, and
redaction looks for one, so the value itself is shown (`message_float`).
-/

namespace CodeAssist

/-! ## Documents that are alike -/

namespace Toml

mutual

/-- Values of the same kind, and of the same make inside. -/
inductive Alike : Toml → Toml → Prop
  | string (first second : String) : Alike (.string first) (.string second)
  | integer (first second : Int) : Alike (.integer first) (.integer second)
  | float (first second : FloatValue) : Alike (.float first) (.float second)
  | boolean (first second : Bool) : Alike (.boolean first) (.boolean second)
  | dateTime : Alike .dateTime .dateTime
  | array {first second : List Toml} (items : AlikeItems first second) :
      Alike (.array first) (.array second)
  | table {first second : List (String × Toml)} (members : AlikeMembers first second) :
      Alike (.table first) (.table second)

/-- As many values, alike one by one. -/
inductive AlikeItems : List Toml → List Toml → Prop
  | nil : AlikeItems [] []
  | cons {a b : Toml} {first second : List Toml} (value : Alike a b)
      (more : AlikeItems first second) : AlikeItems (a :: first) (b :: second)

/-- The same keys in the same order, with values that are alike. -/
inductive AlikeMembers : List (String × Toml) → List (String × Toml) → Prop
  | nil : AlikeMembers [] []
  | cons (name : String) {a b : Toml} {first second : List (String × Toml)} (value : Alike a b)
      (more : AlikeMembers first second) : AlikeMembers ((name, a) :: first) ((name, b) :: second)

end

mutual

/-- Whether two values are alike. -/
def areAlike : Toml → Toml → Bool
  | .string _, .string _ | .integer _, .integer _ | .float _, .float _ => true
  | .boolean _, .boolean _ | .dateTime, .dateTime => true
  | .array first, .array second => areItemsAlike first second
  | .table first, .table second => areMembersAlike first second
  | _, _ => false

def areItemsAlike : List Toml → List Toml → Bool
  | [], [] => true
  | a :: first, b :: second => areAlike a b && areItemsAlike first second
  | _, _ => false

def areMembersAlike : List (String × Toml) → List (String × Toml) → Bool
  | [], [] => true
  | (m, a) :: first, (n, b) :: second => m == n && areAlike a b && areMembersAlike first second
  | _, _ => false

end

mutual

/-- The test for values that are alike is sound. -/
theorem alike_of_areAlike : ∀ {a b : Toml}, areAlike a b = true → Alike a b
  | .string _, b, h => by cases b <;> simp only [areAlike, Bool.false_eq_true] at h; exact .string _ _
  | .integer _, b, h => by cases b <;> simp only [areAlike, Bool.false_eq_true] at h; exact .integer _ _
  | .float _, b, h => by cases b <;> simp only [areAlike, Bool.false_eq_true] at h; exact .float _ _
  | .boolean _, b, h => by cases b <;> simp only [areAlike, Bool.false_eq_true] at h; exact .boolean _ _
  | .dateTime, b, h => by cases b <;> simp only [areAlike, Bool.false_eq_true] at h; exact .dateTime
  | .array _, b, h => by
    cases b <;> simp only [areAlike, Bool.false_eq_true] at h
    exact .array (alikeItems_of_areItemsAlike h)
  | .table _, b, h => by
    cases b <;> simp only [areAlike, Bool.false_eq_true] at h
    exact .table (alikeMembers_of_areMembersAlike h)

theorem alikeItems_of_areItemsAlike : ∀ {first second : List Toml},
    areItemsAlike first second = true → AlikeItems first second
  | [], second, h => by
    cases second <;> simp only [areItemsAlike, Bool.false_eq_true] at h
    exact .nil
  | a :: first, second, h => by
    cases second <;> simp only [areItemsAlike, Bool.and_eq_true, Bool.false_eq_true] at h
    exact .cons (alike_of_areAlike h.1) (alikeItems_of_areItemsAlike h.2)

theorem alikeMembers_of_areMembersAlike : ∀ {first second : List (String × Toml)},
    areMembersAlike first second = true → AlikeMembers first second
  | [], second, h => by
    cases second <;> simp only [areMembersAlike, Bool.false_eq_true] at h
    exact .nil
  | (m, a) :: first, second, h => by
    cases second <;>
      simp only [areMembersAlike, Bool.and_eq_true, beq_iff_eq, Bool.false_eq_true] at h
    next member second =>
      obtain ⟨n, b⟩ := member
      obtain ⟨⟨rfl, value⟩, more⟩ := h
      exact .cons m (alike_of_areAlike value) (alikeMembers_of_areMembersAlike more)

end

/-- Two texts of documents that are alike. -/
def AlikeTexts (first second : String) : Prop :=
  ∃ members others, parse first = some members ∧ parse second = some others ∧
    AlikeMembers members others

def areTextsAlike (first second : String) : Bool :=
  match parse first, parse second with
  | some members, some others => areMembersAlike members others
  | _, _ => false

/-- So is the test for whole documents, which it reads first. -/
theorem alikeTexts_of_areTextsAlike {first second : String}
    (h : areTextsAlike first second = true) : AlikeTexts first second := by
  unfold areTextsAlike at h
  split at h
  next members others hfirst hsecond =>
    exact ⟨members, others, hfirst, hsecond, alikeMembers_of_areMembersAlike h⟩
  next => cases h

end Toml

namespace Settings

open Toml (Alike AlikeItems AlikeMembers)

/-- Two readings agree: both succeed, or both want the same where they find values that are
alike. -/
inductive Agree {α β : Type} : Except Mismatch α → Except Mismatch β → Prop
  | ok (a : α) (b : β) : Agree (.ok a) (.ok b)
  | error {first second : Mismatch} (wanted : first.wanted = second.wanted)
      (found : Alike first.found second.found) : Agree (.error first) (.error second)

/-- Readings that agree are followed by readings that agree. -/
theorem Agree.bind {α β γ δ : Type} {x : Except Mismatch α} {y : Except Mismatch β}
    {f : α → Except Mismatch γ} {g : β → Except Mismatch δ} (reading : Agree x y)
    (next : ∀ a b, Agree (f a) (g b)) : Agree (x >>= f) (y >>= g) := by
  cases reading with
  | ok a b => exact next a b
  | error wanted found => exact .error wanted found

variable {a b : Toml}

/-- A truth value is wanted and found, or what is found is told by its kind. -/
theorem agree_readFlag (alike : Alike a b) : Agree (readFlag a) (readFlag b) := by
  have found := alike
  cases alike with
  | boolean first second => exact .ok first second
  | string | integer | float | dateTime | array | table => exact .error rfl found

theorem agree_readText (alike : Alike a b) : Agree (readText a) (readText b) := by
  have found := alike
  cases alike with
  | string first second => exact .ok first second
  | boolean | integer | float | dateTime | array | table => exact .error rfl found

/-- A path is read from a text; what it is does not matter. -/
theorem agree_readPath (alike : Alike a b) : Agree (readPath a) (readPath b) := by
  have found := alike
  cases alike with
  | string first second => exact .ok first second
  | boolean | integer | float | dateTime | array | table => exact .error rfl found

/-- The first item that is no text stands at the same place in both lists. -/
theorem agree_mapM_readText {first second : List Toml} (alike : AlikeItems first second) :
    Agree (first.mapM readText) (second.mapM readText) := by
  induction first generalizing second with
  | nil =>
    cases alike
    exact .ok [] []
  | cons a first ih =>
    cases alike with
    | cons value more =>
      rw [List.mapM_cons, List.mapM_cons]
      exact (agree_readText value).bind fun _ _ => (ih more).bind fun _ _ => .ok _ _

theorem agree_readTexts (alike : Alike a b) : Agree (readTexts a) (readTexts b) := by
  have found := alike
  cases alike with
  | array items => exact agree_mapM_readText items
  | string | boolean | integer | float | dateTime | table => exact .error rfl found

/-- A key is read alike from values that are alike, whatever was read before. -/
def Key.Uniform {σ : Type} (key : Key σ) : Prop :=
  ∀ (s t : σ) {a b : Toml}, Alike a b → Agree (key.read s a) (key.read t b)

/-- Every key of the completion settings is read by the kind of its value. -/
theorem uniform_completionKeys : ∀ key ∈ completionKeys, key.Uniform := by
  intro key mem s t a b alike
  rcases List.mem_append.mp mem with flag | favorites
  · obtain ⟨flag, -, rfl⟩ := List.mem_map.mp flag
    exact (agree_readFlag alike).bind fun _ _ => .ok _ _
  · rw [List.mem_singleton.mp favorites]
    exact (agree_readTexts alike).bind fun _ _ => .ok _ _

/-- The same for the keys of the log settings. -/
theorem uniform_loggingKeys : ∀ key ∈ loggingKeys, key.Uniform := by
  intro key mem s t a b alike
  simp only [loggingKeys, List.mem_cons, List.not_mem_nil, or_false] at mem
  rcases mem with rfl | rfl | rfl | rfl
  · exact (agree_readText alike).bind fun _ _ => .ok _ _
  · exact (agree_readFlag alike).bind fun _ _ => .ok _ _
  · exact (agree_readFlag alike).bind fun _ _ => .ok _ _
  · exact (agree_readPath alike).bind fun _ _ => .ok _ _

section Sections

variable {σ : Type} {keys : List (Key σ)}

/-- The members of a section: the same keys come in the same order. -/
theorem agree_readMembers (uniform : ∀ key ∈ keys, key.Uniform)
    {first second : List (String × Toml)} (alike : AlikeMembers first second) (s t : σ) :
    Agree (readMembers keys s first) (readMembers keys t second) := by
  induction first generalizing second s t with
  | nil =>
    cases alike
    exact .ok _ _
  | cons _ first ih =>
    cases alike with
    | cons name value more =>
      rw [readMembers, readMembers]
      split
      next key found =>
        have reading := uniform key (List.mem_of_find?_eq_some found) s t value
        exact reading.bind fun s t => ih more s t
      next => exact (ih more s t).bind fun _ _ => .ok _ _

/-- A section may also be written as a list, where the positions stand for the keys. -/
theorem agree_readPositions (uniform : ∀ key ∈ keys, key.Uniform) {first second : List Toml}
    (alike : AlikeItems first second) (s t : σ) :
    Agree (readPositions keys s first) (readPositions keys t second) := by
  induction keys generalizing first second s t with
  | nil => exact .ok _ _
  | cons key keys ih =>
    cases alike with
    | nil => exact .ok _ _
    | cons value more =>
      have reading := uniform key List.mem_cons_self s t value
      exact reading.bind fun s t => ih (fun key mem => uniform key (List.mem_cons_of_mem _ mem)) more s t

/-- Either way a section is read, or what stands there is of the wrong kind in both documents. -/
theorem agree_readSection (uniform : ∀ key ∈ keys, key.Uniform) (wanted : String) (start : σ)
    (alike : Alike a b) :
    Agree (readSection keys wanted start a) (readSection keys wanted start b) := by
  have found := alike
  cases alike with
  | table members => exact agree_readMembers uniform members start start
  | array items => exact (agree_readPositions uniform items start start).bind fun _ _ => .ok _ _
  | dateTime => exact .ok _ _
  | string | boolean | integer | float => exact .error rfl found

end Sections

/-- Documents that are alike are read alike: whether and where they are refused does not depend on
their values. -/
theorem agree_readDocument {first second : List (String × Toml)}
    (alike : AlikeMembers first second) (s t : Settings) :
    Agree (readDocument s first) (readDocument t second) := by
  induction first generalizing second s t with
  | nil =>
    cases alike
    exact .ok _ _
  | cons _ first ih =>
    cases alike with
    | cons name value more =>
      -- what is read behind the first member does not depend on what was read of it
      have rest : ∀ (u v : Settings) (found other : List String),
          Agree
            (readDocument u first >>= fun read => pure (read.1, found ++ read.2))
            (readDocument v _ >>= fun read => pure (read.1, other ++ read.2)) :=
        fun u v _ _ => (ih more u v).bind fun _ _ => .ok _ _
      rw [readDocument.eq_def, readDocument.eq_def]
      dsimp only
      split
      · exact (agree_readSection uniform_completionKeys _ _ value).bind fun _ _ => rest _ _ _ _
      · exact (agree_readSection uniform_loggingKeys _ _ value).bind fun _ _ => rest _ _ _ _
      · exact rest _ _ _ _

end Settings

/-! ## What is shown of a value -/

/-- The characters of a floating-point value: digits and a point, a sign, or one of the words for
what is no finite number. -/
theorem mem_text_finite {negative : Bool} {magnitude : Double} {c : Char}
    (mem : c ∈ (FloatValue.finite negative magnitude).text) :
    c.isDigit = true ∨ c = '.' ∨ c = '-' := by
  have digit : ∀ n : Nat, c ∈ Nat.toDigits 10 n → c.isDigit = true := fun n mem =>
    Nat.isDigit_of_mem_toDigits (by decide) (by decide) mem
  have zero : ∀ n : Nat, c ∈ List.replicate n '0' → c.isDigit = true := by
    intro n mem
    rw [List.eq_of_mem_replicate mem]
    decide
  have places : c ∈ magnitude.shortest.positional → c.isDigit = true ∨ c = '.' := by
    intro mem
    unfold Decimal.positional at mem
    dsimp only at mem
    split at mem
    · simp only [List.mem_append, List.mem_cons, List.not_mem_nil, or_false] at mem
      rcases mem with (mem | mem) | rfl | rfl
      · exact .inl (digit _ mem)
      · exact .inl (zero _ mem)
      · exact .inr rfl
      · exact .inl (by decide)
    · rcases List.mem_append.mp mem with mem | mem
      · rcases List.mem_append.mp (List.mem_of_mem_take mem) with mem | mem
        · exact .inl (zero _ mem)
        · exact .inl (digit _ mem)
      · rcases List.mem_cons.mp mem with rfl | mem
        · exact .inr rfl
        · rcases List.mem_append.mp (List.mem_of_mem_drop mem) with mem | mem
          · exact .inl (zero _ mem)
          · exact .inl (digit _ mem)
  rcases List.mem_append.mp mem with mem | mem
  · split at mem
    · exact .inr (.inr (List.mem_singleton.mp mem))
    · exact absurd mem List.not_mem_nil
  · exact (places mem).imp_right .inl

/-- What is no digit, point or sign does not stand in a finite number. -/
theorem ne_of_mem_text_finite {negative : Bool} {magnitude : Double} {c d : Char}
    (mem : c ∈ (FloatValue.finite negative magnitude).text)
    (other : d.isDigit = false ∧ d ≠ '.' ∧ d ≠ '-') : c ≠ d := by
  rintro rfl
  rcases mem_text_finite mem with digit | point | sign
  · exact absurd (other.1.symm.trans digit) (by decide)
  · exact other.2.1 point
  · exact other.2.2 sign

/-- A float is written without quotation marks. -/
theorem unquoted_text (value : FloatValue) : Redaction.Unquoted value.text := by
  cases value with
  | finite negative magnitude =>
    intro c mem
    exact ⟨ne_of_mem_text_finite mem (by decide), ne_of_mem_text_finite mem (by decide)⟩
  | infinite negative => cases negative <;> decide
  | notANumber => decide

theorem isQuiet_text (value : FloatValue) : Redaction.isQuiet value.text = true := by
  cases value with
  | finite negative magnitude =>
    refine Redaction.isQuiet_of_forall fun c mem => ?_
    exact ⟨ne_of_mem_text_finite mem (by decide), ne_of_mem_text_finite mem (by decide)⟩
  | infinite negative => cases negative <;> decide
  | notANumber => decide

/-- Nothing in a quoted text ends the quotation early. -/
theorem isQuotation_quoteText (text : String) : Redaction.IsQuotation (quoteText text) := by
  refine ⟨_, ?_, String.toList_ofList⟩
  induction text.toList with
  | nil => exact .nil
  | cons c rest ih =>
    rw [List.flatMap_cons]
    refine Redaction.Inside.append ?_ ih
    split
    next marked => exact .escaped (by rcases marked with rfl | rfl <;> decide) .nil
    next bare =>
      obtain ⟨notQuote, notMark⟩ := not_or.mp bare
      split
      · exact .escaped (by decide) .nil
      · exact .plain notQuote notMark .nil

/-- Numbers are written in digits, with a sign if they are negative. -/
theorem digit_or_sign_of_mem {value : Int} {c : Char} (mem : c ∈ (toString value).toList) :
    c.isDigit = true ∨ c = '-' := by
  have digit : ∀ n : Nat, c ∈ n.repr.toList → c.isDigit = true := fun n mem =>
    Nat.isDigit_of_mem_toDigits (by decide) (by decide) (Nat.toList_repr ▸ mem)
  rw [Int.toString_eq_repr, Int.repr_eq_if] at mem
  split at mem
  · exact .inl (digit _ mem)
  · rw [String.toList_append] at mem
    rcases List.mem_append.mp mem with mem | mem
    · exact .inr (by simpa using mem)
    · exact .inl (digit _ mem)

namespace Mismatch

open Redaction

variable {value : Toml} {wanted : String}

/-- What is shown, character by character. -/
theorem message_eq {described : List Char} (written : value.describe.toList = described) :
    message ⟨value, wanted⟩ = String.ofList (replaceAnnounced 0 (replaceQuotations 0
      (wrongKind ++ described ++ (", expected ".toList ++ wanted.toList)))) := by
  have whole : fullMessage ⟨value, wanted⟩ =
      "invalid type: " ++ value.describe ++ ", expected " ++ wanted := rfl
  rw [message, redact, whole, ← written, String.toList_append, String.toList_append,
    String.toList_append, List.append_assoc _ _ wanted.toList]
  rfl

/-- A text of the wrong kind is taken out, however it is put in quotes. -/
theorem redact_string {quotation other : String} (first : IsQuotation quotation)
    (second : IsQuotation other) (wanted : String) :
    redact ("invalid type: " ++ ("string " ++ quotation) ++ ", expected " ++ wanted) =
      redact ("invalid type: " ++ ("string " ++ other) ++ ", expected " ++ wanted) := by
  have unquoted : Unquoted ("invalid type: " ++ "string ").toList := by decide
  have same := redact_quotation unquoted first second (", expected " ++ wanted)
  simpa only [String.append_assoc] using same

/-- The message about a text is the same for every text. -/
theorem message_string (first second wanted : String) :
    message ⟨.string first, wanted⟩ = message ⟨.string second, wanted⟩ :=
  redact_string (isQuotation_quoteText first) (isQuotation_quoteText second) wanted

/-- The message about a value that one word announces does not show the value. -/
theorem message_word {word text : List Char} (letters : ∀ c ∈ word, isWordChar c = true)
    (nonempty : word ≠ []) (bare : Unquoted word) (unquoted : Unquoted text) (inside : '`' ∉ text)
    (written : value.describe.toList = word ++ ' ' :: '`' :: (text ++ ['`'])) :
    message ⟨value, wanted⟩ = String.ofList (wrongKind ++ word ++ " `".toList ++ redacted ++
      '`' :: replaceAnnounced 0 (replaceQuotations 0 (", expected ".toList ++ wanted.toList))) := by
  have announced : Unquoted (wrongKind ++ (word ++ ' ' :: '`' :: (text ++ ['`']))) := by
    have mark : Unquoted [' ', '`'] := by decide
    have closing : Unquoted ['`'] := by decide
    have phrase : Unquoted wrongKind := by decide
    exact phrase.append (bare.append (mark.append (unquoted.append closing)))
  rw [message_eq written, replaceQuotations_append announced]
  generalize replaceQuotations 0 (", expected ".toList ++ wanted.toList) = rest
  have value := replaceAnnounced_value letters nonempty inside rest
  rw [← value]
  simp only [List.append_assoc, List.cons_append, List.nil_append]

/-- The message about a floating-point value shows it. -/
theorem message_float (value : FloatValue) (wanted : String) :
    message ⟨.float value, wanted⟩ = String.ofList
      (wrongKind ++ ("floating point `".toList ++ (value.text ++ ("`, expected ".toList ++
        replaceAnnounced 0 (replaceQuotations 0 wanted.toList))))) := by
  have written : (Toml.float value).describe.toList =
      "floating point `".toList ++ (value.text ++ ['`']) := by
    have described : (Toml.float value).describe =
        "floating point `" ++ String.ofList value.text ++ "`" := rfl
    rw [described, String.toList_append, String.toList_append, List.append_assoc,
      String.toList_ofList (l := value.text)]
    rfl
  have bare : Unquoted (wrongKind ++ ("floating point `".toList ++ (value.text ++ ['`'])) ++
      ", expected ".toList) := by
    have phrase : Unquoted wrongKind := by decide
    have kind : Unquoted "floating point `".toList := by decide
    have closing : Unquoted ['`'] := by decide
    have behind : Unquoted ", expected ".toList := by decide
    exact (phrase.append (kind.append ((unquoted_text value).append closing))).append behind
  -- the phrase is followed by two words, and no announcement begins behind it
  have silent : ∀ rest, replaceAnnounced 0 (wrongKind ++ ("floating point `".toList ++ rest)) =
      wrongKind ++ ("floating point `".toList ++ replaceAnnounced 0 rest) := by
    intro rest
    have letters : ∀ c ∈ "floating".toList, isWordChar c = true := List.all_eq_true.mp rfl
    have words : announcement? ('i' :: ("nvalid type: floating point `".toList ++ rest)) = none :=
      announcement?_words letters (by decide) (show 'p' ≠ '`' by decide) _
    have quiet : isQuiet "nvalid type: floating point `".toList = true := by decide
    rw [show wrongKind ++ ("floating point `".toList ++ rest) =
      'i' :: ("nvalid type: floating point `".toList ++ rest) from rfl,
      replaceAnnounced_cons words, replaceAnnounced_append quiet]
    rfl
  rw [message_eq written, ← List.append_assoc, replaceQuotations_append bare]
  generalize replaceQuotations 0 wanted.toList = rest
  have quiet : isQuiet "`, expected ".toList = true := by decide
  rw [← replaceAnnounced_append quiet, ← replaceAnnounced_append (isQuiet_text value), ← silent]
  simp only [List.append_assoc]
  rfl

/-- The message about an integer is the same for every integer. -/
theorem message_integer (first second : Int) (wanted : String) :
    message ⟨.integer first, wanted⟩ = message ⟨.integer second, wanted⟩ := by
  have letters : ∀ c ∈ "integer".toList, isWordChar c = true := List.all_eq_true.mp rfl
  have other : ∀ (value : Int) (c d : Char), c ∈ (toString value).toList →
      d.isDigit = false ∧ d ≠ '-' → c ≠ d := by
    rintro value c _ mem ⟨noDigit, noSign⟩ rfl
    rcases digit_or_sign_of_mem mem with digit | sign
    · exact absurd (noDigit.symm.trans digit) (by decide)
    · exact noSign sign
  have shown : ∀ value : Int, message ⟨.integer value, wanted⟩ = String.ofList
      (wrongKind ++ "integer".toList ++ " `".toList ++ redacted ++ '`' ::
        replaceAnnounced 0 (replaceQuotations 0 (", expected ".toList ++ wanted.toList))) := by
    intro value
    have written : (Toml.integer value).describe.toList =
        "integer".toList ++ ' ' :: '`' :: ((toString value).toList ++ ['`']) := by
      have described : (Toml.integer value).describe = "integer `" ++ toString value ++ "`" := rfl
      rw [described, String.toList_append, String.toList_append, List.append_assoc]
      rfl
    refine message_word letters (by decide) (by decide) (fun c mem => ⟨?_, ?_⟩) ?_ written
    · exact other value c _ mem (by decide)
    · exact other value c _ mem (by decide)
    · exact fun mem => other value _ _ mem (by decide) rfl
  rw [shown, shown]

/-- The message about a truth value is the same for both. -/
theorem message_boolean (first second : Bool) (wanted : String) :
    message ⟨.boolean first, wanted⟩ = message ⟨.boolean second, wanted⟩ := by
  have letters : ∀ c ∈ "boolean".toList, isWordChar c = true := List.all_eq_true.mp rfl
  have shown : ∀ value : Bool, message ⟨.boolean value, wanted⟩ = String.ofList
      (wrongKind ++ "boolean".toList ++ " `".toList ++ redacted ++ '`' ::
        replaceAnnounced 0 (replaceQuotations 0 (", expected ".toList ++ wanted.toList))) := by
    intro value
    have written : (Toml.boolean value).describe.toList =
        "boolean".toList ++ ' ' :: '`' :: ((toString value).toList ++ ['`']) := by
      cases value <;> rfl
    cases value <;>
      exact message_word letters (by decide) (by decide) (by decide) (by decide) written
  rw [shown, shown]

/-- Messages about values that are alike differ exactly if the values are floating-point values that
are written differently. -/
theorem message_eq_iff {a b : Toml} (alike : Toml.Alike a b) (wanted : String) :
    message ⟨a, wanted⟩ = message ⟨b, wanted⟩ ↔
      ∀ x y, a = .float x → b = .float y → x.text = y.text := by
  cases alike with
  | string first second =>
    exact iff_of_true (message_string first second wanted) (by rintro _ _ ⟨⟩)
  | integer first second =>
    exact iff_of_true (message_integer first second wanted) (by rintro _ _ ⟨⟩)
  | boolean first second =>
    exact iff_of_true (message_boolean first second wanted) (by rintro _ _ ⟨⟩)
  | float first second =>
    rw [message_float, message_float]
    constructor
    · rintro same _ _ ⟨⟩ ⟨⟩
      have texts := String.ofList_injective same
      exact List.append_cancel_right
        (List.append_cancel_left (List.append_cancel_left texts))
    · intro same
      rw [same first second rfl rfl]
  | dateTime => exact iff_of_true rfl (by rintro _ _ ⟨⟩)
  | array _ => exact iff_of_true rfl (by rintro _ _ ⟨⟩)
  | table _ => exact iff_of_true rfl (by rintro _ _ ⟨⟩)

end Mismatch

namespace Settings

/-- An error tells nothing of a text, an integer or a truth value. Two documents that are alike are
both read or both refused, and the messages of the refusals differ exactly if the refused values are
floating-point values that are written differently. For a text it does not matter how it is put in
quotes. -/
theorem errors_tell_only_floats {first second : String} (alike : Toml.AlikeTexts first second) :
    ((∃ a b, ofText first = .ok a ∧ ofText second = .ok b) ∨
      ∃ m n : Mismatch, ofText first = .error (.mismatch m) ∧ ofText second = .error (.mismatch n) ∧
        Toml.Alike m.found n.found ∧
        (m.message = n.message ↔
          ∀ x y, m.found = .float x → n.found = .float y → x.text = y.text)) ∧
    ∀ quotation other wanted : String,
      Redaction.IsQuotation quotation → Redaction.IsQuotation other →
      Redaction.redact ("invalid type: " ++ ("string " ++ quotation) ++ ", expected " ++ wanted) =
        Redaction.redact ("invalid type: " ++ ("string " ++ other) ++ ", expected " ++ wanted) := by
  refine ⟨?_, fun _ _ wanted quoted quoted' => Mismatch.redact_string quoted quoted' wanted⟩
  obtain ⟨members, others, hfirst, hsecond, alike⟩ := alike
  have reading := agree_readDocument alike {} {}
  rw [ofText, hfirst, ofText, hsecond]
  dsimp only
  generalize readDocument {} members = x at reading
  generalize readDocument {} others = y at reading
  cases reading with
  | ok a b => exact .inl ⟨_, _, rfl, rfl⟩
  | @error m n wanted found =>
    refine .inr ⟨m, n, rfl, rfl, found, ?_⟩
    obtain ⟨value, wish⟩ := m
    obtain ⟨value', wish'⟩ := n
    obtain rfl : wish = wish' := wanted
    exact Mismatch.message_eq_iff found wish

/-- A document that gives a flag some value. -/
def withFlag (value : String) : String := "[completion]\ncamel_case_match = " ++ value ++ "\n"

/-- The message that is shown of a document, if it is refused for a value. -/
def shownError? (text : String) : Option String :=
  match ofText text with
  | .error (.mismatch mismatch) => some mismatch.message
  | _ => none

/-- A password in place of a truth value is told like any other text. -/
theorem passwords_told_alike :
    Toml.AlikeTexts (withFlag "\"hunter2\"") (withFlag "'a\"b'") ∧
    ((∃ a b, ofText (withFlag "\"hunter2\"") = .ok a ∧ ofText (withFlag "'a\"b'") = .ok b) ∨
      ∃ m n : Mismatch, ofText (withFlag "\"hunter2\"") = .error (.mismatch m) ∧
        ofText (withFlag "'a\"b'") = .error (.mismatch n) ∧ Toml.Alike m.found n.found ∧
        (m.message = n.message ↔
          ∀ x y, m.found = .float x → n.found = .float y → x.text = y.text)) ∧
    shownError? (withFlag "\"hunter2\"") =
      some "invalid type: string <redacted>, expected a boolean" ∧
    Redaction.redact ("invalid type: " ++ ("string " ++ "\"\\t\"") ++ ", expected " ++ "a boolean") =
      Redaction.redact
        ("invalid type: " ++ ("string " ++ quoteText "hunter2") ++ ", expected " ++ "a boolean") := by
  have alike : Toml.AlikeTexts (withFlag "\"hunter2\"") (withFlag "'a\"b'") :=
    Toml.alikeTexts_of_areTextsAlike (by decide +kernel)
  have tab : Redaction.IsQuotation "\"\\t\"" := ⟨_, .escaped (by decide) .nil, rfl⟩
  obtain ⟨outcome, quoted⟩ := errors_tell_only_floats alike
  exact ⟨alike, outcome, by decide +kernel,
    quoted _ _ "a boolean" tab (isQuotation_quoteText "hunter2")⟩

/-- Two documents that differ in a floating-point value are told apart by the message, which shows
the value. -/
theorem float_shown :
    Toml.AlikeTexts (withFlag "1.5") (withFlag "2.5") ∧
    shownError? (withFlag "1.5") = some "invalid type: floating point `1.5`, expected a boolean" ∧
    shownError? (withFlag "2.5") = some "invalid type: floating point `2.5`, expected a boolean" :=
  ⟨Toml.alikeTexts_of_areTextsAlike (by decide +kernel), by decide +kernel, by decide +kernel⟩

end Settings

end CodeAssist
