import CodeAssist.Json.Draft
import CodeAssist.Json.Printer
import Mathlib.Data.List.Basic
/-!
# What is written is read back

The text of a value, in a layout that has only blanks between lexemes, is read into the draft in
which nothing is wrong (`scanValue_write`). Strings may hold any character. Numbers have to be
integers that an integer literal can spell (`Exact`): any other literal is kept as written, and
nothing says that it was written as the grammar asks.

Reading is bounded by fuel. The induction is over the value, and carries the bound that the text
itself gives: twice its length is enough.
-/

namespace CodeAssist.Json

/-! ## Strings -/

/-- What a character is written with. -/
def unitOf (c : Char) : StringUnit :=
  if c.toNat < 0x20 ∧ c ∉ ['\x08', '\x0c', '\n', '\r', '\t'] then .unit c.toNat else .char c

/-- An escape with two hexadecimal digits is read as the number it was written for. -/
theorem hexUnit?_hexDigit : ∀ n < 0x20,
    hexUnit? '0' '0' (hexDigit (n / 16)) (hexDigit (n % 16)) = some n := by
  decide

/-- The step: an escaped character is read as one unit. -/
theorem scanString_escape (c : Char) (text : List Char) :
    scanString (escape c ++ text) =
      (unitOf c :: (scanString text).1, (scanString text).2) := by
  by_cases quote : c = '"'
  · subst quote; rfl
  by_cases backslash : c = '\\'
  · subst backslash; rfl
  by_cases backspace : c = '\x08'
  · subst backspace; rfl
  by_cases formFeed : c = '\x0c'
  · subst formFeed; rfl
  by_cases newline : c = '\n'
  · subst newline; rfl
  by_cases carriage : c = '\r'
  · subst carriage; rfl
  by_cases tab : c = '\t'
  · subst tab; rfl
  by_cases control : c.toNat < 0x20
  · have unit : unitOf c = .unit c.toNat := by
      simp [unitOf, control, backspace, formFeed, newline, carriage, tab]
    simp only [escape, quote, backslash, backspace, formFeed, newline, carriage, tab, control,
      ↓reduceIte, List.cons_append, List.nil_append, scanString, hexUnit?_hexDigit _ control, unit]
  · have char : unitOf c = .char c := by
      simp [unitOf, control]
    have plain : escape c = [c] := by
      simp only [escape, quote, backslash, backspace, formFeed, newline, carriage, tab, control,
        ↓reduceIte]
    rw [plain, List.singleton_append, scanString.eq_def]
    split <;> rename_i same <;> cases same
    all_goals first
      | exact absurd rfl quote
      | exact absurd rfl backslash
      | simp only [if_neg control, char]

/-- A quoted text is read to its closing quote. -/
theorem scanString_flatMap_escape (text rest : List Char) :
    scanString (text.flatMap escape ++ '"' :: rest) = (text.map unitOf, .ok rest) := by
  induction text with
  | nil => rfl
  | cons c text ih =>
    rw [List.flatMap_cons, List.append_assoc, scanString_escape, ih, List.map_cons]

/-- A unit that is no surrogate stands for itself. -/
theorem joinUnits_unit (stop : Fault) {code : Nat} (low : code < 0x20) (units : List StringUnit) :
    joinUnits stop (.unit code :: units) =
      (joinUnits stop units).map (Char.ofNat code :: ·) := by
  have high : isHighSurrogate code = false := by
    simp only [isHighSurrogate, Bool.and_eq_false_iff, decide_eq_false_iff_not]
    omega
  have half : isLowSurrogate code = false := by
    simp only [isLowSurrogate, Bool.and_eq_false_iff, decide_eq_false_iff_not]
    omega
  match units with
  | [] => simp [joinUnits, high, half, Except.map]
  | .unit _ :: _ => simp [joinUnits, high, half]
  | .char _ :: _ => simp [joinUnits, high, half]

/-- A text is joined from the units of its characters as it was. -/
theorem joinUnits_map_unitOf (stop : Fault) (text : List Char) :
    joinUnits stop (text.map unitOf) = .ok text := by
  induction text with
  | nil => rfl
  | cons c text ih =>
    rw [List.map_cons]
    by_cases control : c.toNat < 0x20 ∧ c ∉ ['\x08', '\x0c', '\n', '\r', '\t']
    · rw [unitOf, if_pos control, joinUnits_unit stop control.1, ih, Char.ofNat_toNat]
      rfl
    · rw [unitOf, if_neg control, joinUnits, ih]
      rfl

/-- A quoted text is read back. -/
theorem scanQuoted_quote (text : String) (rest : List Char) :
    scanQuoted (text.toList.flatMap escape ++ '"' :: rest) = .ok (.ok text, rest) := by
  rw [scanQuoted, scanString_flatMap_escape]
  simp [joinUnits_map_unitOf, Except.map]

/-! ## Numbers -/

/-- What may follow a number: nothing that would carry it on. -/
def Stops (text : List Char) : Prop :=
  ∀ c ∈ text.head?, c.isDigit = false ∧ c ∉ ['.', 'e', 'E']

/-- The digits of a number do not start with a zero that another digit follows. -/
theorem toDigits_ne_zero_cons (n : Nat) (c : Char) (text : List Char) :
    Nat.toDigits 10 n ≠ '0' :: c :: text := by
  have digit : ∀ n < 10, 0 < n → [n.digitChar].head? ≠ some '0' := by decide
  have positive : ∀ n, 0 < n → (Nat.toDigits 10 n).head? ≠ some '0' := by
    intro n
    induction n using Nat.strongRecOn with
    | ind n ih =>
      intro pos
      by_cases small : n < 10
      · rw [Nat.toDigits_of_lt_base small]
        exact digit n small pos
      · rw [Nat.toDigits_of_base_le (by decide) (by omega),
          List.head?_append_of_ne_nil _ Nat.toDigits_ne_nil]
        exact ih (n / 10) (by omega) (by omega)
  intro same
  rcases Nat.eq_zero_or_pos n with rfl | pos
  · simp at same
  · exact positive n pos (by rw [same]; rfl)

/-- A number is read to its last digit. -/
theorem scanUnsigned_toDigits (negative : Bool) (start : List Char) (n : Nat) {rest : List Char}
    (stops : Stops rest) :
    scanUnsigned negative start (Nat.toDigits 10 n ++ rest) =
      (.number (numberOf negative (Nat.toDigits 10 n) none none false
        (start.take (start.length - rest.length))), rest) := by
  have digits : ∀ c ∈ Nat.toDigits 10 n, c.isDigit = true := fun c mem =>
    Nat.isDigit_of_mem_toDigits (by decide) (by decide) mem
  have none : rest.takeWhile Char.isDigit = [] ∧ rest.dropWhile Char.isDigit = rest := by
    cases rest with
    | nil => exact ⟨rfl, rfl⟩
    | cons c rest =>
      have other := (stops c rfl).1
      simp [other]
  unfold scanUnsigned
  rw [List.takeWhile_append_of_pos digits, List.dropWhile_append_of_pos digits, none.1, none.2,
    List.append_nil]
  dsimp only
  split
  next empty => exact absurd empty Nat.toDigits_ne_nil
  next zero => exact absurd zero (toDigits_ne_zero_cons n _ _)
  next =>
    split
    · exact absurd (stops '.' rfl).2 (by decide)
    · split
      · exact absurd (stops 'e' rfl).2 (by decide)
      · exact absurd (stops 'E' rfl).2 (by decide)
      · rfl

/-- A value whose numbers are integers that an integer literal can spell. -/
inductive Exact : Json → Prop
  | null : Exact .null
  | bool (value : Bool) : Exact (.bool value)
  | number {value : Int} (least : -9223372036854775808 ≤ value)
      (most : value < 18446744073709551616) : Exact (.number (.integer value))
  | string (value : String) : Exact (.string value)
  | array {items : List Json} (each : ∀ item ∈ items, Exact item) : Exact (.array items)
  | object {members : List (String × Json)} (each : ∀ member ∈ members, Exact member.2) :
      Exact (.object members)

/-- Decimal digits are read as the number that they write. -/
theorem digitsValue_toDigits (n : Nat) : digitsValue (Nat.toDigits 10 n) = n :=
  Nat.ofDigitChars_ten_toDigits

/-- A natural number below the limit of 64 bits is an integer. -/
theorem numberOf_ofNat {n : Nat} (small : n < 18446744073709551616) (literal : List Char) :
    numberOf false (Nat.toDigits 10 n) none none false literal = .ok (.integer n) := by
  simp [numberOf, digitsValue_toDigits, small]

/-- A negative number within the limit is an integer too. -/
theorem numberOf_negSucc {n : Nat} (small : n < 9223372036854775808) (literal : List Char) :
    numberOf true (Nat.toDigits 10 (n + 1)) none none false literal =
      .ok (.integer (Int.negSucc n)) := by
  have most : n + 1 ≤ 9223372036854775808 := small
  simp only [numberOf, digitsValue_toDigits, most]
  simp [Int.negSucc_eq]

/-! ## Layouts -/

/-- A layout that writes nothing but blanks between the lexemes. -/
structure Layout.Blank (layout : Layout) : Prop where
  newline : ∀ depth, ∀ c ∈ layout.newline depth, isSpace c = true
  colon : ∃ blanks : List Char, layout.colon = ':' :: blanks ∧ ∀ c ∈ blanks, isSpace c = true

theorem Layout.blank_pretty : Layout.pretty.Blank := by
  refine ⟨fun depth c mem => ?_, [' '], rfl, fun c mem => ?_⟩
  · rcases List.mem_cons.mp mem with rfl | mem
    · rfl
    · rw [(List.mem_replicate.mp mem).2]
      rfl
  · rw [List.mem_singleton.mp mem]
    rfl

/-- Blanks are skipped. -/
theorem skipSpace_append {blanks : List Char} (blank : ∀ c ∈ blanks, isSpace c = true)
    (text : List Char) : skipSpace (blanks ++ text) = skipSpace text :=
  List.dropWhile_append_of_pos blank

/-- Anything else is left. -/
theorem skipSpace_cons {c : Char} (other : isSpace c = false) (text : List Char) :
    skipSpace (c :: text) = c :: text := by
  simp [skipSpace, other]

/-- Behind blanks, a closing bracket ends a number. -/
theorem stops_of_blanks {blanks : List Char} (blank : ∀ c ∈ blanks, isSpace c = true) {c : Char}
    (closes : c = ']' ∨ c = '\x7d') (text : List Char) : Stops (blanks ++ c :: text) := by
  cases blanks with
  | nil =>
    rintro _ ⟨⟩
    rcases closes with rfl | rfl <;> decide
  | cons first blanks =>
    rintro _ ⟨⟩
    have space := blank first List.mem_cons_self
    simp only [isSpace, Bool.or_eq_true, beq_iff_eq] at space
    rcases space with ((rfl | rfl) | rfl) | rfl <;> decide

/-- Blanks before a value change nothing. -/
theorem scanValue_append_blanks {blanks : List Char} (blank : ∀ c ∈ blanks, isSpace c = true)
    (fuel : Nat) (text : List Char) : scanValue fuel (blanks ++ text) = scanValue fuel text := by
  cases fuel with
  | zero => rfl
  | succ fuel => rw [scanValue, scanValue, skipSpace_append blank]

/-! ## Values -/

variable {layout : Layout} {value : Json} {items : List Json} {members : List (String × Json)}

/-- A value is read back from its text, whatever the depth and whatever follows. -/
structure ReadsBack (layout : Layout) (value : Json) : Prop where
  begins : ∀ depth, ∃ c text, write layout depth value = c :: text ∧ isSpace c = false ∧ c ≠ ']'
  whole : (draft value).isWhole = true
  scan : ∀ depth fuel rest, 2 * (write layout depth value).length + 1 ≤ fuel → Stops rest →
    scanValue fuel (write layout depth value ++ rest) = (draft value, rest)

/-- Items are read back one after the other. -/
theorem scanItems_write (blank : layout.Blank) {item : Json} (first : ReadsBack layout item)
    (others : ∀ item ∈ items, ReadsBack layout item) (depth fuel : Nat) (blanks : List Char)
    {close : List Char} (before : ∀ c ∈ blanks, isSpace c = true)
    (closing : ∀ c ∈ close, isSpace c = true)
    (enough : 2 * ((write layout depth item).length + (writeItems layout depth items).length) + 2 ≤
      fuel) (rest : List Char) :
    scanItems fuel (blanks ++ (write layout depth item ++
        (writeItems layout depth items ++ (close ++ ']' :: rest)))) =
      (draft item :: drafts items, none, rest) := by
  induction items generalizing item fuel blanks with
  | nil =>
    obtain ⟨fuel, rfl⟩ : ∃ less, fuel = less + 1 := ⟨fuel - 1, by omega⟩
    have stops := stops_of_blanks closing (.inl rfl) rest
    simp only [writeItems, List.nil_append, List.length_nil] at enough ⊢
    rw [scanItems, scanValue_append_blanks before, first.scan depth fuel _ (by omega) stops]
    simp only [first.whole, Bool.not_true, Bool.false_eq_true, ↓reduceIte]
    rw [skipSpace_append closing, skipSpace_cons (by decide)]
    rfl
  | cons next items ih =>
    obtain ⟨fuel, rfl⟩ : ∃ less, fuel = less + 1 := ⟨fuel - 1, by omega⟩
    have stops : ∀ text, Stops (',' :: text) := by
      rintro text _ ⟨⟩
      decide
    have tail := ih (others next List.mem_cons_self)
      (fun other mem => others other (List.mem_cons_of_mem _ mem)) fuel _ (blank.newline depth)
    simp only [writeItems, List.cons_append, List.append_assoc, List.length_cons,
      List.length_append] at enough tail ⊢
    rw [scanItems, scanValue_append_blanks before,
      first.scan depth fuel _ (by omega) (stops _)]
    simp only [first.whole, Bool.not_true, Bool.false_eq_true, ↓reduceIte]
    rw [skipSpace_cons (by decide)]
    show (draft item :: (scanItems fuel _).1, (scanItems fuel _).2) = _
    rw [tail (by omega)]
    rfl

/-- One member is read back, and what follows it decides how reading goes on. -/
theorem scanMembers_member (blank : layout.Blank) {blanks : List Char}
    (before : ∀ c ∈ blanks, isSpace c = true) (name : String) {fuel : Nat} {text rest : List Char}
    {found : Draft} (scanned : scanValue fuel text = (found, rest))
    (whole : found.isWhole = true) :
    (∀ tail, skipSpace rest = '\x7d' :: tail →
      scanMembers (fuel + 1) (blanks ++ (quote name ++ (layout.colon ++ text))) =
        ([(.ok name, found)], none, tail)) ∧
    ∀ tail, skipSpace rest = ',' :: tail →
      scanMembers (fuel + 1) (blanks ++ (quote name ++ (layout.colon ++ text))) =
        ((.ok name, found) :: (scanMembers fuel tail).1, (scanMembers fuel tail).2) := by
  obtain ⟨gap, colon, spaces⟩ := blank.colon
  have opened : skipSpace (blanks ++ (quote name ++ (layout.colon ++ text))) =
      '"' :: (name.toList.flatMap escape ++ '"' :: (':' :: (gap ++ text))) := by
    rw [skipSpace_append before, quote, colon]
    simpa using skipSpace_cons (by decide) _
  have value : scanValue fuel (gap ++ text) = (found, rest) := by
    rw [scanValue_append_blanks spaces, scanned]
  refine ⟨fun tail after => ?_, fun tail after => ?_⟩ <;>
    simp only [scanMembers, opened, scanQuoted_quote, skipSpace_cons (c := ':') (by decide), value,
      whole, after, Bool.not_true, Bool.false_eq_true, ↓reduceIte]

/-- Members are read back one after the other. -/
theorem scanMembers_write (blank : layout.Blank) (name : String) (first : ReadsBack layout value)
    (others : ∀ member ∈ members, ReadsBack layout member.2) (depth fuel : Nat)
    (blanks : List Char) {close : List Char} (before : ∀ c ∈ blanks, isSpace c = true)
    (closing : ∀ c ∈ close, isSpace c = true)
    (enough : 2 * ((write layout depth value).length +
      (writeMembers layout depth members).length) + 2 ≤ fuel) (rest : List Char) :
    scanMembers fuel (blanks ++ (quote name ++ (layout.colon ++ (write layout depth value ++
        (writeMembers layout depth members ++ (close ++ '\x7d' :: rest)))))) =
      ((.ok name, draft value) :: memberDrafts members, none, rest) := by
  induction members generalizing name value fuel blanks with
  | nil =>
    obtain ⟨fuel, rfl⟩ : ∃ less, fuel = less + 1 := ⟨fuel - 1, by omega⟩
    have stops := stops_of_blanks closing (.inr rfl) rest
    have scanned := first.scan depth fuel _ (by omega) stops
    refine (scanMembers_member blank before name scanned first.whole).1 rest ?_
    rw [skipSpace_append closing, skipSpace_cons (by decide)]
  | cons next members ih =>
    obtain ⟨fuel, rfl⟩ : ∃ less, fuel = less + 1 := ⟨fuel - 1, by omega⟩
    obtain ⟨nextName, nextValue⟩ := next
    simp only [writeMembers, List.cons_append, List.append_assoc, List.length_cons,
      List.length_append] at enough ⊢
    have stops : ∀ text, Stops (',' :: text) := by
      rintro text _ ⟨⟩
      decide
    have scanned := fun text => first.scan depth fuel _ (by omega) (stops text)
    have second : ReadsBack layout nextValue := others _ List.mem_cons_self
    rw [(scanMembers_member blank before name (scanned _) first.whole).2 _
        (skipSpace_cons (by decide) _),
      ih nextName second (fun other mem => others other (List.mem_cons_of_mem _ mem)) fuel _
        (blank.newline depth) (by omega)]
    rfl

/-- What reads back is written whole. -/
theorem allWhole_drafts (each : ∀ item ∈ items, ReadsBack layout item) :
    Draft.allWhole (drafts items) = true := by
  induction items with
  | nil => rfl
  | cons item items ih =>
    simp only [drafts, Draft.allWhole, (each item List.mem_cons_self).whole, Bool.true_and]
    exact ih fun other mem => each other (List.mem_cons_of_mem _ mem)

theorem allMembersWhole_memberDrafts (each : ∀ member ∈ members, ReadsBack layout member.2) :
    Draft.allMembersWhole (memberDrafts members) = true := by
  induction members with
  | nil => rfl
  | cons member members ih =>
    simp only [memberDrafts, Draft.allMembersWhole, (each member List.mem_cons_self).whole,
      Bool.true_and]
    exact ih fun other mem => each other (List.mem_cons_of_mem _ mem)

/-- Behind an opening bracket the items are read, unless it is closed at once. -/
theorem scanValue_bracket {fuel : Nat} {c : Char} {text rest : List Char}
    (opened : skipSpace text = c :: rest) (item : c ≠ ']') :
    scanValue (fuel + 1) ('[' :: text) =
      (.array (scanItems fuel (c :: rest)).1 (scanItems fuel (c :: rest)).2.1,
        (scanItems fuel (c :: rest)).2.2) := by
  simp only [scanValue, skipSpace_cons (c := '[') (by decide), opened]
  split
  next nothing => cases nothing
  next closed => exact absurd (List.cons.inj closed).1 item
  next => rfl

/-- Behind an opening brace the members are read, unless it is closed at once. -/
theorem scanValue_brace {fuel : Nat} {c : Char} {text rest : List Char}
    (opened : skipSpace text = c :: rest) (member : c ≠ '\x7d') :
    scanValue (fuel + 1) ('\x7b' :: text) =
      (.object (scanMembers fuel (c :: rest)).1 (scanMembers fuel (c :: rest)).2.1,
        (scanMembers fuel (c :: rest)).2.2) := by
  simp only [scanValue, skipSpace_cons (c := '\x7b') (by decide), opened]
  split
  next closed => exact absurd (List.cons.inj closed).1 member
  next => rfl

theorem isSpace_of_isDigit {c : Char} (digit : c.isDigit = true) : isSpace c = false := by
  refine Bool.eq_false_iff.mpr fun space => ?_
  simp only [isSpace, Bool.or_eq_true, beq_iff_eq] at space
  rcases space with ((rfl | rfl) | rfl) | rfl <;> exact absurd digit (by decide)

/-- A digit begins a number. -/
theorem scanValue_digit {fuel : Nat} {c : Char} {rest : List Char} (digit : c.isDigit = true) :
    scanValue (fuel + 1) (c :: rest) = scanUnsigned false (c :: rest) (c :: rest) := by
  simp only [scanValue, skipSpace_cons (isSpace_of_isDigit digit)]
  split <;> rename_i same <;> cases same
  all_goals first
    | exact absurd digit (by decide)
    | exact if_pos digit

namespace ReadsBack

theorem null : ReadsBack layout .null := by
  refine ⟨fun depth => ⟨'n', _, rfl, by decide, by decide⟩, rfl, fun depth fuel rest enough _ => ?_⟩
  obtain ⟨fuel, rfl⟩ : ∃ less, fuel = less + 1 := ⟨fuel - 1, by omega⟩
  rfl

theorem bool (value : Bool) : ReadsBack layout (.bool value) := by
  cases value <;>
    refine ⟨fun depth => ⟨_, _, rfl, by decide, by decide⟩, rfl,
      fun depth fuel rest enough _ => ?_⟩ <;>
    obtain ⟨fuel, rfl⟩ : ∃ less, fuel = less + 1 := ⟨fuel - 1, by omega⟩
  · rfl
  · rfl

/-- An integer without a sign. -/
theorem ofNat {n : Nat} (most : n < 18446744073709551616) :
    ReadsBack layout (.number (.integer n)) := by
  have digits : ∀ c ∈ Nat.toDigits 10 n, c.isDigit = true := fun c mem =>
    Nat.isDigit_of_mem_toDigits (by decide) (by decide) mem
  obtain ⟨c, text, same⟩ := List.exists_cons_of_ne_nil (Nat.toDigits_ne_nil (b := 10) (n := n))
  have digit : c.isDigit = true := digits c (same ▸ List.mem_cons_self)
  refine ⟨fun depth => ⟨c, text, same, ?_, ?_⟩, rfl, ?_⟩
  · exact isSpace_of_isDigit digit
  · rintro rfl
    exact absurd digit (by decide)
  · intro depth fuel rest enough stops
    obtain ⟨fuel, rfl⟩ : ∃ less, fuel = less + 1 := ⟨fuel - 1, by omega⟩
    show scanValue (fuel + 1) (Nat.toDigits 10 n ++ rest) = _
    have scanned := scanUnsigned_toDigits false (Nat.toDigits 10 n ++ rest) n stops
    rw [numberOf_ofNat most] at scanned
    rw [same, List.cons_append] at scanned ⊢
    rw [scanValue_digit digit, scanned]
    rfl

/-- An integer with a sign. -/
theorem negSucc {n : Nat} (most : n < 9223372036854775808) :
    ReadsBack layout (.number (.integer (.negSucc n))) := by
  refine ⟨fun depth => ⟨'-', _, rfl, by decide, by decide⟩, rfl, ?_⟩
  intro depth fuel rest enough stops
  obtain ⟨fuel, rfl⟩ : ∃ less, fuel = less + 1 := ⟨fuel - 1, by omega⟩
  have scanned :=
    scanUnsigned_toDigits true ('-' :: (Nat.toDigits 10 (n + 1) ++ rest)) (n + 1) stops
  rw [numberOf_negSucc most] at scanned
  exact scanned

/-- Texts read back, whatever characters they have. -/
theorem string (text : String) : ReadsBack layout (.string text) := by
  refine ⟨fun depth => ⟨'"', _, rfl, by decide, by decide⟩, rfl, ?_⟩
  intro depth fuel rest enough stops
  obtain ⟨fuel, rfl⟩ : ∃ less, fuel = less + 1 := ⟨fuel - 1, by omega⟩
  simp only [write, quote, List.cons_append, List.append_assoc, List.nil_append, scanValue,
    skipSpace_cons (c := '"') (by decide), scanQuoted_quote]
  rfl

/-- Arrays read back if their items do. -/
theorem array (blank : layout.Blank) (each : ∀ item ∈ items, ReadsBack layout item) :
    ReadsBack layout (.array items) := by
  refine ⟨fun depth => ?_, allWhole_drafts each, ?_⟩
  · cases items <;> exact ⟨'[', _, rfl, by decide, by decide⟩
  intro depth fuel rest enough stops
  obtain ⟨fuel, rfl⟩ : ∃ less, fuel = less + 1 := ⟨fuel - 1, by omega⟩
  cases items with
  | nil => rfl
  | cons item items =>
    have first := each item List.mem_cons_self
    obtain ⟨c, text, begins, other, bracket⟩ := first.begins (depth + 1)
    simp only [write, List.cons_append, List.append_assoc, List.length_cons, List.length_append,
      List.nil_append] at enough ⊢
    have scanned := scanItems_write blank first
      (fun other mem => each other (List.mem_cons_of_mem _ mem)) (depth + 1) fuel []
      (by simp) (blank.newline depth) (by omega) rest
    rw [List.nil_append, begins, List.cons_append] at scanned
    rw [begins, List.cons_append, scanValue_bracket (c := c) _ bracket, scanned]
    · rfl
    · rw [skipSpace_append (blank.newline _), skipSpace_cons other]

/-- Objects read back if the values of their members do. -/
theorem object (blank : layout.Blank) (each : ∀ member ∈ members, ReadsBack layout member.2) :
    ReadsBack layout (.object members) := by
  refine ⟨fun depth => ?_, allMembersWhole_memberDrafts each, ?_⟩
  · rcases members with _ | ⟨⟨name, value⟩, members⟩ <;>
      exact ⟨'\x7b', _, rfl, by decide, by decide⟩
  intro depth fuel rest enough stops
  obtain ⟨fuel, rfl⟩ : ∃ less, fuel = less + 1 := ⟨fuel - 1, by omega⟩
  rcases members with _ | ⟨⟨name, value⟩, members⟩
  · rfl
  · have first : ReadsBack layout value := each _ List.mem_cons_self
    simp only [write, List.cons_append, List.append_assoc, List.length_cons, List.length_append,
      List.nil_append] at enough ⊢
    have scanned := scanMembers_write blank name first
      (fun other mem => each other (List.mem_cons_of_mem _ mem)) (depth + 1) fuel []
      (by simp) (blank.newline depth) (by omega) rest
    rw [List.nil_append, quote, List.cons_append, List.cons_append] at scanned
    rw [quote, List.cons_append, List.cons_append, scanValue_brace (c := '"') _ (by decide),
      scanned]
    · rfl
    · rw [skipSpace_append (blank.newline _), skipSpace_cons (by decide)]

end ReadsBack

/-- The run: every exact value is read back from its text. -/
theorem Exact.readsBack (blank : layout.Blank) (exact : Exact value) : ReadsBack layout value := by
  induction exact with
  | null => exact .null
  | bool value => exact .bool value
  | string text => exact .string text
  | array _ each => exact .array blank each
  | object _ each => exact .object blank each
  | @number value least most =>
    cases value with
    | ofNat n => exact .ofNat (Int.ofNat_lt.mp most)
    | negSucc n => exact .negSucc (by omega)

/-- The indented text of an exact value spells the value, and nothing follows. -/
theorem Exact.scan_pretty (exact : Exact value) :
    scan value.pretty.toList = { value := draft value, trailing := false } := by
  have scanned := (exact.readsBack Layout.blank_pretty).scan 0
    (2 * (write .pretty 0 value).length + 2) [] (by omega) (by rintro _ ⟨⟩)
  rw [List.append_nil] at scanned
  simp only [scan, pretty, String.toList_ofList, scanned]
  rfl

end CodeAssist.Json
