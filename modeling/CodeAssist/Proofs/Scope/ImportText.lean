import CodeAssist.Scope.Import
import CodeAssist.Proofs.Text.DottedNames
/-!
# Import declarations and their texts

A declaration that can be written is *well formed*: it spells a path of identifiers, and a static
member has an owner before it. Reading is lenient. It strips the keyword, semicolons, blanks, the
word for a static import and the star in a fixed order, checks the pieces of what is left behind
their blanks, and hands all of it to a reader of names that drops more than that. Still it stores
nothing but well formed declarations (`wellFormed_of_parse`), because a piece that is an identifier
loses nothing but its blanks.

Conversely the text of a well formed declaration is read as that declaration (`parse_of_body`), with
or without the keyword and the semicolon. None of the marks that are stripped can be mistaken for a
part of the path, as no identifier holds a blank, a dot, a star or a semicolon; a package that is
called `import` or `static` is no danger, as the words are marks only with a blank behind them.
-/

namespace CodeAssist

namespace QualifiedName

variable {name owner : QualifiedName} {segment : String}

theorem parent?_child (inside : owner.segments ≠ []) :
    (owner.child segment).parent? = some owner := by
  obtain ⟨segments⟩ := owner
  cases segments with
  | nil => exact absurd rfl inside
  | cons first rest =>
    rw [parent?, child, List.dropLast_concat]

theorem last?_child : (owner.child segment).last? = some segment :=
  List.getLast?_concat

/-- A name that has a parent is its parent with the last segment. -/
theorem child_of_parent? (parent : name.parent? = some owner) (last : name.last? = some segment) :
    owner.segments ≠ [] ∧ owner.child segment = name := by
  unfold parent? at parent
  split at parent
  next => cases parent
  next some =>
    cases parent
    exact ⟨some, congrArg mk (List.dropLast_append_getLast? segment last)⟩

/-- What stands in a path is no mark of a declaration. -/
theorem IsPath.not_mark {c : Char} (path : name.IsPath) (mem : c ∈ name.dotted.toList) :
    Text.isBlank c = false ∧ c ∉ [' ', '*', ';'] := by
  have marks : [' ', '*', ';'].all (fun mark => !Text.isIdentifierPart mark) = true := by
    decide +kernel
  rcases path.mem_dotted mem with rfl | part
  · decide
  · refine ⟨Text.not_isBlank_of_isIdentifierPart part, fun mark => ?_⟩
    have outside := List.all_eq_true.mp marks c mark
    rw [part] at outside
    cases outside

theorem IsPath.dotted_ne_nil (path : name.IsPath) : name.dotted.toList ≠ [] := by
  intro nothing
  have piece : [] ∈ Text.splitAt '.' name.dotted.toList := by
    rw [nothing]
    exact List.mem_singleton_self []
  exact Text.ne_nil_of_isIdentifier (path.isIdentifier_of_mem_splitAt piece) rfl

end QualifiedName

namespace Import

variable {declaration : Import} {text blanks : List Char} {name : QualifiedName}

/-! ## What a declaration spells -/

/-- The name that is written in a declaration. -/
def path : Import → QualifiedName
  | .type path | .typesOf path | .membersOf path => path
  | .member owner name => owner.child name

def isStatic : Import → Bool
  | .type _ | .typesOf _ => false
  | .member _ _ | .membersOf _ => true

def isStar : Import → Bool
  | .type _ | .member _ _ => false
  | .typesOf _ | .membersOf _ => true

/-- Whether a declaration can be written: it spells one or more identifiers, and a static member two
or more. -/
structure WellFormed (declaration : Import) : Prop where
  isPath : declaration.path.IsPath
  owned : ∀ owner name, declaration = .member owner name → owner.segments ≠ []

/-- The word for a static import, if it is one. -/
def lead (declaration : Import) : List Char :=
  if declaration.isStatic then "static ".toList else []

/-- The path, with a star behind it for an import on demand. -/
def spelled (declaration : Import) : List Char :=
  declaration.path.dotted.toList ++ if declaration.isStar then ".*".toList else []

/-- A declaration is written as its lead and its path. -/
theorem toList_text (declaration : Import) :
    declaration.text.toList = declaration.lead ++ declaration.spelled := by
  cases declaration <;> simp [Import.text, lead, spelled, path, isStatic, isStar]

/-! ## Paths -/

/-- What is accepted as a path is one. -/
theorem isPath_of_path? (spelled : path? text = some name) : name.IsPath := by
  unfold path? at spelled
  split at spelled
  next identifiers =>
    cases spelled
    exact QualifiedName.isPath_ofDotted (List.all_eq_true.mp identifiers)
  next => cases spelled

/-- A path is read back from its dotted form. -/
theorem path?_dotted (isPath : name.IsPath) : path? name.dotted.toList = some name := by
  have identifiers : ∀ piece ∈ Text.splitAt '.' name.dotted.toList,
      Text.isIdentifier (Text.trim piece) = true := by
    intro piece cut
    have identifier := isPath.isIdentifier_of_mem_splitAt cut
    rwa [Text.trim_identifier identifier]
  rw [path?, if_pos (List.all_eq_true.mpr identifiers), String.ofList_toList,
    QualifiedName.ofDotted_dotted isPath.normal]

/-! ## Reading -/

/-- Whatever is read can be written. -/
theorem wellFormed_of_parse {text : String} (read : parse text = .ok declaration) :
    declaration.WellFormed := by
  unfold parse at read
  dsimp only at read
  split at read
  next => cases read
  next =>
    split at read
    next => cases read
    next path spelled =>
      have isPath := isPath_of_path? spelled
      split at read
      next => cases read; exact ⟨isPath, nofun⟩
      next => cases read; exact ⟨isPath, nofun⟩
      next => cases read; exact ⟨isPath, nofun⟩
      next =>
        split at read
        next owner name parent last =>
          cases read
          obtain ⟨inside, whole⟩ := QualifiedName.child_of_parent? parent last
          refine ⟨?_, ?_⟩
          · rw [Import.path, whole]
            exact isPath
          · rintro _ _ ⟨⟩
            exact inside
        next => cases read

/-! ## Stripping marks -/

theorem spelled_ne_nil (isPath : declaration.path.IsPath) : declaration.spelled ≠ [] := by
  rw [spelled, Ne, List.append_eq_nil_iff]
  exact fun nothing => isPath.dotted_ne_nil nothing.1

/-- No blank stands in what is spelled, so the words for the keyword and for a static import are
marks only where they are meant as such; and it does not end with a semicolon. -/
theorem not_mark_of_mem_spelled {c : Char} (isPath : declaration.path.IsPath)
    (mem : c ∈ declaration.spelled) : Text.isBlank c = false ∧ c ≠ ';' := by
  rcases List.mem_append.mp mem with mem | mem
  · obtain ⟨notBlank, notMark⟩ := isPath.not_mark mem
    refine ⟨notBlank, ?_⟩
    rintro rfl
    exact notMark (by simp)
  · split at mem
    · obtain rfl | rfl : c = '.' ∨ c = '*' := by simpa using mem
      all_goals decide
    · cases mem

theorem blank_not_mem_spelled (isPath : declaration.path.IsPath) : ' ' ∉ declaration.spelled :=
  fun mem => absurd (not_mark_of_mem_spelled isPath mem).1 (by decide)

/-- The text of a declaration begins with no blank. -/
theorem first_of_text (isPath : declaration.path.IsPath) :
    ∀ c ∈ declaration.text.toList.head?, Text.isBlank c = false := by
  rw [toList_text, lead]
  intro c mem
  split at mem
  · obtain rfl : 's' = c := Option.some.inj mem
    decide
  · exact (not_mark_of_mem_spelled isPath (List.mem_of_head? mem)).1

/-- Nor does it end with one, or with a semicolon. -/
theorem last_of_text (isPath : declaration.path.IsPath) :
    ∀ c ∈ declaration.text.toList.getLast?, Text.isBlank c = false ∧ c ≠ ';' := by
  rw [toList_text, List.getLast?_append_of_ne_nil _ (spelled_ne_nil isPath)]
  exact fun c mem => not_mark_of_mem_spelled isPath (List.mem_of_getLast? mem)

/-- It does not begin with the keyword: the blank behind that would have to stand in the path. -/
theorem keyword_of_text (isPath : declaration.path.IsPath) :
    Text.after? "import ".toList declaration.text.toList = none := by
  rw [toList_text, lead]
  split
  · exact Text.after?_cons_of_ne (by decide) _ _
  · exact Text.after?_of_not_mem (c := ' ') (by decide) (blank_not_mem_spelled isPath)

theorem dropWhile_semicolons {text : List Char} (last : ∀ c ∈ text.getLast?, c ≠ ';') :
    text.reverse.dropWhile (· == ';') = text.reverse := by
  refine Text.dropWhile_of_head? fun c mem => ?_
  rw [List.head?_reverse] at mem
  exact beq_false_of_ne (last c mem)

/-- The text of a declaration is its own body. -/
theorem body_text (isPath : declaration.path.IsPath) :
    body declaration.text.toList = declaration.text.toList := by
  have whole : Text.trim declaration.text.toList = declaration.text.toList :=
    Text.trim_eq_self (first_of_text isPath) fun c mem => (last_of_text isPath c mem).1
  rw [body, whole, keyword_of_text isPath, Option.getD_none,
    dropWhile_semicolons fun c mem => (last_of_text isPath c mem).2, List.reverse_reverse, whole]

/-- So it is behind the keyword and before a semicolon, whatever blanks stand between. -/
theorem body_import (isPath : declaration.path.IsPath)
    (blank : ∀ c ∈ blanks, Text.isBlank c = true) :
    body ("import ".toList ++ (declaration.text.toList ++ blanks ++ [';'])) =
      declaration.text.toList := by
  have whole : Text.trim ("import ".toList ++ (declaration.text.toList ++ blanks ++ [';'])) =
      "import ".toList ++ (declaration.text.toList ++ blanks ++ [';']) := by
    refine Text.trim_eq_self (fun c mem => ?_) (fun c mem => ?_)
    · obtain rfl : 'i' = c := Option.some.inj mem
      decide
    · rw [← List.append_assoc, List.getLast?_concat] at mem
      obtain rfl : ';' = c := Option.some.inj mem
      decide
  have behind : ∀ c ∈ (declaration.text.toList ++ blanks).getLast?, c ≠ ';' := by
    intro c mem
    rcases blanks.eq_nil_or_concat' with rfl | ⟨front, last, rfl⟩
    · rw [List.append_nil] at mem
      exact (last_of_text isPath c mem).2
    · rw [← List.append_assoc, List.getLast?_concat] at mem
      obtain rfl : last = c := Option.some.inj mem
      rintro rfl
      exact absurd (blank ';' (by simp)) (by decide)
  rw [body, whole, Text.after?_append, Option.getD_some, List.reverse_append,
    List.reverse_singleton, List.singleton_append, List.dropWhile_cons_of_pos (by simp),
    dropWhile_semicolons behind, List.reverse_reverse]
  exact Text.trim_append_blanks blank (first_of_text isPath) fun c mem =>
    (last_of_text isPath c mem).1

/-- The mark for static imports is found where it was written and nowhere else. -/
theorem splitStatic_text (isPath : declaration.path.IsPath) :
    splitStatic declaration.text.toList = (declaration.isStatic, declaration.spelled) := by
  have trimmed : Text.trim declaration.spelled = declaration.spelled :=
    Text.trim_eq_self
      (fun c mem => (not_mark_of_mem_spelled isPath (List.mem_of_head? mem)).1)
      (fun c mem => (not_mark_of_mem_spelled isPath (List.mem_of_getLast? mem)).1)
  rw [toList_text, lead, splitStatic]
  cases declaration.isStatic with
  | true =>
    rw [if_pos rfl, Text.after?_append]
    exact congrArg (Prod.mk true) trimmed
  | false =>
    rw [if_neg Bool.false_ne_true, List.nil_append,
      Text.after?_of_not_mem (c := ' ') (by decide) (blank_not_mem_spelled isPath)]

/-- So is the star. -/
theorem splitStar_spelled (isPath : declaration.path.IsPath) :
    splitStar declaration.spelled = (declaration.isStar, declaration.path.dotted.toList) := by
  rw [spelled, splitStar]
  cases declaration.isStar with
  | true => rw [if_pos rfl, Text.before?_append]
  | false =>
    have plain : '*' ∉ declaration.path.dotted.toList := fun mem =>
      (isPath.not_mark mem).2 (by simp)
    rw [if_neg Bool.false_ne_true, List.append_nil, Text.before?_of_not_mem (by decide) plain]

/-- A text whose body is the text of a well formed declaration is read as that declaration. -/
theorem parse_of_body {source : String} (wellFormed : declaration.WellFormed)
    (same : body source.toList = declaration.text.toList) : parse source = .ok declaration := by
  obtain ⟨isPath, owned⟩ := wellFormed
  have some : declaration.text.toList.isEmpty = false := by
    rw [toList_text, List.isEmpty_eq_false_iff, Ne, List.append_eq_nil_iff]
    exact fun nothing => spelled_ne_nil isPath nothing.2
  rw [parse, same]
  simp only [some, splitStatic_text isPath, splitStar_spelled isPath, path?_dotted isPath]
  cases declaration with
  | type | typesOf | membersOf => rfl
  | member owner name =>
    have inside := owned owner name rfl
    simp only [path, isStatic, isStar, QualifiedName.parent?_child inside,
      QualifiedName.last?_child, Bool.false_eq_true, if_false]

/-- What is written is read, bare or as a whole statement. -/
theorem parse_text (wellFormed : declaration.WellFormed) :
    parse declaration.text = .ok declaration :=
  parse_of_body wellFormed (body_text wellFormed.isPath)

/-- A whole statement is read back, with blanks before its semicolon. -/
theorem parse_statement {blanks : String} (wellFormed : declaration.WellFormed)
    (blank : ∀ c ∈ blanks.toList, Text.isBlank c = true) :
    parse ("import " ++ declaration.text ++ blanks ++ ";") = .ok declaration := by
  refine parse_of_body wellFormed ?_
  rw [← body_import wellFormed.isPath blank]
  simp only [String.toList_append, List.append_assoc]
  rfl

end Import

/-! ## Adding what was read -/

namespace Imports

open Import

/-- The imports of a file take in a text or stay as they are. What they take in is one well formed
declaration, and its own text adds the same declaration to whatever imports; and every well formed
declaration is taken in by its text, bare or as a whole statement. -/
theorem pushed_declarations_are_read_back (imports : Imports) :
    (∀ text : String,
      (∃ error, imports.push text = (.error error, imports)) ∨
      ∃ declaration : Import, declaration.WellFormed ∧
        imports.push text = (.ok (), imports.add declaration) ∧
        ∀ others : Imports,
          others.push declaration.text = (.ok (), others.add declaration)) ∧
    ∀ declaration : Import, declaration.WellFormed →
      imports.push declaration.text = (.ok (), imports.add declaration) ∧
      ∀ blanks : String, (∀ c ∈ blanks.toList, Text.isBlank c = true) →
        imports.push ("import " ++ declaration.text ++ blanks ++ ";") =
          (.ok (), imports.add declaration) := by
  have taken : ∀ (others : Imports) {text : String} {declaration : Import},
      parse text = .ok declaration → others.push text = (.ok (), others.add declaration) := by
    intro others text declaration read
    rw [push, read]
  refine ⟨fun text => ?_, fun declaration wellFormed => ?_⟩
  · cases read : parse text with
    | error error => exact .inl ⟨error, by rw [push, read]⟩
    | ok declaration =>
      have wellFormed := wellFormed_of_parse read
      exact .inr ⟨declaration, wellFormed, taken imports read,
        fun others => taken others (parse_text wellFormed)⟩
  · exact ⟨taken imports (parse_text wellFormed),
      fun blanks blank => taken imports (parse_statement wellFormed blank)⟩

/-- A static member of a type in a package that is called like the word for static imports. -/
theorem static_package_is_imported :
    (Import.member ⟨["static", "Math"]⟩ "max").WellFormed ∧
      ({} : Imports).push "import static static.Math.max ;" =
        (.ok (), { members := [(⟨["static", "Math"]⟩, "max")] }) := by
  have wellFormed : (Import.member ⟨["static", "Math"]⟩ "max").WellFormed := by
    refine ⟨by decide +kernel, ?_⟩
    rintro _ _ ⟨⟩
    exact List.cons_ne_nil _ _
  have blank : ∀ c ∈ " ".toList, Text.isBlank c = true := List.forall_mem_singleton.mpr rfl
  exact ⟨wellFormed, ((pushed_declarations_are_read_back {}).2 _ wellFormed).2 " " blank⟩

end Imports

end CodeAssist
