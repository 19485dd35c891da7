import CodeAssist.Proofs.Completion.SearchTurns
/-!
# Variables, labels and keywords

*Words* are the candidates that are known by their names alone: variables, labels and keywords. A
walk finds no two words of one kind with one name, because a variable hides those further out, a
label does too, and keywords are different words. All else that a walk finds are members and stored
types (`words_walked`).
-/

namespace CodeAssist.Completion

/-! ## Hidden names -/

/-- Of each name the first is left, and none that was seen. -/
theorem firstOfEach_spec {α : Type} (name : α → String) (seen : List String) (items : List α) :
    ((firstOfEach name seen items).map name).Nodup ∧
      ∀ item ∈ firstOfEach name seen items, item ∈ items ∧ name item ∉ seen := by
  induction items generalizing seen with
  | nil => simp [firstOfEach]
  | cons first items ih =>
    rw [firstOfEach]
    split
    next known =>
      obtain ⟨nodup, members⟩ := ih seen
      refine ⟨nodup, fun item mem => ?_⟩
      obtain ⟨listed, fresh⟩ := members item mem
      exact ⟨List.mem_cons_of_mem _ listed, fresh⟩
    next unknown =>
      obtain ⟨nodup, members⟩ := ih (name first :: seen)
      refine ⟨List.nodup_cons.mpr ⟨fun again => ?_, nodup⟩, fun item mem => ?_⟩
      · obtain ⟨item, mem, same⟩ := List.mem_map.mp again
        exact (members item mem).2 (by simp [same])
      · rcases List.mem_cons.mp mem with rfl | mem
        · exact ⟨List.mem_cons_self, by simpa using unknown⟩
        · obtain ⟨listed, fresh⟩ := members item mem
          exact ⟨List.mem_cons_of_mem _ listed, fun known => fresh (List.mem_cons_of_mem _ known)⟩

/-- Whether candidates of a kind are known by their names alone. -/
def CandidateKind.isWord : CandidateKind → Bool
  | .local | .label | .keyword => true
  | _ => false

/-- Whether a symbol is known by the name of its candidate alone. -/
def Symbol.isWord : Symbol → Bool
  | .local _ _ | .label | .keyword => true
  | _ => false

namespace Session

variable {session : Session} {seen : List String} {found rest : List Candidate}
  {candidate : Candidate}

/-- What a walk can find. -/
inductive Walks (session : Session) (candidate : Candidate) : Prop
  | member (member : candidate.isMember = true)
  | type {id : ClassId} {definition : ClassDef}
      (stored : session.StoredType candidate id definition)
  | word (kind : candidate.kind.isWord = true) (symbol : candidate.symbol.isWord = true)

theorem not_isWord_of_isMember (member : candidate.isMember = true) :
    candidate.kind.isWord = false := by
  cases kind : candidate.kind <;> simp_all [Candidate.isMember, CandidateKind.isWord]

/-- What a scope gives besides variables is no word. -/
theorem Given.walks (given : session.Given candidate) :
    session.Walks candidate ∧ candidate.kind.isWord = false := by
  rcases given with rooted | ⟨id, definition, stored⟩
  · obtain ⟨declaration, standsFor⟩ := rooted.standsFor
    exact ⟨.member standsFor.isMember, not_isWord_of_isMember standsFor.isMember⟩
  · exact ⟨.type stored, by rw [stored.kind]; rfl⟩

/-- The words of a walk have names that were not seen, and of one kind no two have one name. -/
structure WordsApart (session : Session) (seen : List String) (found : List Candidate) :
    Prop where
  each : ∀ candidate ∈ found, session.Walks candidate
  fresh : ∀ candidate ∈ found, candidate.kind.isWord = true → candidate.name ∉ seen
  apart : found.Pairwise fun first second =>
    first.kind.isWord = true → first.kind = second.kind → first.name ≠ second.name

namespace WordsApart

/-- Where there are no words, none can meet. -/
theorem of_no_words (each : ∀ candidate ∈ found, session.Walks candidate ∧
    candidate.kind.isWord = false) : session.WordsApart seen found := by
  refine ⟨fun candidate mem => (each candidate mem).1, fun candidate mem word => ?_, ?_⟩
  · exact absurd (word.symm.trans (each candidate mem).2) (by decide)
  · refine List.pairwise_of_forall_mem_list fun candidate mem _ _ word => ?_
    exact absurd (word.symm.trans (each candidate mem).2) (by decide)

theorem of_members (members : ∀ candidate ∈ found, candidate.isMember = true) :
    session.WordsApart seen found :=
  of_no_words fun candidate mem =>
    ⟨.member (members candidate mem), not_isWord_of_isMember (members candidate mem)⟩

/-- Words that have different names. -/
theorem of_names (words : ∀ candidate ∈ found, candidate.kind.isWord = true ∧
      candidate.symbol.isWord = true ∧ candidate.name ∉ seen)
    (names : (found.map Candidate.name).Nodup) : session.WordsApart seen found := by
  refine ⟨fun candidate mem => ?_, fun candidate mem _ => (words candidate mem).2.2, ?_⟩
  · exact .word (words candidate mem).1 (words candidate mem).2.1
  · exact (List.pairwise_map.mp names).imp fun differ _ _ => differ

/-- Words stay apart in two lists if no word of the first meets one of the second. -/
theorem append (first : session.WordsApart seen found) (second : session.WordsApart seen rest)
    (cross : ∀ earlier ∈ found, ∀ later ∈ rest, earlier.kind.isWord = true →
      earlier.kind = later.kind → earlier.name ≠ later.name) :
    session.WordsApart seen (found ++ rest) := by
  refine ⟨fun candidate mem => ?_, fun candidate mem => ?_,
    List.pairwise_append.mpr ⟨first.apart, second.apart, cross⟩⟩
  · exact (List.mem_append.mp mem).elim (first.each candidate) (second.each candidate)
  · exact (List.mem_append.mp mem).elim (first.fresh candidate) (second.fresh candidate)

/-- Nothing is hidden by what is no word. -/
theorem append_left (others : ∀ candidate ∈ found, session.Walks candidate ∧
      candidate.kind.isWord = false)
    (second : session.WordsApart seen rest) : session.WordsApart seen (found ++ rest) := by
  refine append (of_no_words others) second fun earlier hearlier _ _ word => ?_
  exact absurd (word.symm.trans (others earlier hearlier).2) (by decide)

/-- Words come before others that do not have the names of their scope. -/
theorem cons (names : List String) (first : session.WordsApart seen found)
    (inside : ∀ candidate ∈ found, candidate.name ∈ names)
    (second : session.WordsApart (names ++ seen) rest) :
    session.WordsApart seen (found ++ rest) := by
  refine append first ⟨second.each, fun candidate mem word known => ?_, second.apart⟩ ?_
  · exact second.fresh candidate mem word (List.mem_append_right _ known)
  · intro earlier hearlier later hlater word kinds same
    refine second.fresh later hlater (kinds ▸ word) (List.mem_append_left _ ?_)
    exact same ▸ inside earlier hearlier

end WordsApart

/-! ## Scopes -/

section FirstOfEach

variable {α : Type} {name : α → String} {things : List α} {screen : α → Screened Candidate}
  (words : ∀ thing candidate, screen thing = .ok candidate → candidate.kind.isWord = true ∧
    candidate.symbol.isWord = true ∧ candidate.name = name thing)

include words

/-- Of the words of a scope, those that nothing further in hides are apart. -/
theorem wordsApart_firstOfEach (session : Session) (seen : List String) :
    session.WordsApart seen
      ((firstOfEach name seen things).filterMap fun thing => (screen thing).toOption) := by
  obtain ⟨names, members⟩ := firstOfEach_spec name seen things
  refine .of_names (fun candidate mem => ?_) ?_
  · obtain ⟨thing, hthing, screened⟩ := List.mem_filterMap.mp mem
    obtain ⟨kind, symbol, same⟩ := words thing candidate (Screened.toOption_eq_some.mp screened)
    exact ⟨kind, symbol, same ▸ (members thing hthing).2⟩
  · rw [List.Nodup, List.pairwise_map] at names ⊢
    rw [List.pairwise_filterMap]
    refine names.imp fun differ first hfirst second hsecond => ?_
    rwa [(words _ first (Screened.toOption_eq_some.mp hfirst)).2.2,
      (words _ second (Screened.toOption_eq_some.mp hsecond)).2.2]

/-- A word that is found is one of those that were looked through. -/
theorem name_mem_of_firstOfEach
    (mem : candidate ∈ (firstOfEach name seen things).filterMap
      fun thing => (screen thing).toOption) : candidate.name ∈ things.map name := by
  obtain ⟨thing, hthing, screened⟩ := List.mem_filterMap.mp mem
  rw [(words thing candidate (Screened.toOption_eq_some.mp screened)).2.2]
  exact List.mem_map_of_mem ((firstOfEach_spec name seen things).2 thing hthing).1

end FirstOfEach

/-- A variable is a word with its name. -/
theorem word_of_screenLocal {mode : WalkMode} (binding : Local) (candidate : Candidate)
    (screened : session.screenLocal mode binding = .ok candidate) :
    candidate.kind.isWord = true ∧ candidate.symbol.isWord = true ∧
      candidate.name = binding.name := by
  simp only [screenLocal, Screened.bind_eq_ok, Screened.pure_eq_ok] at screened
  obtain ⟨_, -, nameMatch, -, rfl⟩ := screened
  exact ⟨rfl, rfl, rfl⟩

/-- A walk over scopes finds each variable name once. -/
theorem wordsApart_walkScopes {mode : WalkMode} (staticOnly : Bool) (seen : List String)
    {scopes : List Scope} (inside : ∀ scope ∈ scopes, scope ∈ session.scopes) :
    session.WordsApart seen (Event.items (session.walkScopes mode staticOnly seen scopes)) := by
  induction scopes generalizing staticOnly seen with
  | nil => exact .of_members (by simp [walkScopes])
  | cons scope outer ih =>
    have given : ∀ candidate ∈ Event.items
        (session.kindCandidates mode staticOnly scope.kind), session.Given candidate :=
      fun candidate => given_of_kindCandidates (inside scope List.mem_cons_self)
    have outwards := (ih (staticOnly || scope.kind.isStaticBoundary session.store)
      (scope.locals.map Local.name ++ seen) fun other mem =>
        inside other (List.mem_cons_of_mem _ mem)).append_left
      fun candidate mem => (given candidate mem).walks
    rw [walkScopes, Event.items_append, Event.items_append, List.append_assoc]
    split
    · rw [Screened.items_flatMap_step]
      refine .cons _ (wordsApart_firstOfEach word_of_screenLocal session seen)
        (fun candidate mem => ?_) outwards
      simpa using name_mem_of_firstOfEach word_of_screenLocal mem
    · exact WordsApart.cons _ (.of_members (by simp)) (by simp) outwards

/-- A walk over scopes finds each label once. -/
theorem wordsApart_labelsFrom (session : Session) (seen : List String) (scopes : List Scope) :
    session.WordsApart seen (Event.items (session.labelsFrom seen scopes)) := by
  induction scopes generalizing seen with
  | nil => exact .of_members (by simp [labelsFrom])
  | cons scope outer ih =>
    have words : ∀ label candidate, (do
        let nameMatch ← session.matchName label
        return { kind := .label, symbol := .label, name := label, nameMatch : Candidate } :
          Screened Candidate) = .ok candidate →
        candidate.kind.isWord = true ∧ candidate.symbol.isWord = true ∧
          candidate.name = id label := by
      intro label candidate screened
      simp only [Screened.bind_eq_ok, Screened.pure_eq_ok] at screened
      obtain ⟨nameMatch, -, rfl⟩ := screened
      exact ⟨rfl, rfl, rfl⟩
    rw [labelsFrom, Event.items_append, Screened.items_flatMap_events]
    refine .cons scope.labels (wordsApart_firstOfEach words session seen)
      (fun candidate mem => by simpa using name_mem_of_firstOfEach words mem) ?_
    split
    · exact .of_members (by simp)
    · exact ih (scope.labels ++ seen)

/-! ## Keywords -/

/-- So is a keyword. -/
theorem word_of_keyword? {word : String} (found : session.keyword? word = some candidate) :
    candidate.kind = .keyword ∧ candidate.symbol = .keyword ∧ candidate.name = word := by
  simp only [keyword?, Option.bind_eq_bind, Option.bind_eq_some_iff] at found
  obtain ⟨nameMatch, -, _, -, same⟩ := found
  cases same
  exact ⟨rfl, rfl, rfl⟩

/-- Different words give different keywords. -/
theorem wordsApart_keywords (session : Session) {words : List String} (different : words.Nodup) :
    session.WordsApart [] (words.filterMap session.keyword?) := by
  refine .of_names (fun candidate mem => ?_) ?_
  · obtain ⟨word, -, found⟩ := List.mem_filterMap.mp mem
    obtain ⟨kind, symbol, -⟩ := word_of_keyword? found
    exact ⟨by rw [kind]; rfl, by rw [symbol]; rfl, List.not_mem_nil⟩
  · rw [List.Nodup, List.pairwise_map, List.pairwise_filterMap]
    refine different.imp fun differ first hfirst second hsecond => ?_
    rwa [(word_of_keyword? hfirst).2.2, (word_of_keyword? hsecond).2.2]

/-! ## Sites -/

theorem isMember_of_receiverMembers {receiver : TypeRef}
    (mem : candidate ∈ Event.items (session.receiverMembers receiver)) :
    candidate.isMember = true := by
  obtain ⟨signature, signed⟩ := signed_of_receiverMembers mem
  exact signed.isMember

theorem isMember_of_memberAccess {receiver : TypeRef} {name : Option String}
    (mem : candidate ∈ Event.items (session.memberAccess receiver name)) :
    candidate.isMember = true := by
  unfold memberAccess at mem
  dsimp only at mem
  split at mem
  next => exact isMember_of_receiverMembers mem
  next name =>
    rw [Event.items_append, List.mem_append] at mem
    rcases mem with mem | mem
    · exact isMember_of_receiverMembers mem
    · obtain ⟨root, oneRoot⟩ := session.oneRoot_narrowedMembers name
        (session.receiverClass? receiver) (Event.items (session.receiverMembers receiver))
      exact oneRoot.isMember mem

/-- Members found through one root are no words. -/
theorem OneRoot.wordsApart {root : ClassId} (oneRoot : session.OneRoot root found) :
    session.WordsApart seen found :=
  .of_members fun _ mem => oneRoot.isMember mem

/-- The words of a walk over scopes are variables. -/
theorem kind_ne_keyword {mode : WalkMode} {candidate : Candidate}
    (mem : candidate ∈ Event.items (session.walkScopes mode false [] session.scopes)) :
    candidate.kind ≠ .keyword := by
  intro keyword
  cases walkScopes_found (fun _ inside => inside) candidate mem with
  | binding kind => exact absurd (keyword.symm.trans kind) (by decide)
  | member rooted =>
    obtain ⟨declaration, standsFor⟩ := rooted.standsFor
    have member := standsFor.isMember
    simp [Candidate.isMember, keyword] at member
  | type stored => exact absurd (keyword.symm.trans stored.kind) (by decide)

/-- Whatever the site, a walk finds members, stored types, and words, and no two words of one kind
have one name. -/
theorem words_walked (session : Session) : session.WordsApart [] session.walked := by
  have scopes : ∀ mode, session.WordsApart []
      (Event.items (session.walkScopes mode false [] session.scopes)) :=
    fun mode => wordsApart_walkScopes false [] fun _ mem => mem
  unfold walked walk
  cases session.request.site with
  | name =>
    rw [Event.items_append, keywords, Event.items_map_found]
    refine (scopes .expression).append (session.wordsApart_keywords ?_) ?_
    · split
      · decide
      · split <;> decide
    · intro earlier hearlier later hlater word kinds
      obtain ⟨_, -, found⟩ := List.mem_filterMap.mp hlater
      exact absurd (kinds.trans (word_of_keyword? found).1) (kind_ne_keyword hearlier)
  | typeReference => exact scopes .types
  | allocation => exact scopes .types
  | memberAccess receiver name =>
    exact .of_members fun candidate mem => isMember_of_memberAccess mem
  | staticAccess id =>
    dsimp only
    rw [staticAccess, Event.items_append, Event.items_append, Event.items_map_found,
      List.append_assoc]
    refine .append_left (fun candidate mem => ?_) (.append_left (fun candidate mem => ?_) ?_)
    · have member := (session.oneRoot_members _ id id .declared).isMember mem
      exact ⟨.member member, not_isWord_of_isMember member⟩
    · obtain ⟨_, _, stored⟩ := storedType_of_memberTypes mem
      exact Given.walks (.inr ⟨_, _, stored⟩)
    · have alone : (session.keyword? "class").toList = ["class"].filterMap session.keyword? := by
        cases found : session.keyword? "class" <;> simp [found]
      rw [alone]
      exact session.wordsApart_keywords (by decide)
  | superAccess =>
    obtain ⟨root, members⟩ := session.oneRoot_superAccess
    exact members.wordsApart
  | caseLabel switchType =>
    dsimp only
    split
    next id _ => exact (session.oneRoot_enumConstants id).wordsApart
    next => exact scopes .constants
  | label => exact session.wordsApart_labelsFrom [] session.scopes
  | qualifiedName qualifier => exact .of_members (by simp)
  | nothing => exact .of_members (by simp)

/-! ## The words that stay -/

/-- Every word stays, behind those that came before it. -/
theorem words_addCandidate (session : Session) (state : KnownTypes × List Candidate)
    (candidate : Candidate) :
    (session.addCandidate state candidate).2.filter (fun other => other.kind.isWord) =
      (state.2 ++ [candidate]).filter fun other => other.kind.isWord := by
  by_cases word : candidate.kind.isWord = true
  · have added : session.addCandidate state candidate = (state.1, state.2 ++ [candidate]) := by
      unfold addCandidate
      split <;> simp_all [CandidateKind.isWord]
    rw [added]
  · rw [List.filter_append, List.filter_singleton, Bool.eq_false_iff.mpr word, cond_false,
      List.append_nil]
    rcases session.addCandidate_cases state candidate with ⟨-, added⟩ | ⟨-, others, added, kinds⟩
    · rw [added]
      exact filter_kind_addMember CandidateKind.isWord (Bool.eq_false_iff.mpr word) state.2
    · have none : others.filter (fun other => other.kind.isWord) = [] := by
        refine List.filter_eq_nil_iff.mpr fun other mem => ?_
        rwa [kinds other mem]
      rw [added, List.filter_append, none, List.append_nil]

/-- Adding candidates keeps all words in their order. -/
theorem words_foldl (session : Session) (state : KnownTypes × List Candidate)
    (candidates : List Candidate) :
    (candidates.foldl session.addCandidate state).2.filter (fun other => other.kind.isWord) =
      (state.2 ++ candidates).filter fun other => other.kind.isWord := by
  induction candidates generalizing state with
  | nil => rw [List.append_nil, List.foldl_nil]
  | cons candidate candidates ih =>
    rw [List.foldl_cons, ih, List.filter_append, words_addCandidate, ← List.filter_append,
      List.append_assoc, List.singleton_append]

/-- A word is not rewritten. -/
theorem rewritten_of_isWord (kept : List Candidate) (kind : candidate.kind.isWord = true)
    (symbol : candidate.symbol.isWord = true) : session.rewritten kept candidate = candidate := by
  have other : candidate.isMember = false := by
    refine Bool.eq_false_iff.mpr fun member => ?_
    exact absurd (kind.symm.trans (not_isWord_of_isMember member)) (by decide)
  refine rewritten_of_other kept other fun method stands => ?_
  rw [stands] at symbol
  exact absurd symbol (by simp [Symbol.isWord])

/-- The words that stay are those of the walk. -/
theorem words_kept_eq (session : Session) :
    session.kept.filter (fun other => other.kind.isWord) =
      session.walked.filter fun other => other.kind.isWord := by
  have words := session.words_foldl ({}, []) session.walked
  rw [List.nil_append] at words
  rw [kept, resolve_eq_map, List.filter_map]
  simp only [Function.comp_def, ((rewrites_rewritten session _).same _).kind]
  rw [words]
  refine (List.map_congr_left fun other mem => ?_).trans (List.map_id _)
  obtain ⟨mem, word⟩ := List.mem_filter.mp mem
  cases session.words_walked.each other mem with
  | member member => exact absurd (word.symm.trans (not_isWord_of_isMember member)) (by decide)
  | type stored =>
    rw [stored.kind] at word
    exact absurd word (by decide)
  | word kind symbol => exact rewritten_of_isWord _ kind symbol

/-- No two words of one kind that stay have one name. -/
theorem words_kept (session : Session) : session.kept.Pairwise fun first second =>
    first.kind.isWord = true → first.kind = second.kind → first.name ≠ second.name := by
  have apart := session.words_walked.apart.filter fun candidate => candidate.kind.isWord
  rw [← words_kept_eq, List.pairwise_filter] at apart
  refine apart.imp fun {first second} differ word kinds => ?_
  exact differ word (kinds ▸ word) word kinds

end Session

end CodeAssist.Completion
