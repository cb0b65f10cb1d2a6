import HttpsServer.Config.Correctness

namespace HttpsServer.Config

open HttpsServer.Data

/-! What one round of the lexer does, once for all of its properties. -/

/-- A round in a state, after the character `c`, by the characters behind it: it
takes no notice of them, or looks at the next one. -/
inductive Round (state : TokenParserState) (c : Char) :
    (Text → LexStep) → Prop
  | next (nextState : TokenParserState) (value : Text) :
      Round state c fun _ => .next nextState value
  | done (type : TokenType) (value : Text)
      (isBody : isBodyResult (type, value) = true) :
      Round state c fun rest => .done type value rest
  | putBack (value : Text) (inWord : state = .tokenTypeNormal) :
      Round state c fun rest => .done .normal value (c :: rest)
  | escape (escapable : Char → Bool) (value : Text)
      (notNewline : escapable '\n' = false) :
      Round state c (escape escapable state value)
  | closeQuote (value : Text)
      (quoted : state = .singleQuote ∨ state = .doubleQuote) :
      Round state c (closeQuote state value)

theorem Round.of_eq {state : TokenParserState} {c : Char}
    {step found : Text → LexStep} (round : Round state c step)
    (same : ∀ rest, found rest = step rest) : Round state c found := by
  have equal : found = step := funext same
  rwa [equal]

theorem quotedCase_round {quote : Char} {closed : Text}
    {state : TokenParserState} {value : Text} {c : Char}
    (quoted : state = .singleQuote ∨ state = .doubleQuote)
    (notNewline : quote ≠ '\n') :
    Round state c (quotedCase quote closed state value c) := by
  by_cases backslash : c = '\\'
  · apply Round.of_eq (.escape (· = quote) value
      (decide_eq_false notNewline.symm))
    exact fun rest => if_pos backslash
  by_cases isQuote : c = quote
  · apply Round.of_eq (.closeQuote closed quoted)
    exact fun rest => (if_neg backslash).trans (if_pos isQuote)
  · apply Round.of_eq (.next state (value ++ [c]))
    exact fun rest => (if_neg backslash).trans (if_neg isQuote)

theorem initialWhitespaceCase_round (state : TokenParserState) (value : Text)
    (c : Char) : Round state c (initialWhitespaceCase state value c) := by
  delta initialWhitespaceCase
  by_cases openBrace : c = '{'
  · simp only [if_pos openBrace]
    exact .done .startBlock [c] rfl
  by_cases closeBrace : c = '}'
  · simp only [if_neg openBrace, if_pos closeBrace]
    exact .done .endBlock [c] rfl
  by_cases hash : c = '#'
  · simp only [if_neg openBrace, if_neg closeBrace, if_pos hash]
    exact .next .tokenTypeComment [c]
  simp only [if_neg openBrace, if_neg closeBrace, if_neg hash]
  by_cases double : c = '\x22'
  · simp only [if_pos double]
    exact .next .doubleQuote value
  by_cases single : c = '\x27'
  · simp only [if_neg double, if_pos single]
    exact .next .singleQuote [c]
  by_cases semicolon : c = ';'
  · simp only [if_neg double, if_neg single, if_pos semicolon]
    exact .done .statementEnd [c] rfl
  simp only [if_neg double, if_neg single, if_neg semicolon]
  by_cases blank : isBlank c = true
  · simp only [if_pos blank]
    exact .next state value
  by_cases backslash : c = '\\'
  · subst backslash
    apply Round.of_eq (.escape isEscapable value rfl)
    intro rest
    -- At the end of the input the case below stops in the same way.
    cases rest <;> rfl
  · simp only [if_neg blank, if_neg backslash]
    exact .next .tokenTypeNormal (value ++ [c])

theorem lexStep_round (state : TokenParserState) (value : Text) (c : Char) :
    Round state c (lexStep state value c) := by
  cases state with
  | initialWhitespace => exact initialWhitespaceCase_round _ value c
  | singleQuote => exact quotedCase_round (.inl rfl) (by decide)
  | doubleQuote => exact quotedCase_round (.inr rfl) (by decide)
  | tokenTypeComment =>
      by_cases ends : (c = '\n' || c = '\r') = true
      · exact (Round.done .comment value rfl).of_eq fun rest => if_pos ends
      · exact (Round.next _ _).of_eq fun rest => if_neg ends
  | tokenTypeNormal =>
      by_cases ends : endsWord c = true
      · exact (Round.putBack value rfl).of_eq fun rest => if_pos ends
      by_cases backslash : c = '\\'
      · apply Round.of_eq (.escape isEscapable value rfl)
        exact fun rest => (if_neg ends).trans (if_pos backslash)
      · apply Round.of_eq (.next _ _)
        exact fun rest => (if_neg ends).trans (if_neg backslash)

/-! Progress of the lexer: what a call leaves unread. -/

theorem escape_ne_done (escapable : Char → Bool) (state : TokenParserState)
    (value rest : Text) {type : TokenType} {found unread : Text} :
    escape escapable state value rest ≠ .done type found unread := by
  unfold escape
  split
  · nofun
  · split <;> nofun

theorem closeQuote_done {state : TokenParserState} {value rest : Text}
    {type : TokenType} {found unread : Text}
    (done : closeQuote state value rest = .done type found unread) :
    (isBodyResult (type, found) = true ∨ type = .error) ∧ unread <:+ rest := by
  unfold closeQuote at done
  split at done
  · cases done
  · split at done
    · cases done
      exact ⟨.inl rfl, List.suffix_rfl⟩
    · cases done
      exact ⟨.inr rfl, List.suffix_cons _ _⟩

/-- A `return` of the lexer leaves what follows `c` unread, or part of it; only
the end of a word puts `c` itself back. -/
theorem lexStep_done {state : TokenParserState} {value : Text} {c : Char}
    {rest : Text} {type : TokenType} {found unread : Text}
    (done : lexStep state value c rest = .done type found unread) :
    (isBodyResult (type, found) = true ∨ type = .error) ∧
      (unread <:+ rest ∨
        (state = .tokenTypeNormal ∧ unread = c :: rest)) := by
  have round := lexStep_round state value c
  generalize lexStep state value c = step at round done
  cases round with
  | next => cases done
  | done type value isBody =>
      cases done
      exact ⟨.inl isBody, .inl List.suffix_rfl⟩
  | putBack value inWord =>
      cases done
      exact ⟨.inl rfl, .inr ⟨inWord, rfl⟩⟩
  | escape => exact absurd done (escape_ne_done _ _ _ _)
  | closeQuote =>
      obtain ⟨kind, suffix⟩ := closeQuote_done done
      exact ⟨kind, .inl suffix⟩

theorem lexLoop_returned {state : TokenParserState} {value input : Text}
    {type : TokenType} {found unread : Text}
    (returned : lexLoop state value input = .returned type found unread) :
    (isBodyResult (type, found) = true ∨ type = .error) ∧
      unread <:+ input ∧
      (state ≠ .tokenTypeNormal → unread.length < input.length) := by
  fun_induction lexLoop state value input with
  | case1 => cases returned
  | case2 state value c rest nextState nextValue stepped induction =>
      obtain ⟨kind, suffix, _⟩ := induction returned
      refine ⟨kind, suffix.trans (List.suffix_cons c rest), fun _ => ?_⟩
      exact Nat.lt_succ_of_le suffix.length_le
  | case3 => cases returned
  | case4 state value c nextState nextValue ch rest stepped induction =>
      obtain ⟨kind, suffix, _⟩ := induction returned
      have shorter := suffix.length_le
      refine ⟨kind, ?_, fun _ => ?_⟩
      · exact suffix.trans ((List.suffix_cons ch rest).trans
          (List.suffix_cons c _))
      · simp only [List.length_cons]
        omega
  | case5 state value c rest type found unread stepped =>
      cases returned
      obtain ⟨kind, suffix | ⟨normal, rfl⟩⟩ := lexStep_done stepped
      · refine ⟨kind, suffix.trans (List.suffix_cons c rest), fun _ => ?_⟩
        exact Nat.lt_succ_of_le suffix.length_le
      · exact ⟨kind, List.suffix_rfl, fun other => absurd normal other⟩
  | case6 => cases returned

/-- A call that hands out a word, a punctuation mark or a comment leaves a
strictly shorter rest of the input. -/
theorem parseToken_progress (input : Text) :
    (parseToken input).2 <:+ input ∧
      (isBodyResult (parseToken input).1 = true ∧
          (parseToken input).2.length < input.length ∨
        (parseToken input).1.1 = .eof ∨ (parseToken input).1.1 = .error) := by
  unfold parseToken
  split
  next type value unread returned =>
    obtain ⟨kind, suffix, shorter⟩ := lexLoop_returned returned
    refine ⟨suffix, ?_⟩
    rcases kind with isBody | rfl
    · exact .inl ⟨isBody, shorter nofun⟩
    · exact .inr (.inr rfl)
  next state value ended =>
    refine ⟨List.nil_suffix, .inr ?_⟩
    simp only [endOfFileType]
    split
    · exact .inr rfl
    · exact .inl rfl

/-- More calls than there are characters are enough for the parser's loop, and
still more of them do not change what it returns. -/
theorem parseLoop_returns {state : ParseState} {draft : Draft}
    (represents : state.Represents draft) (input : Text) :
    ∃ valid config, ∀ calls, input.length < calls →
      parseLoop parseToken calls input state = .returned valid config := by
  suffices called : ∃ valid config, ∀ calls, input.length ≤ calls →
      parseLoop parseToken (calls + 1) input state = .returned valid config by
    obtain ⟨valid, config, returned⟩ := called
    exact ⟨valid, config, above_of_succ returned⟩
  simp only [parseLoop_succ]
  obtain ⟨_, ⟨isBody, shorter⟩ | final⟩ := parseToken_progress input
  · rcases represents.body isBody with
      ⟨after, next, stepped, afterRepresents, _⟩ | left
    · obtain ⟨valid, config, returned⟩ :=
        parseLoop_returns afterRepresents (parseToken input).2
      refine ⟨valid, config, ?_⟩
      intro calls enough
      rw [stepped]
      exact returned calls (Nat.lt_of_lt_of_le shorter enough)
    · refine ⟨false, state.config, ?_⟩
      intro calls enough
      rw [left]
  · obtain ⟨valid, left⟩ := parseStep_final state (parseToken input).1.2 final
    refine ⟨valid, state.config, ?_⟩
    intro calls enough
    rw [left]
termination_by input.length

theorem parse_returns (input : Text) (config : NginxConfig) :
    ∃ valid tree, parse input config = .returned valid tree := by
  obtain ⟨statements⟩ := config
  obtain ⟨valid, tree, returned⟩ :=
    parseLoop_returns (ParseState.represents_start statements) input
  exact ⟨valid, tree, returned _ (Nat.lt_succ_self _)⟩

/-! Successive calls of the lexer. -/

/-- Calls on `input` that hand out `results` and leave `unread`. -/
abbrev Lexes : Text → List TokenResult → Text → Prop :=
  Run fun input result unread =>
    parseToken input = (result, unread) ∧ isBodyResult result = true

theorem Lexes.bodyResults {input unread : Text} {results : List TokenResult}
    (lexes : Lexes input results unread) :
    ∀ result ∈ results, isBodyResult result = true := by
  induction lexes with
  | nil => simp
  | cons head _ induction =>
      intro result member
      rcases List.mem_cons.mp member with rfl | later
      · exact head.2
      · exact induction result later

theorem Lexes.length_le {input unread : Text} {results : List TokenResult}
    (lexes : Lexes input results unread) :
    results.length ≤ input.length := by
  induction lexes with
  | nil => exact Nat.zero_le _
  | @cons input middle _ result results head _ induction =>
      obtain ⟨_, ⟨_, shorter⟩ | final⟩ := parseToken_progress input
      · rw [head.1] at shorter
        exact Nat.succ_le_of_lt (Nat.lt_of_le_of_lt induction shorter)
      · rw [head.1] at final
        have isBody := head.2
        obtain ⟨tokenType, value⟩ := result
        rcases final with rfl | rfl <;> cases isBody

theorem lexes_exists (input : Text) :
    ∃ results unread, Lexes input results unread ∧
      ((parseToken unread).1.1 = .eof ∨ (parseToken unread).1.1 = .error) := by
  obtain ⟨_, ⟨isBody, shorter⟩ | final⟩ := parseToken_progress input
  · obtain ⟨results, unread, lexes, final⟩ := lexes_exists (parseToken input).2
    exact ⟨_, unread, .cons ⟨rfl, isBody⟩ lexes, final⟩
  · exact ⟨[], input, .nil input, final⟩
termination_by input.length

theorem parseLoop_lexes {input unread : Text} {results : List TokenResult}
    (lexes : Lexes input results unread)
    (final : (parseToken unread).1.1 = .eof ∨
      (parseToken unread).1.1 = .error)
    {calls : Nat} (enough : results.length < calls) (state : ParseState) :
    parseLoop parseToken calls input state =
      parseLoop nextResult (results.length + 1)
        (results ++ [(parseToken unread).1]) state := by
  induction lexes generalizing calls state with
  | nil input =>
      obtain ⟨calls, rfl⟩ := Nat.exists_eq_succ_of_ne_zero
        (Nat.ne_of_gt enough)
      simp only [Nat.succ_eq_add_one, parseLoop_succ, List.nil_append,
        nextResult]
      obtain ⟨valid, left⟩ := parseStep_final state (parseToken input).1.2 final
      rw [left]
  | @cons input middle _ result results head _ induction =>
      obtain ⟨calls, rfl⟩ := Nat.exists_eq_succ_of_ne_zero
        (Nat.ne_of_gt (Nat.lt_of_le_of_lt (Nat.zero_le _) enough))
      simp only [List.length_cons, Nat.succ_eq_add_one] at enough
      rw [Nat.succ_eq_add_one, parseLoop_succ, parseLoop_cons, head.1]
      cases parseStep state result.1 result.2 with
      | again next => exact induction final (by omega) next
      | leave valid config => rfl
      | undefined => rfl

theorem parse_eq_parseResults {input unread : Text}
    {results : List TokenResult} (lexes : Lexes input results unread)
    (final : (parseToken unread).1.1 = .eof ∨
      (parseToken unread).1.1 = .error) (config : NginxConfig) :
    parse input config =
      parseResults (results ++ [(parseToken unread).1]) config := by
  unfold parse parseResults
  rw [List.length_append, List.length_singleton]
  exact parseLoop_lexes lexes final (Nat.lt_succ_of_le lexes.length_le) _

theorem parse_lexes_eof {input unread : Text} {results : List TokenResult}
    (lexes : Lexes input results unread)
    (final : (parseToken unread).1.1 = .eof) :
    (∃ tree, Derives (lexemesOf results) tree ∧
      parse input (.mk []) = .returned true tree) ∨
    ((∀ tree, ¬ Derives (lexemesOf results) tree) ∧
      ∃ tree, parse input (.mk []) = .returned false tree) := by
  rw [parse_eq_parseResults lexes (.inl final)]
  have eof : (parseToken unread).1 = (.eof, (parseToken unread).1.2) :=
    Prod.ext final rfl
  rw [eof]
  rcases parseResults_eof results (parseToken unread).1.2 lexes.bodyResults with
    ⟨statements, derivation, parsed⟩ | ⟨underivable, tree, parsed⟩
  · exact .inl ⟨.mk statements, derivation, parsed⟩
  · exact .inr ⟨underivable, tree, parsed⟩

theorem parse_derived {input unread : Text} {results : List TokenResult}
    (lexes : Lexes input results unread)
    (final : (parseToken unread).1.1 = .eof) {tree : NginxConfig}
    (derivation : Derives (lexemesOf results) tree) :
    parse input (.mk []) = .returned true tree := by
  rcases parse_lexes_eof lexes final with
    ⟨found, derives, parsed⟩ | ⟨underivable, _⟩
  · obtain rfl := derivation.unique derives
    exact parsed
  · exact absurd derivation (underivable tree)

theorem parse_lexes_error {input unread : Text} {results : List TokenResult}
    (lexes : Lexes input results unread)
    (final : (parseToken unread).1.1 = .error) :
    ∃ tree, parse input (.mk []) = .returned false tree := by
  rw [parse_eq_parseResults lexes (.inr final)]
  have error : (parseToken unread).1 = (.error, (parseToken unread).1.2) :=
    Prod.ext final rfl
  rw [error]
  exact parseResults_error results _ lexes.bodyResults

theorem parse_same_lexemes {left right leftUnread rightUnread : Text}
    {leftResults rightResults : List TokenResult}
    (leftLexes : Lexes left leftResults leftUnread)
    (leftFinal : (parseToken leftUnread).1.1 = .eof)
    (rightLexes : Lexes right rightResults rightUnread)
    (rightFinal : (parseToken rightUnread).1.1 = .eof)
    (same : lexemesOf rightResults = lexemesOf leftResults) :
    ∃ valid leftTree rightTree,
      parse left (.mk []) = .returned valid leftTree ∧
      parse right (.mk []) = .returned valid rightTree ∧
      (valid = true → leftTree = rightTree) := by
  rcases parse_lexes_eof leftLexes leftFinal with
    ⟨leftTree, derivation, leftParsed⟩ | ⟨underivable, leftTree, leftParsed⟩
  · rcases parse_lexes_eof rightLexes rightFinal with
      ⟨rightTree, other, rightParsed⟩ | ⟨none, _⟩
    · rw [same] at other
      exact ⟨true, leftTree, rightTree, leftParsed, rightParsed,
        fun _ => derivation.unique other⟩
    · rw [same] at none
      exact absurd derivation (none leftTree)
  · rcases parse_lexes_eof rightLexes rightFinal with
      ⟨rightTree, other, _⟩ | ⟨_, rightTree, rightParsed⟩
    · rw [same] at other
      exact absurd other (underivable rightTree)
    · exact ⟨false, leftTree, rightTree, leftParsed, rightParsed, nofun⟩

/-- An accepted text is lexed up to the end of the file, into a derivation of
the tree that `Parse` builds. -/
theorem parse_accepts {input : Text} {tree : NginxConfig}
    (accepted : parse input (.mk []) = .returned true tree) :
    ∃ results unread, Lexes input results unread ∧
      (parseToken unread).1.1 = .eof ∧ Derives (lexemesOf results) tree := by
  obtain ⟨results, unread, lexes, final | final⟩ := lexes_exists input
  · refine ⟨results, unread, lexes, final, ?_⟩
    rcases parse_lexes_eof lexes final with
      ⟨found, derivation, parsed⟩ | ⟨_, found, parsed⟩
    · rw [accepted] at parsed
      cases parsed
      exact derivation
    · rw [accepted] at parsed
      cases parsed
  · obtain ⟨found, parsed⟩ := parse_lexes_error lexes final
    rw [accepted] at parsed
    cases parsed

theorem parse_tokenized {input : Text} {tree : NginxConfig}
    (accepted : parse input (.mk []) = .returned true tree) :
    tree.Tokenized := by
  obtain ⟨results, unread, _, _, derivation⟩ := parse_accepts accepted
  exact derivation.tree.2

end HttpsServer.Config
