import HttpsServer.Config.RoundTrip

namespace HttpsServer.Config

open HttpsServer.Data

/-! Words that are printed as they are and still read back. The printer writes a
word as it stands, so the lexer must drop none of its characters. -/

/-- A backslash in front of this text stays in the value. -/
def isLiteral (escapable : Char → Bool) : Text → Bool
  | [] => false
  | ch :: _ => !escapable ch

def isWordTail : Text → Bool
  | [] => true
  | c :: rest =>
      !endsWord c && (c ≠ '\\' || isLiteral isEscapable rest) && isWordTail rest

/-- A backslash that opens a word leaves the lexer before the word. -/
def isUnquotedWord : Text → Bool
  | [] => false
  | c :: rest =>
      if c = '\\' then isLiteral isEscapable rest && isUnquotedWord rest
      else c ≠ '#' && c ≠ '\x22' && c ≠ '\x27' && !endsWord c &&
        isWordTail rest

/-- What may follow an opening single quote: the next one is the last character. -/
def isQuotedTail : Text → Bool
  | [] => false
  | c :: rest =>
      if c = '\\' then isLiteral (· = '\x27') rest && isQuotedTail rest
      else if c = '\x27' then rest.isEmpty
      else isQuotedTail rest

def isPrintable : Text → Bool
  | '\x27' :: rest => isQuotedTail rest
  | token => isUnquotedWord token

/-! The lexer hands out no more characters than it takes. -/

/-- The characters in the value and the unread ones together. -/
def LexStep.size (rest : Text) : LexStep → Nat
  | .next _ value => value.length + rest.length
  | .skip _ value => value.length + (rest.length - 1)
  | .done _ value unread => value.length + unread.length
  | .stop _ value => value.length

theorem escape_size (escapable : Char → Bool) (state : TokenParserState)
    (value rest : Text) :
    (escape escapable state value rest).size rest ≤
      value.length + (rest.length + 1) := by
  cases rest with
  | nil => exact Nat.le_add_right _ _
  | cons ch rest =>
      by_cases special : escapable ch = true
      · rw [escape, if_pos special, LexStep.size, List.length_append]
        simp only [List.length_cons, List.length_nil]
        omega
      · rw [escape, if_neg special, LexStep.size, List.length_append]
        simp only [List.length_cons, List.length_nil]
        omega

theorem closeQuote_size (state : TokenParserState) (value rest : Text) :
    (closeQuote state value rest).size rest ≤ value.length + rest.length := by
  cases rest with
  | nil => exact Nat.le_add_right _ _
  | cons ch rest =>
      by_cases ends : endsQuoted ch = true
      · rw [closeQuote, if_pos ends]
        exact Nat.le_refl _
      · rw [closeQuote, if_neg ends, LexStep.size, List.length_cons]
        omega

theorem quotedCase_size (quote : Char) {closed : Text}
    {state : TokenParserState} {value : Text} (c : Char) (rest : Text)
    (short : closed.length ≤ value.length + 1) :
    (quotedCase quote closed state value c rest).size rest ≤
      value.length + (rest.length + 1) := by
  by_cases backslash : c = '\\'
  · rw [quotedCase, if_pos backslash]
    exact escape_size _ state value rest
  by_cases isQuote : c = quote
  · rw [quotedCase, if_neg backslash, if_pos isQuote]
    exact Nat.le_trans (closeQuote_size state closed rest) (by omega)
  · rw [quotedCase, if_neg backslash, if_neg isQuote, LexStep.size,
      List.length_append, List.length_singleton]
    omega

theorem initialWhitespaceCase_size (state : TokenParserState) (value : Text)
    (c : Char) (rest : Text) :
    (initialWhitespaceCase state value c rest).size rest ≤
      value.length + (rest.length + 1) := by
  by_cases backslash : c = '\\'
  · subst backslash
    cases rest with
    | nil =>
        have short : (value ++ ['\\']).length ≤ value.length + 1 := by
          simp
        exact quotedCase_size '\x27' '\\' [] short
    | cons ch rest => exact escape_size isEscapable state value (ch :: rest)
  · simp only [initialWhitespaceCase, if_neg backslash]
    repeat' split
    all_goals
      simp only [LexStep.size, List.length_append, List.length_singleton]
      omega

theorem lexStep_size (state : TokenParserState) (value : Text) (c : Char)
    (rest : Text) :
    (lexStep state value c rest).size rest ≤
      value.length + (rest.length + 1) := by
  cases state with
  | initialWhitespace => exact initialWhitespaceCase_size _ value c rest
  | singleQuote => exact quotedCase_size _ c rest (by simp)
  | doubleQuote => exact quotedCase_size _ c rest (Nat.le_succ _)
  | tokenTypeComment =>
      simp only [lexStep, commentCase]
      split
      · exact Nat.add_le_add_left (Nat.le_succ _) _
      · simp only [LexStep.size, List.length_append, List.length_singleton]
        omega
  | tokenTypeNormal =>
      by_cases ends : endsWord c = true
      · simp only [lexStep, normalCase, if_pos ends, LexStep.size,
          List.length_cons, Nat.le_refl]
      by_cases backslash : c = '\\'
      · simp only [lexStep, normalCase, if_neg ends, if_pos backslash]
        exact escape_size isEscapable _ value rest
      · simp only [lexStep, normalCase, if_neg ends, if_neg backslash,
          LexStep.size, List.length_append, List.length_singleton]
        omega

theorem lexLoop_size {state : TokenParserState} {value input : Text}
    {type : TokenType} {found unread : Text}
    (returned : lexLoop state value input = .returned type found unread) :
    found.length + unread.length ≤ value.length + input.length := by
  fun_induction lexLoop state value input with
  | case1 => cases returned
  | case2 state value c rest nextState nextValue stepped induction =>
      have size := lexStep_size state value c rest
      rw [stepped] at size
      exact Nat.le_trans (induction returned) size
  | case3 => cases returned
  | case4 state value c nextState nextValue ch rest stepped induction =>
      have size := lexStep_size state value c (ch :: rest)
      rw [stepped] at size
      exact Nat.le_trans (induction returned) size
  | case5 state value c rest type found unread stepped =>
      cases returned
      have size := lexStep_size state value c rest
      rw [stepped] at size
      exact size
  | case6 => cases returned

theorem parseToken_returned {input value unread : Text} {type : TokenType}
    (called : parseToken input = ((type, value), unread))
    (notEnd : type ≠ .eof) (notError : type ≠ .error) :
    lexLoop .initialWhitespace [] input = .returned type value unread := by
  unfold parseToken at called
  split at called
  next returned =>
    cases called
    exact returned
  next state found ended =>
    have ends : endOfFileType state = type :=
      congrArg (fun call => call.1.1) called
    rw [endOfFileType] at ends
    split at ends
    · exact absurd ends.symm notError
    · exact absurd ends.symm notEnd

/-- A call that drops a character cannot hand out the whole word. -/
theorem lexLoop_ne_of_lt {state : TokenParserState} {value input : Text}
    {type : TokenType} {found unread : Text}
    (longer : value.length + input.length < found.length + unread.length) :
    lexLoop state value input ≠ .returned type found unread :=
  fun returned => Nat.not_lt_of_le (lexLoop_size returned) longer

theorem lexLoop_ne_unread {state : TokenParserState} {value : Text}
    {type : TokenType} {found unread : Text}
    (outside : state ≠ .tokenTypeNormal) :
    lexLoop state value unread ≠ .returned type found unread :=
  fun returned =>
    Nat.lt_irrefl _ ((lexLoop_returned returned).2.2 outside)

/-! Each state of the lexer on the rest of a printed word. -/

/-- The word is the value, up to the character behind it. -/
def ReadsOff (state : TokenParserState) (value word : Text) (last : Char)
    (rest : Text) : Prop :=
  lexLoop state value (word ++ last :: rest) =
    .returned .normal (value ++ word) (last :: rest)

theorem ReadsOff.next_iff {state nextState : TokenParserState} {value : Text}
    {c : Char} {word : Text} {last : Char} {rest : Text}
    (step : lexStep state value c (word ++ last :: rest) =
      .next nextState (value ++ [c])) :
    ReadsOff state value (c :: word) last rest ↔
      ReadsOff nextState (value ++ [c]) word last rest := by
  have regroup : value ++ c :: word = (value ++ [c]) ++ word := by
    rw [List.append_assoc, List.singleton_append]
  rw [ReadsOff, ReadsOff, List.cons_append, lexLoop, step, regroup]

theorem readsOff_backslash_iff {escapable : Char → Bool}
    {state : TokenParserState} {value : Text} {ch : Char} {word : Text}
    {last : Char} {rest : Text}
    (step : lexStep state value '\\' (ch :: word ++ last :: rest) =
      escape escapable state value (ch :: word ++ last :: rest)) :
    ReadsOff state value ('\\' :: ch :: word) last rest ↔
      isLiteral escapable (ch :: word) = true ∧
        ReadsOff state (value ++ ['\\']) (ch :: word) last rest := by
  rw [List.cons_append, escape] at step
  cases special : escapable ch with
  | true =>
      -- The backslash is lost, and the rest cannot make up for it.
      rw [if_pos special] at step
      simp only [isLiteral, special, Bool.not_true, Bool.false_eq_true,
        false_and, iff_false]
      rw [ReadsOff, List.cons_append, List.cons_append, lexLoop, step]
      apply lexLoop_ne_of_lt
      simp only [List.length_append, List.length_cons, List.length_nil]
      omega
  | false =>
      rw [if_neg (by simp [special])] at step
      simp only [isLiteral, special, Bool.not_false, true_and]
      exact ReadsOff.next_iff step

theorem not_readsOff_lastBackslash {escapable : Char → Bool}
    {state : TokenParserState} {value : Text} {last : Char} {rest : Text}
    (special : escapable last = true)
    (step : lexStep state value '\\' (last :: rest) =
      escape escapable state value (last :: rest)) :
    ¬ ReadsOff state value ['\\'] last rest := by
  rw [escape, if_pos special] at step
  rw [ReadsOff, List.cons_append, List.nil_append, lexLoop, step]
  apply lexLoop_ne_of_lt
  simp only [List.length_append, List.length_cons, List.length_nil]
  omega

theorem readsOff_normal_iff {last : Char} (ends : last = ' ' ∨ last = ';')
    (value word rest : Text) :
    ReadsOff .tokenTypeNormal value word last rest ↔
      isWordTail word = true := by
  have lastEnds : endsWord last = true := by rcases ends with rfl | rfl <;> rfl
  have lastSpecial : isEscapable last = true := by
    rcases ends with rfl | rfl <;> rfl
  induction word generalizing value with
  | nil =>
      have step : lexStep .tokenTypeNormal value last rest =
          .done .normal value (last :: rest) := if_pos lastEnds
      simp [ReadsOff, lexLoop, step, isWordTail]
  | cons c word induction =>
      by_cases endsHere : endsWord c = true
      · have step : lexStep .tokenTypeNormal value c (word ++ last :: rest) =
            .done .normal value (c :: (word ++ last :: rest)) :=
          if_pos endsHere
        simp [ReadsOff, lexLoop, step, isWordTail, endsHere]
      by_cases backslash : c = '\\'
      · subst backslash
        have step (rest : Text) : lexStep .tokenTypeNormal value '\\' rest =
          escape isEscapable .tokenTypeNormal value rest := rfl
        cases word with
        | nil =>
            exact iff_of_false
              (not_readsOff_lastBackslash lastSpecial (step _))
              (by simp [isWordTail, isLiteral])
        | cons ch word =>
            refine (readsOff_backslash_iff (step _)).trans
              ((and_congr_right' (induction _)).trans ?_)
            simp [isWordTail, endsHere]
      · have step : lexStep .tokenTypeNormal value c (word ++ last :: rest) =
            .next .tokenTypeNormal (value ++ [c]) :=
          (if_neg endsHere).trans (if_neg backslash)
        refine (ReadsOff.next_iff step).trans ((induction _).trans ?_)
        simp [isWordTail, endsHere, backslash]

theorem readsOff_quoted_iff {last : Char} (ends : last = ' ' ∨ last = ';')
    (value word rest : Text) :
    ReadsOff .singleQuote value word last rest ↔ isQuotedTail word = true := by
  have lastEnds : endsQuoted last = true := by
    rcases ends with rfl | rfl <;> rfl
  induction word generalizing value with
  | nil =>
      simp only [isQuotedTail, Bool.false_eq_true, iff_false]
      exact lexLoop_ne_unread nofun
  | cons c word induction =>
      by_cases backslash : c = '\\'
      · subst backslash
        have step (rest : Text) : lexStep .singleQuote value '\\' rest =
          escape (· = '\x27') .singleQuote value rest := rfl
        cases word with
        | nil =>
            have literal : lexStep .singleQuote value '\\' (last :: rest) =
                .next .singleQuote (value ++ ['\\']) := by
              rcases ends with rfl | rfl <;> rfl
            simp only [isQuotedTail, isLiteral, if_true, Bool.false_and,
              Bool.false_eq_true, iff_false]
            rw [ReadsOff.next_iff literal]
            exact lexLoop_ne_unread nofun
        | cons ch word =>
            refine (readsOff_backslash_iff (step _)).trans
              ((and_congr_right' (induction _)).trans ?_)
            simp [isQuotedTail]
      by_cases quote : c = '\x27'
      · subst quote
        have step (input : Text) : lexStep .singleQuote value '\x27' input =
          closeQuote .singleQuote (value ++ ['\x27']) input := rfl
        cases word with
        | nil =>
            rw [ReadsOff, List.cons_append, lexLoop, step, List.nil_append,
              closeQuote, if_pos lastEnds]
            exact iff_of_true rfl rfl
        | cons ch word =>
            refine iff_of_false ?_ (by simp [isQuotedTail])
            rw [ReadsOff, List.cons_append, lexLoop, step, List.cons_append,
              closeQuote]
            by_cases closes : endsQuoted ch = true
            · simp [closes]
            · simp [closes]
      · have step : lexStep .singleQuote value c (word ++ last :: rest) =
            .next .singleQuote (value ++ [c]) :=
          (if_neg backslash).trans (if_neg quote)
        refine (ReadsOff.next_iff step).trans ((induction _).trans ?_)
        simp [isQuotedTail, backslash, quote]

theorem not_readsOff_returned {state : TokenParserState} {value word : Text}
    {c last : Char} {rest unread found : Text} {type : TokenType}
    (step : lexStep state value c (word ++ last :: rest) =
      .done type found unread) (other : type ≠ .normal) :
    ¬ ReadsOff state value (c :: word) last rest := by
  rw [ReadsOff, List.cons_append, lexLoop, step]
  simp [other]

/-- A character that does not get into the value is missing in the end. -/
theorem not_readsOff_next {state nextState : TokenParserState}
    {value word kept : Text} {c last : Char} {rest : Text}
    (step : lexStep state value c (word ++ last :: rest) =
      .next nextState kept) (short : kept.length ≤ value.length) :
    ¬ ReadsOff state value (c :: word) last rest := by
  rw [ReadsOff, List.cons_append, lexLoop, step]
  apply lexLoop_ne_of_lt
  simp only [List.length_append, List.length_cons]
  omega

theorem lexLoop_inComment {value input found unread : Text} {type : TokenType}
    (returned : lexLoop .tokenTypeComment value input =
      .returned type found unread) : type = .comment := by
  induction input generalizing value with
  | nil => cases returned
  | cons c input induction =>
      by_cases ends : (c = '\n' || c = '\r') = true
      · have step : lexStep .tokenTypeComment value c input =
            .done .comment value input := if_pos ends
        rw [lexLoop, step] at returned
        cases returned
        rfl
      · have step : lexStep .tokenTypeComment value c input =
            .next .tokenTypeComment (value ++ [c]) := if_neg ends
        rw [lexLoop, step] at returned
        exact induction returned

theorem not_readsOff_comment (value word : Text) (last : Char) (rest : Text) :
    ¬ ReadsOff .initialWhitespace value ('#' :: word) last rest := by
  have step (input : Text) : lexStep .initialWhitespace value '#' input =
    .next .tokenTypeComment ['#'] := rfl
  rw [ReadsOff, List.cons_append, lexLoop, step]
  intro returned
  cases lexLoop_inComment returned

theorem readsOff_initial_iff {last : Char} (ends : last = ' ' ∨ last = ';')
    (value word rest : Text) (opens : value = [] → word.head? ≠ some '\x27') :
    ReadsOff .initialWhitespace value word last rest ↔
      isUnquotedWord word = true := by
  have lastSpecial : isEscapable last = true := by
    rcases ends with rfl | rfl <;> rfl
  induction word generalizing value with
  | nil =>
      refine iff_of_false ?_ (by simp [isUnquotedWord])
      exact lexLoop_ne_unread nofun
  | cons c word induction =>
      by_cases backslash : c = '\\'
      · subst backslash
        have step (ch : Char) (rest : Text) :
            lexStep .initialWhitespace value '\\' (ch :: rest) =
              escape isEscapable .initialWhitespace value (ch :: rest) := rfl
        cases word with
        | nil =>
            exact iff_of_false
              (not_readsOff_lastBackslash lastSpecial (step _ _))
              (by simp [isUnquotedWord, isLiteral])
        | cons ch word =>
            refine (readsOff_backslash_iff (step _ _)).trans
              ((and_congr_right' (induction _ (by simp))).trans ?_)
            simp [isUnquotedWord]
      by_cases openBrace : c = '{'
      · subst openBrace
        exact iff_of_false (not_readsOff_returned rfl nofun) nofun
      by_cases closeBrace : c = '}'
      · subst closeBrace
        exact iff_of_false (not_readsOff_returned rfl nofun) nofun
      by_cases semicolon : c = ';'
      · subst semicolon
        exact iff_of_false (not_readsOff_returned rfl nofun) nofun
      by_cases hash : c = '#'
      · subst hash
        exact iff_of_false (not_readsOff_comment _ _ _ _) nofun
      by_cases double : c = '\x22'
      · subst double
        exact iff_of_false (not_readsOff_next rfl (Nat.le_refl _)) nofun
      by_cases single : c = '\x27'
      · subst single
        have later : value ≠ [] := fun start => opens start rfl
        exact iff_of_false
          (not_readsOff_next rfl (List.length_pos_iff.mpr later)) nofun
      have step : lexStep .initialWhitespace value c (word ++ last :: rest) =
          if isBlank c then .next .initialWhitespace value
          else .next .tokenTypeNormal (value ++ [c]) := by
        simp [lexStep, initialWhitespaceCase, openBrace, closeBrace, semicolon,
          hash, double, single, backslash]
      by_cases blank : isBlank c = true
      · rw [if_pos blank] at step
        refine iff_of_false (not_readsOff_next step (Nat.le_refl _)) ?_
        simp [isUnquotedWord, endsWord, backslash, blank]
      · rw [if_neg blank] at step
        refine (ReadsOff.next_iff step).trans
          ((readsOff_normal_iff ends _ word rest).trans ?_)
        simp [isUnquotedWord, endsWord, backslash, hash, double, single, blank,
          semicolon, openBrace, closeBrace]

/-- A word is read back from a printed statement exactly when it is printable. -/
theorem parseToken_iff (token : Text) {last : Char}
    (ends : last = ' ' ∨ last = ';') (rest : Text) :
    parseToken (token ++ last :: rest) = ((.normal, token), last :: rest) ↔
      isPrintable token = true := by
  have called : parseToken (token ++ last :: rest) =
        ((.normal, token), last :: rest) ↔
      ReadsOff .initialWhitespace [] token last rest := by
    unfold parseToken ReadsOff
    split
    next type value unread returned => simp [returned, and_assoc]
    next state value ended => simp [ended]
  rw [called]
  by_cases quoted : token.head? = some '\x27'
  · cases token with
    | nil => cases quoted
    | cons c token =>
        obtain rfl := Option.some.inj quoted
        have step : lexStep .initialWhitespace [] '\x27'
            (token ++ last :: rest) = .next .singleQuote ['\x27'] := rfl
        exact (ReadsOff.next_iff step).trans
          (readsOff_quoted_iff ends _ token rest)
  · have unquoted : isPrintable token = isUnquotedWord token := by
      unfold isPrintable
      split
      · exact absurd rfl quoted
      · rfl
    rw [unquoted]
    exact readsOff_initial_iff ends [] token rest fun _ => quoted

theorem reread_iff (token : Text) :
    Reread token ↔ isPrintable token = true :=
  ⟨fun reread => (parseToken_iff token (.inr rfl) []).mp
      (reread ';' [] (.inr rfl)),
    fun printable _ rest ends => (parseToken_iff token ends rest).mpr printable⟩

/-! Trees of such words, printed and parsed. -/

theorem parse_printed (config : NginxConfig)
    (reread : config.Every fun tokens =>
      tokens ≠ [] ∧ ∀ token ∈ tokens, Reread token) :
    parse (config.toString 0) (.mk []) = .returned true config := by
  obtain ⟨statements⟩ := config
  obtain ⟨left, leftBlank, lexes⟩ :=
    reread_statements 0 statements reread [] [] blanks_nil
  simp only [List.nil_append, List.append_nil] at lexes
  have final : (parseToken left).1.1 = .eof := by
    rw [← List.append_nil left, parseToken_blanks leftBlank]
    rfl
  have derivation : Derives
      (lexemesOf ((statementLexemes statements).map Lexeme.result))
      (.mk statements) := by
    rw [lexemesOf_result, derives_iff]
    exact ⟨rfl, reread.imp fun tokens tokensReread => tokensReread.1⟩
  exact parse_derived lexes final derivation

theorem quotedCase_ne_comment {quote : Char} {closed : Text}
    {state : TokenParserState} {value : Text} {c : Char}
    {rest found unread : Text} :
    quotedCase quote closed state value c rest ≠
      .done .comment found unread := by
  unfold quotedCase
  split
  · exact escape_ne_done _ _ _ _
  split
  · unfold closeQuote
    split
    · nofun
    · split <;> nofun
  · nofun

/-- Only the state inside a comment returns one. -/
theorem lexStep_comment {state : TokenParserState} {value : Text} {c : Char}
    {rest found unread : Text}
    (done : lexStep state value c rest = .done .comment found unread) :
    state = .tokenTypeComment ∧ unread = rest := by
  cases state with
  | initialWhitespace =>
      by_cases backslash : c = '\\'
      · subst backslash
        cases rest with
        | nil => cases done
        | cons ch rest =>
            have escaped : escape isEscapable .initialWhitespace value
                (ch :: rest) = .done .comment found unread := done
            exact absurd escaped (escape_ne_done _ _ _ _)
      · simp only [lexStep, initialWhitespaceCase, if_neg backslash] at done
        repeat' split at done
        all_goals cases done
  | singleQuote => exact absurd done quotedCase_ne_comment
  | doubleQuote => exact absurd done quotedCase_ne_comment
  | tokenTypeComment =>
      simp only [lexStep, commentCase] at done
      split at done
      · cases done
        exact ⟨rfl, rfl⟩
      · cases done
  | tokenTypeNormal =>
      simp only [lexStep, normalCase] at done
      split at done
      · cases done
      · split at done
        · exact absurd done (escape_ne_done _ _ _ _)
        · cases done

/-- A comment costs its first character and its newline. -/
theorem lexLoop_comment_length {state : TokenParserState}
    {value input found unread : Text}
    (returned : lexLoop state value input =
      .returned .comment found unread) :
    unread.length + (if state = .tokenTypeComment then 1 else 2) ≤
      input.length := by
  have bounds (state : TokenParserState) :
      1 ≤ (if state = .tokenTypeComment then 1 else 2) ∧
        (if state = .tokenTypeComment then 1 else 2) ≤ 2 := by
    split <;> decide
  fun_induction lexLoop state value input with
  | case1 => cases returned
  | case2 state value c rest nextState nextValue stepped induction =>
      have later := induction returned
      have here := bounds state
      have next := bounds nextState
      rw [List.length_cons]
      omega
  | case3 => cases returned
  | case4 state value c nextState nextValue ch rest stepped induction =>
      have later := induction returned
      have here := bounds state
      simp only [List.length_cons]
      omega
  | case5 state value c rest type found unread stepped =>
      cases returned
      obtain ⟨inComment, rfl⟩ := lexStep_comment stepped
      rw [if_pos inComment]
      exact Nat.le_refl (unread.length + 1)
  | case6 => cases returned

theorem parseToken_comment_length {input value unread : Text}
    (called : parseToken input = ((.comment, value), unread)) :
    unread.length + 2 ≤ input.length :=
  lexLoop_comment_length (parseToken_returned called (by simp) (by simp))

def Lexeme.size : Lexeme → Nat
  | .word token => token.length
  | _ => 1

def lexemesSize : List Lexeme → Nat
  | [] => 0
  | lexeme :: rest => lexeme.size + lexemesSize rest

theorem lexeme?_word {result : TokenResult} {token : Text}
    (isWord : lexeme? result = some (.word token)) :
    result = (.normal, token) := by
  obtain ⟨type, value⟩ := result
  cases type with
  | normal => cases isWord; rfl
  | _ => cases isWord

theorem parseToken_size {input unread : Text} {result : TokenResult}
    {lexeme : Lexeme} (called : parseToken input = (result, unread))
    (isLexeme : lexeme? result = some lexeme) :
    lexeme.size + unread.length ≤ input.length := by
  have isBody : isBodyResult result = true := by
    rw [isBodyResult, isLexeme, Option.isSome_some, Bool.or_true]
  have shorter : unread.length < input.length := by
    obtain ⟨_, ⟨_, shorter⟩ | final⟩ := parseToken_progress input
    · rwa [called] at shorter
    · rw [called] at final
      obtain ⟨type, value⟩ := result
      rcases final with rfl | rfl <;> cases isLexeme
  cases lexeme with
  | word token =>
      obtain rfl := lexeme?_word isLexeme
      have returned := parseToken_returned called (by simp) (by simp)
      simpa [Lexeme.size] using lexLoop_size returned
  | semicolon => exact Nat.add_comm 1 _ ▸ shorter
  | openBrace => exact Nat.add_comm 1 _ ▸ shorter
  | closeBrace => exact Nat.add_comm 1 _ ▸ shorter

theorem Lexes.size {input unread : Text} {results : List TokenResult}
    (lexes : Lexes input results unread) :
    lexemesSize (lexemesOf results) + unread.length ≤ input.length := by
  induction lexes with
  | nil input => exact Nat.le_of_eq (Nat.zero_add _)
  | @cons input middle last result results head tail induction =>
      rcases isBodyResult_cases head.2 with ⟨value, rfl⟩ | ⟨lexeme, isLexeme⟩
      · rw [lexemesOf_cons_comment]
        have suffix := (parseToken_progress input).1
        rw [head.1] at suffix
        exact Nat.le_trans induction suffix.length_le
      · rw [lexemesOf_cons_lexeme isLexeme, lexemesSize]
        have size := parseToken_size head.1 isLexeme
        omega

theorem lexes_eof {input unread : Text} {results : List TokenResult}
    (ended : (parseToken input).1.1 = .eof)
    (lexes : Lexes input results unread) : results = [] := by
  cases lexes with
  | nil => rfl
  | @cons _ _ _ result _ head _ =>
      obtain ⟨type, value⟩ := result
      rw [head.1] at ended
      cases ended
      cases head.2

/-- Where a word with a semicolon behind it is lexed into the two of them, the
first call takes the whole word. -/
theorem reread_of_lexes {token unread : Text} {results : List TokenResult}
    (lexes : Lexes (token ++ [';', '\n']) results unread)
    (same : lexemesOf results = [.word token, .semicolon]) :
    parseToken (token ++ [';', '\n']) = ((.normal, token), [';', '\n']) := by
  cases lexes with
  | nil => cases same
  | @cons _ middle _ result results head tail =>
      have suffix := (parseToken_progress (token ++ [';', '\n'])).1
      rw [head.1] at suffix
      have tailSize := Lexes.size tail
      rcases isBodyResult_cases head.2 with ⟨value, rfl⟩ | ⟨lexeme, isLexeme⟩
      · -- After a comment there is too little left for the word.
        rw [lexemesOf_cons_comment] at same
        have short := parseToken_comment_length head.1
        simp only [same, lexemesSize, Lexeme.size] at tailSize
        simp only [List.length_append, List.length_cons, List.length_nil]
          at short
        omega
      · rw [lexemesOf_cons_lexeme isLexeme] at same
        obtain ⟨rfl, semicolon⟩ := List.cons.inj same
        have size := parseToken_size head.1 isLexeme
        simp only [Lexeme.size, List.length_append, List.length_cons,
          List.length_nil] at size
        have behind : middle <:+ [';', '\n'] :=
          List.suffix_of_suffix_length_le suffix
            (List.suffix_append token [';', '\n'])
            (by simp only [List.length_cons, List.length_nil]; omega)
        have called := head.1
        rw [lexeme?_word isLexeme] at called
        rcases List.suffix_cons_iff.mp behind with whole | newline
        · rw [called, whole]
        · have ended : (parseToken middle).1.1 = .eof := by
            rcases List.suffix_cons_iff.mp newline with rfl | empty
            · rfl
            · rw [List.suffix_nil.mp empty]
              rfl
          rw [lexes_eof ended tail] at semicolon
          cases semicolon

/-- The words with which every tree is printed and parsed back are the printable
ones, and no others. -/
theorem roundTrips_iff (allowed : Text → Prop) :
    (∀ config : NginxConfig,
      config.Every (fun tokens =>
        tokens ≠ [] ∧ ∀ token ∈ tokens, allowed token) →
      parse (config.toString 0) (.mk []) = .returned true config) ↔
    ∀ token, allowed token → isPrintable token = true := by
  constructor
  · intro roundTrips token tokenAllowed
    have accepted := roundTrips (.mk [.mk [token] none]) (by
      simp [NginxConfig.Every, EveryStatement, NginxConfigStatement.Every,
        tokenAllowed])
    have printed : (NginxConfig.mk [.mk [token] none]).toString 0 =
        token ++ [';', '\n'] := by
      simp [NginxConfig.toString, statementsToString,
        NginxConfigStatement.toString, joinTokens, indentation]
    rw [printed] at accepted
    obtain ⟨results, unread, lexes, _, derivation⟩ := parse_accepts accepted
    have same := ((derives_iff _ _).mp derivation).1.symm
    exact (parseToken_iff token (.inr rfl) ['\n']).mp
      (reread_of_lexes lexes same)
  · intro printable config words
    refine parse_printed config (words.imp fun tokens tokensAllowed => ?_)
    exact ⟨tokensAllowed.1, fun token member =>
      (reread_iff token).mpr (printable token (tokensAllowed.2 token member))⟩

example : isPrintable "a\\b".toList = true ∧
    isPrintable "a\\ b".toList = false := by decide

/-! Texts without backslashes and double quotes. -/

/-- None of the two characters that the lexer may leave out of a value. -/
def KeepsAll (input : Text) : Prop :=
  ∀ c ∈ input, c ≠ '\\' ∧ c ≠ '\x22'

instance (input : Text) : Decidable (KeepsAll input) :=
  List.decidableBAll _ input

theorem KeepsAll.tail {c : Char} {input : Text} (keeps : KeepsAll (c :: input)) :
    KeepsAll input :=
  fun other member => keeps other (List.mem_cons_of_mem _ member)

theorem lexLoop_normal_keeps {value input found unread : Text}
    (keeps : KeepsAll input)
    (returned : lexLoop .tokenTypeNormal value input =
      .returned .normal found unread) :
    ∃ word, found = value ++ word ∧ isWordTail word = true := by
  induction input generalizing value with
  | nil => cases returned
  | cons c input induction =>
      have backslash := (keeps c List.mem_cons_self).1
      by_cases ends : endsWord c = true
      · have step : lexStep .tokenTypeNormal value c input =
            .done .normal value (c :: input) := if_pos ends
        rw [lexLoop, step] at returned
        cases returned
        exact ⟨[], (List.append_nil _).symm, rfl⟩
      · have plain : isPlainChar c = true := by
          simp [isPlainChar, ends, backslash]
        rw [lexLoop_plain plain (.inl rfl)] at returned
        obtain ⟨word, rfl, tail⟩ := induction keeps.tail returned
        refine ⟨c :: word, by simp, ?_⟩
        simp [isWordTail, ends, backslash, tail]

theorem lexLoop_quoted_keeps {value input found unread : Text}
    (keeps : KeepsAll input)
    (returned : lexLoop .singleQuote value input =
      .returned .normal found unread) :
    ∃ word, found = value ++ word ∧ isQuotedTail word = true := by
  induction input generalizing value with
  | nil => cases returned
  | cons c input induction =>
      have backslash := (keeps c List.mem_cons_self).1
      by_cases quote : c = '\x27'
      · have step : lexStep .singleQuote value c input =
            closeQuote .singleQuote (value ++ [c]) input :=
          (if_neg backslash).trans (if_pos quote)
        subst quote
        have closed : found = value ++ ['\x27'] := by
          rw [lexLoop, step] at returned
          cases input with
          | nil => cases returned
          | cons ch input =>
              rw [closeQuote] at returned
              by_cases closes : endsQuoted ch = true
              · rw [if_pos closes] at returned
                cases returned
                rfl
              · rw [if_neg closes] at returned
                cases returned
        exact ⟨['\x27'], closed, rfl⟩
      · have step : lexStep .singleQuote value c input =
            .next .singleQuote (value ++ [c]) :=
          (if_neg backslash).trans (if_neg quote)
        rw [lexLoop, step] at returned
        obtain ⟨word, rfl, tail⟩ := induction keeps.tail returned
        refine ⟨c :: word, by simp, ?_⟩
        simp [isQuotedTail, backslash, quote, tail]

theorem lexLoop_initial_keeps {input found unread : Text}
    (keeps : KeepsAll input)
    (returned : lexLoop .initialWhitespace [] input =
      .returned .normal found unread) : isPrintable found = true := by
  induction input with
  | nil => cases returned
  | cons c input induction =>
      obtain ⟨backslash, double⟩ := keeps c List.mem_cons_self
      by_cases openBrace : c = '{'
      · subst openBrace
        cases returned
      by_cases closeBrace : c = '}'
      · subst closeBrace
        cases returned
      by_cases semicolon : c = ';'
      · subst semicolon
        cases returned
      by_cases hash : c = '#'
      · subst hash
        cases lexLoop_inComment returned
      by_cases single : c = '\x27'
      · subst single
        obtain ⟨word, rfl, tail⟩ := lexLoop_quoted_keeps keeps.tail returned
        exact tail
      by_cases blank : isBlank c = true
      · rw [lexLoop_blank blank] at returned
        exact induction keeps.tail returned
      · have plain : isPlainChar c = true := by
          simp [isPlainChar, endsWord, blank, semicolon, openBrace, closeBrace,
            backslash]
        rw [lexLoop_plain plain (.inr ⟨rfl, hash, double, single⟩)] at returned
        obtain ⟨word, rfl, tail⟩ := lexLoop_normal_keeps keeps.tail returned
        have unquoted : isPrintable ([] ++ [c] ++ word) =
            isUnquotedWord (c :: word) := by
          unfold isPrintable
          split
          next equation => exact absurd (List.cons.inj equation).1 single
          · rfl
        rw [unquoted]
        simp [isUnquotedWord, endsWord, backslash, hash, double, single, blank,
          semicolon, openBrace, closeBrace, tail]

theorem parseToken_keeps {input token unread : Text} (keeps : KeepsAll input)
    (called : parseToken input = ((.normal, token), unread)) :
    isPrintable token = true :=
  lexLoop_initial_keeps keeps (parseToken_returned called (by simp) (by simp))

theorem Lexes.printable {input unread : Text} {results : List TokenResult}
    (lexes : Lexes input results unread) (keeps : KeepsAll input) :
    ∀ token, Lexeme.word token ∈ lexemesOf results →
      isPrintable token = true := by
  induction lexes with
  | nil => simp [lexemesOf]
  | @cons input middle _ result results head tail induction =>
      have suffix := (parseToken_progress input).1
      rw [head.1] at suffix
      have later := induction fun c member => keeps c (suffix.subset member)
      rcases isBodyResult_cases head.2 with ⟨value, rfl⟩ | ⟨lexeme, isLexeme⟩
      · exact later
      intro token member
      rw [lexemesOf_cons_lexeme isLexeme] at member
      rcases List.mem_cons.mp member with rfl | member
      · obtain rfl := lexeme?_word isLexeme
        exact parseToken_keeps keeps head.1
      · exact later token member

mutual
theorem every_of_lexemes {property : Text → Prop} :
    (statements : List NginxConfigStatement) →
    EveryStatement (· ≠ []) statements →
    (∀ token, Lexeme.word token ∈ statementLexemes statements →
      property token) →
    EveryStatement (fun tokens =>
      tokens ≠ [] ∧ ∀ token ∈ tokens, property token) statements
  | [], _, _ => trivial
  | statement :: statements, tokenized, words =>
      ⟨statement.every_of_lexemes tokenized.1 fun token member =>
          words token (List.mem_append_left _ member),
        every_of_lexemes statements tokenized.2 fun token member =>
          words token (List.mem_append_right _ member)⟩

theorem NginxConfigStatement.every_of_lexemes {property : Text → Prop} :
    (statement : NginxConfigStatement) →
    statement.Every (· ≠ []) →
    (∀ token, Lexeme.word token ∈ statement.lexemes → property token) →
    statement.Every (fun tokens =>
      tokens ≠ [] ∧ ∀ token ∈ tokens, property token)
  | .mk tokens none, tokenized, words =>
      ⟨tokenized, fun token member => words token
        (List.mem_append_left _ (List.mem_map_of_mem member))⟩
  | .mk tokens (some (.mk inner)), tokenized, words => by
      rw [NginxConfigStatement.lexemes, NginxConfig.lexemes] at words
      refine ⟨⟨tokenized.1, fun token member => ?_⟩,
        every_of_lexemes inner tokenized.2 fun token member => ?_⟩
      · apply words
        simp [member]
      · apply words
        simp [member]
end

/-- What is printed of a config that a text without backslashes and double quotes
is parsed into is parsed into it again. -/
theorem parse_reprinted {input : Text} (keeps : KeepsAll input)
    {tree : NginxConfig}
    (accepted : parse input (.mk []) = .returned true tree) :
    parse (tree.toString 0) (.mk []) = .returned true tree := by
  obtain ⟨results, unread, lexes, _, derivation⟩ := parse_accepts accepted
  obtain ⟨statements⟩ := tree
  obtain ⟨lexemes, tokenized⟩ := (derives_iff _ _).mp derivation
  refine parse_printed _ (every_of_lexemes statements tokenized ?_)
  intro token member
  exact (reread_iff token).mpr
    (lexes.printable keeps token (lexemes ▸ member))

/-- A comment, a nested block and a word in single quotes. -/
theorem parse_reprinted_quoted :
    parse ((NginxConfig.mk [
        .mk ["server".toList] (some (.mk [
          .mk ["root".toList, "'a b'".toList] none]))]).toString 0) (.mk []) =
      .returned true (.mk [
        .mk ["server".toList] (some (.mk [
          .mk ["root".toList, "'a b'".toList] none]))]) :=
  parse_reprinted
    (show KeepsAll "# c\nserver \x7b root  'a b'; \x7d".toList by decide) rfl

end HttpsServer.Config
