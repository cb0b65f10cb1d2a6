import HttpsServer.Config.RoundTrip

namespace HttpsServer.Config

open HttpsServer.Data

/-! Words in double quotes. -/

/-- A backslash before every double quote, and nothing else changed. -/
def escapeQuotes (text : Text) : Text :=
  text.flatMap fun c => if c = '\x22' then ['\\', '\x22'] else [c]

theorem escapeQuotes_cons (c : Char) (text : Text) :
    escapeQuotes (c :: text) =
      (if c = '\x22' then ['\\', '\x22'] else [c]) ++ escapeQuotes text :=
  List.flatMap_cons

theorem escapeQuotes_head? {c : Char} {text : Text} (rest : Text) :
    (escapeQuotes (c :: text) ++ rest).head? ≠ some '\x22' := by
  rw [escapeQuotes_cons]
  split
  next => simp
  next other => simpa using other

theorem escapeQuotes_of_noQuote {text : Text}
    (noQuote : ∀ c ∈ text, c ≠ '\x22') : escapeQuotes text = text := by
  induction text with
  | nil => rfl
  | cons c text induction =>
      rw [escapeQuotes_cons, if_neg (noQuote c List.mem_cons_self),
        induction fun other member => noQuote other
          (List.mem_cons_of_mem _ member)]
      rfl

theorem lexStep_literalBackslash (value : Text) {rest : Text}
    (nonempty : rest ≠ []) (notQuote : rest.head? ≠ some '\x22') :
    lexStep .doubleQuote value '\\' rest =
      .next .doubleQuote (value ++ ['\\']) := by
  cases rest with
  | nil => contradiction
  | cons ch rest =>
      have other : ch ≠ '\x22' := by simpa using notQuote
      simp [lexStep, doubleQuoteCase, quotedCase, escape, other]

theorem lexLoop_escapeQuotes {text : Text}
    (noBackslash : text.getLast? ≠ some '\\') {last : Char}
    (ends : endsQuoted last = true) (value rest : Text) :
    lexLoop .doubleQuote value
        (escapeQuotes text ++ '\x22' :: last :: rest) =
      .returned .normal (value ++ text) (last :: rest) := by
  induction text generalizing value with
  | nil =>
      rw [List.append_nil]
      simp [escapeQuotes, lexLoop, lexStep, doubleQuoteCase, quotedCase,
        closeQuote, ends]
  | cons c text induction =>
      have remaining : text.getLast? ≠ some '\\' := by
        intro final
        apply noBackslash
        rw [List.getLast?_cons, final]
        rfl
      have value_append : value ++ c :: text = (value ++ [c]) ++ text := by
        rw [List.append_assoc, List.singleton_append]
      rw [escapeQuotes_cons, value_append, ← induction remaining]
      by_cases quote : c = '\x22'
      · subst quote
        rfl
      rw [if_neg quote]
      by_cases backslash : c = '\\'
      · subst backslash
        -- The text goes on, since a backslash is not its last character.
        have notQuote : (escapeQuotes text ++ '\x22' :: last :: rest).head? ≠
            some '\x22' := by
          cases text with
          | nil => simp at noBackslash
          | cons next text => exact escapeQuotes_head? _
        have literal := lexStep_literalBackslash value (by simp) notQuote
        rw [List.append_assoc, List.singleton_append, lexLoop, literal]
      · have step : lexStep .doubleQuote value c
            (escapeQuotes text ++ '\x22' :: last :: rest) =
              .next .doubleQuote (value ++ [c]) := by
          simp [lexStep, doubleQuoteCase, quotedCase, quote, backslash]
        rw [List.append_assoc, List.singleton_append, lexLoop, step]

/-- The value so far ends in a backslash only if no quote comes next. -/
def ReadsOn (value input : Text) : Prop :=
  value.getLast? = some '\\' → input.head? ≠ some '\x22'

theorem ReadsOn.of_other {value : Text} {c : Char} (other : c ≠ '\\')
    (input : Text) : ReadsOn (value ++ [c]) input := by
  intro final
  rw [List.getLast?_concat] at final
  exact absurd (Option.some.inj final) other

theorem lexStep_doubleQuote {value : Text} {c : Char} {rest : Text}
    (readsOn : ReadsOn value (c :: rest)) :
    match lexStep .doubleQuote value c rest with
    | .next state value => state = .doubleQuote ∧ ReadsOn value rest
    | .skip state value => state = .doubleQuote ∧ ∀ input, ReadsOn value input
    | .done type value _ =>
        type = .normal → value.getLast? ≠ some '\\'
    | .stop _ _ => True := by
  simp only [lexStep, doubleQuoteCase, quotedCase]
  by_cases backslash : c = '\\'
  · rw [if_pos backslash]
    cases rest with
    | nil => trivial
    | cons ch rest =>
        by_cases quote : ch = '\x22'
        · subst quote
          exact ⟨rfl, fun input => ReadsOn.of_other (by decide) input⟩
        · have literal : escape (· = '\x22') .doubleQuote value (ch :: rest) =
              .next .doubleQuote (value ++ ['\\']) := by
            simp [escape, quote]
          rw [literal]
          exact ⟨rfl, fun _ => by simpa using quote⟩
  rw [if_neg backslash]
  by_cases quote : c = '\x22'
  · subst quote
    rw [if_pos rfl]
    have closed : value.getLast? ≠ some '\\' := fun final =>
      readsOn final rfl
    cases rest with
    | nil => trivial
    | cons ch rest =>
        rw [closeQuote]
        by_cases ends : endsQuoted ch = true
        · rw [if_pos ends]
          exact fun _ => closed
        · rw [if_neg ends]
          intro normal
          contradiction
  · rw [if_neg quote]
    exact ⟨rfl, ReadsOn.of_other backslash rest⟩

theorem lexLoop_doubleQuote {state : TokenParserState}
    {value input found unread : Text} (quoted : state = .doubleQuote)
    (readsOn : ReadsOn value input)
    (returned : lexLoop state value input = .returned .normal found unread) :
    found.getLast? ≠ some '\\' := by
  fun_induction lexLoop state value input with
  | case1 => cases returned
  | case2 state value c rest nextState nextValue stepped induction =>
      subst quoted
      have round := lexStep_doubleQuote readsOn
      rw [stepped] at round
      exact induction round.1 round.2 returned
  | case3 => cases returned
  | case4 state value c nextState nextValue ch rest stepped induction =>
      subst quoted
      have round := lexStep_doubleQuote readsOn
      rw [stepped] at round
      exact induction round.1 (round.2 rest) returned
  | case5 state value c rest type found unread stepped =>
      subst quoted
      cases returned
      have round := lexStep_doubleQuote readsOn
      rw [stepped] at round
      exact round rfl
  | case6 => cases returned

/-- A text that does not end in a backslash is read back from its double quotes. -/
theorem parseToken_escapeQuotes {text : Text}
    (noBackslash : text.getLast? ≠ some '\\') {last : Char}
    (ends : endsQuoted last = true) (rest : Text) :
    parseToken ('\x22' :: (escapeQuotes text ++ '\x22' :: last :: rest)) =
      ((.normal, text), last :: rest) := by
  have opened : lexLoop .initialWhitespace []
      ('\x22' :: (escapeQuotes text ++ '\x22' :: last :: rest)) =
    lexLoop .doubleQuote []
      (escapeQuotes text ++ '\x22' :: last :: rest) := rfl
  rw [parseToken, opened, lexLoop_escapeQuotes noBackslash ends]
  rfl

/-- Double quotes denote exactly the texts that do not end in a backslash. -/
theorem parseToken_doubleQuoted :
    (∀ (text rest : Text) (last : Char), text.getLast? ≠ some '\\' →
      endsQuoted last = true →
      parseToken
          ('\x22' :: (escapeQuotes text ++ '\x22' :: last :: rest)) =
        ((.normal, text), last :: rest)) ∧
    ∀ input value unread : Text,
      parseToken ('\x22' :: input) = ((.normal, value), unread) →
      value.getLast? ≠ some '\\' := by
  constructor
  · intro text rest last noBackslash ends
    exact parseToken_escapeQuotes noBackslash ends rest
  · intro input value unread called
    have opened : lexLoop .initialWhitespace [] ('\x22' :: input) =
        lexLoop .doubleQuote [] input := rfl
    rw [parseToken, opened] at called
    split at called
    next type found rest returned =>
      cases called
      have start : ReadsOn [] input := fun final => by contradiction
      exact lexLoop_doubleQuote rfl start returned
    next state found ended =>
      simp only [endOfFileType] at called
      split at called <;> cases called

/-- A backslash before a quote, and two before the last character. -/
theorem parseToken_doubleQuoted_backslashes :
    parseToken "\"a\\\\\"\\\\b\";".toList =
      ((.normal, "a\\\"\\\\b".toList), ";".toList) :=
  parseToken_doubleQuoted.1 "a\\\"\\\\b".toList [] ';' (by decide) rfl

/-! Words in single quotes, which the lexer leaves in the value. -/

theorem lexLoop_singleQuote {text : Text}
    (unquoted : ∀ c ∈ text, c ≠ '\x27' ∧ c ≠ '\\') {last : Char}
    (ends : endsQuoted last = true) (value rest : Text) :
    lexLoop .singleQuote value (text ++ '\x27' :: last :: rest) =
      .returned .normal (value ++ text ++ ['\x27']) (last :: rest) := by
  induction text generalizing value with
  | nil =>
      rw [List.append_nil]
      simp [lexLoop, lexStep, singleQuoteCase, quotedCase, closeQuote, ends]
  | cons c text induction =>
      obtain ⟨quote, backslash⟩ := unquoted c List.mem_cons_self
      have step : lexStep .singleQuote value c
          (text ++ '\x27' :: last :: rest) =
            .next .singleQuote (value ++ [c]) := by
        simp [lexStep, singleQuoteCase, quotedCase, quote, backslash]
      rw [List.cons_append, lexLoop, step]
      dsimp only
      rw [induction fun other member => unquoted other
        (List.mem_cons_of_mem _ member)]
      simp

theorem parseToken_singleQuoted {text : Text}
    (unquoted : ∀ c ∈ text, c ≠ '\x27' ∧ c ≠ '\\') {last : Char}
    (ends : endsQuoted last = true) (rest : Text) :
    parseToken ('\x27' :: (text ++ '\x27' :: last :: rest)) =
      ((.normal, '\x27' :: (text ++ ['\x27'])), last :: rest) := by
  have opened : lexLoop .initialWhitespace []
      ('\x27' :: (text ++ '\x27' :: last :: rest)) =
    lexLoop .singleQuote ['\x27'] (text ++ '\x27' :: last :: rest) := rfl
  rw [parseToken, opened, lexLoop_singleQuote unquoted ends]
  rfl

/-! Words in which the special characters are escaped. -/

/-- A backslash before every character that ends a word or starts a comment. -/
def escapeSpecial (text : Text) : Text :=
  text.flatMap fun c => if isEscapable c then ['\\', c] else [c]

theorem escapeSpecial_cons (c : Char) (text : Text) :
    escapeSpecial (c :: text) =
      (if isEscapable c then ['\\', c] else [c]) ++ escapeSpecial text :=
  List.flatMap_cons

theorem escapeSpecial_append (left right : Text) :
    escapeSpecial (left ++ right) = escapeSpecial left ++ escapeSpecial right :=
  List.flatMap_append

/-- The characters of a word that need no quotes. -/
def Unquoted (text : Text) : Prop :=
  ∀ c ∈ text, c ≠ '\r' ∧ c ≠ '\n' ∧ c ≠ '\x22' ∧ c ≠ '\x27' ∧ c ≠ '\\'

instance (text : Text) : Decidable (Unquoted text) :=
  List.decidableBAll _ text

theorem isPlainChar_of_unescaped {c : Char} (unescaped : ¬ isEscapable c = true)
    (unquoted : c ≠ '\r' ∧ c ≠ '\n' ∧ c ≠ '\x22' ∧ c ≠ '\x27' ∧ c ≠ '\\') :
    isPlainChar c = true ∧ c ≠ '#' ∧ c ≠ '\x22' ∧ c ≠ '\x27' := by
  simp only [isEscapable, Bool.or_eq_true, decide_eq_true_eq, not_or]
    at unescaped
  obtain ⟨⟨⟨⟨⟨space, tab⟩, semicolon⟩, openBrace⟩, closeBrace⟩, hash⟩ := unescaped
  obtain ⟨carriageReturn, newline, double, single, backslash⟩ := unquoted
  refine ⟨?_, hash, double, single⟩
  simp [isPlainChar, endsWord, isBlank, *]

theorem lexLoop_escaped {state : TokenParserState} {c : Char}
    (escaped : isEscapable c = true)
    (unquoted : state = .tokenTypeNormal ∨ state = .initialWhitespace)
    (value rest : Text) :
    lexLoop state value ('\\' :: c :: rest) =
      lexLoop state (value ++ [c]) rest := by
  rcases unquoted with rfl | rfl
  · have step : lexStep .tokenTypeNormal value '\\' (c :: rest) =
        .skip .tokenTypeNormal (value ++ [c]) := if_pos escaped
    rw [lexLoop, step]
  · have step : lexStep .initialWhitespace value '\\' (c :: rest) =
        .skip .initialWhitespace (value ++ [c]) := if_pos escaped
    rw [lexLoop, step]

theorem lexLoop_escapeSpecial {text : Text} (unquoted : Unquoted text)
    {last : Char} (ends : endsWord last = true) (value rest : Text) :
    lexLoop .tokenTypeNormal value (escapeSpecial text ++ last :: rest) =
      .returned .normal (value ++ text) (last :: rest) := by
  induction text generalizing value with
  | nil =>
      have step : lexStep .tokenTypeNormal value last rest =
          .done .normal value (last :: rest) := if_pos ends
      rw [List.append_nil]
      change lexLoop .tokenTypeNormal value (last :: rest) = _
      rw [lexLoop, step]
  | cons c text induction =>
      have remaining : Unquoted text := fun other member =>
        unquoted other (List.mem_cons_of_mem _ member)
      have value_append : value ++ c :: text = (value ++ [c]) ++ text := by
        rw [List.append_assoc, List.singleton_append]
      rw [escapeSpecial_cons, value_append, ← induction remaining]
      split
      next escaped => exact lexLoop_escaped escaped (.inl rfl) value _
      next unescaped =>
        obtain ⟨plain, _⟩ := isPlainChar_of_unescaped unescaped
          (unquoted c List.mem_cons_self)
        exact lexLoop_plain plain (.inl rfl) _

theorem lexLoop_allEscaped {text : Text}
    (escaped : ∀ c ∈ text, isEscapable c = true) (value rest : Text) :
    lexLoop .initialWhitespace value (escapeSpecial text ++ rest) =
      lexLoop .initialWhitespace (value ++ text) rest := by
  induction text generalizing value with
  | nil => rw [List.append_nil]; rfl
  | cons c text induction =>
      have value_append : value ++ c :: text = (value ++ [c]) ++ text := by
        rw [List.append_assoc, List.singleton_append]
      rw [escapeSpecial_cons, if_pos (escaped c List.mem_cons_self),
        value_append, ← induction fun other member =>
          escaped other (List.mem_cons_of_mem _ member)]
      exact lexLoop_escaped (escaped c List.mem_cons_self) (.inr rfl) value _

/-- The escaped form of a text is read back as the text exactly when one of its
characters needs no escape. -/
theorem parseToken_escapeSpecial_iff {text : Text} (unquoted : Unquoted text)
    {last : Char} (ends : endsWord last = true) (rest : Text) :
    parseToken (escapeSpecial text ++ last :: rest) =
        ((.normal, text), last :: rest) ↔
      ∃ c ∈ text, isEscapable c = false := by
  constructor
  · intro called
    apply Classical.byContradiction
    intro none_unescaped
    have escaped : ∀ c ∈ text, isEscapable c = true := fun c member =>
      eq_true_of_ne_false fun unescaped =>
        none_unescaped ⟨c, member, unescaped⟩
    rw [parseToken, lexLoop_allEscaped escaped] at called
    split at called
    next type found unread returned =>
      cases called
      -- What is left unread would have to be shorter than itself.
      have outside : TokenParserState.initialWhitespace ≠ .tokenTypeNormal := by
        decide
      have shorter := (lexLoop_returned returned).2.2 outside
      exact Nat.lt_irrefl _ shorter
    next => cases congrArg Prod.snd called
  · rintro ⟨found, member, foundUnescaped⟩
    -- The first such character takes the lexer into the word.
    cases first : text.find? fun c => !isEscapable c with
    | none =>
        have escaped := List.find?_eq_none.mp first found member
        simp [foundUnescaped] at escaped
    | some c =>
        obtain ⟨unescaped, before, after, rfl, escaped⟩ :=
          List.find?_eq_some_iff_append.mp first
        simp only [Bool.not_eq_true', Bool.not_not] at unescaped escaped
        have needsNone : ¬ isEscapable c = true := by simp [unescaped]
        obtain ⟨plain, opensNothing⟩ := isPlainChar_of_unescaped needsNone
          (unquoted c (List.mem_append_right _ List.mem_cons_self))
        have remaining : Unquoted after := fun other member =>
          unquoted other (List.mem_append_right _
            (List.mem_cons_of_mem _ member))
        rw [parseToken, escapeSpecial_append, escapeSpecial_cons,
          if_neg needsNone, List.append_assoc, lexLoop_allEscaped escaped,
          List.append_assoc, List.singleton_append,
          lexLoop_plain plain (.inr ⟨rfl, opensNothing⟩),
          lexLoop_escapeSpecial remaining ends, List.nil_append,
          List.append_assoc, List.singleton_append]

theorem parseToken_escapeSpecial_led :
    parseToken "\\ \\#a\\;;".toList = ((.normal, " #a;".toList), ";".toList) := by
  have unquoted : Unquoted " #a;".toList := by decide
  exact (parseToken_escapeSpecial_iff unquoted rfl []).mpr
    ⟨'a', by decide, rfl⟩

/-- The whole word is escaped, and the lexer loses it. -/
theorem parseToken_escapeSpecial_lost :
    parseToken (escapeSpecial "#".toList ++ ";".toList) =
        ((.statementEnd, ";".toList), []) ∧
      ¬ parseToken (escapeSpecial "#".toList ++ ";".toList) =
        ((.normal, "#".toList), ";".toList) := by
  decide

end HttpsServer.Config
