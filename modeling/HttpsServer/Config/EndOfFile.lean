import HttpsServer.Config.UnendedWord

namespace HttpsServer.Config

open HttpsServer.Data

/-! Text after the part of the input that a call of the lexer looks at. -/

def LexStep.extend (suffix : Text) : LexStep → LexStep
  | .done type value unread => .done type value (unread ++ suffix)
  | step => step

theorem escape_append (escapable : Char → Bool) (state : TokenParserState)
    (value rest suffix : Text)
    (looked : ∀ state' value',
      escape escapable state value rest ≠ .stop state' value') :
    escape escapable state value (rest ++ suffix) =
      (escape escapable state value rest).extend suffix := by
  cases rest with
  | nil => exact absurd rfl (looked state value)
  | cons ch rest =>
      simp only [escape, List.cons_append]
      split <;> rfl

theorem closeQuote_append (state : TokenParserState) (value rest suffix : Text)
    (looked : ∀ state' value',
      closeQuote state value rest ≠ .stop state' value') :
    closeQuote state value (rest ++ suffix) =
      (closeQuote state value rest).extend suffix := by
  cases rest with
  | nil => exact absurd rfl (looked state value)
  | cons ch rest =>
      simp only [closeQuote, List.cons_append]
      split <;> rfl

theorem lexStep_append {state : TokenParserState} {value : Text} {c : Char}
    {rest : Text} {found : LexStep} (suffix : Text)
    (stepped : lexStep state value c rest = found)
    (looked : ∀ state' value', found ≠ .stop state' value') :
    lexStep state value c (rest ++ suffix) = found.extend suffix := by
  subst stepped
  have round := lexStep_round state value c
  generalize lexStep state value c = step at round looked ⊢
  cases round with
  | next => rfl
  | done => rfl
  | putBack => rfl
  | escape => exact escape_append _ _ _ _ _ looked
  | closeQuote => exact closeQuote_append _ _ _ _ looked

/-- How a round that looked past the end of the input goes before a newline:
a backslash is taken as it stands, a closed quote ends the word. -/
structure NewlineAfterStop (state next : TokenParserState) (rest : Text)
    (before : LexStep) : Prop where
  atEnd : rest = []
  sameState : next = state
  newline : (∃ value, before = .next state value) ∨
    ((state = .singleQuote ∨ state = .doubleQuote) ∧
      ∃ word, before = .done .normal word ['\n'])

theorem escape_stop {escapable : Char → Bool} {state next : TokenParserState}
    {value found rest : Text} (notNewline : escapable '\n' = false)
    (stopped : escape escapable state value rest = .stop next found) :
    NewlineAfterStop state next rest
      (escape escapable state value ['\n']) := by
  cases rest with
  | nil =>
      cases stopped
      exact ⟨rfl, rfl, .inl ⟨value ++ ['\\'], by simp [escape, notNewline]⟩⟩
  | cons ch rest =>
      simp only [escape] at stopped
      split at stopped <;> cases stopped

theorem closeQuote_stop {state next : TokenParserState}
    {value found rest : Text}
    (quoted : state = .singleQuote ∨ state = .doubleQuote)
    (stopped : closeQuote state value rest = .stop next found) :
    NewlineAfterStop state next rest (closeQuote state value ['\n']) := by
  cases rest with
  | nil =>
      cases stopped
      exact ⟨rfl, rfl, .inr ⟨quoted, value, rfl⟩⟩
  | cons ch rest =>
      simp only [closeQuote] at stopped
      split at stopped <;> cases stopped

theorem lexStep_stop {state next : TokenParserState} {value found rest : Text}
    {c : Char} (stopped : lexStep state value c rest = .stop next found) :
    NewlineAfterStop state next rest (lexStep state value c ['\n']) := by
  have round := lexStep_round state value c
  generalize lexStep state value c = step at round stopped ⊢
  cases round with
  | next => cases stopped
  | done => cases stopped
  | putBack => cases stopped
  | escape escapable value notNewline => exact escape_stop notNewline stopped
  | closeQuote value quoted => exact closeQuote_stop quoted stopped

theorem lexStep_nil_ne_skip (state next : TokenParserState)
    (value found : Text) (c : Char) :
    lexStep state value c [] ≠ .skip next found := by
  intro skipped
  have round := lexStep_round state value c
  generalize lexStep state value c = step at round skipped
  cases round with
  | next => cases skipped
  | done => cases skipped
  | putBack => cases skipped
  | escape => cases skipped
  | closeQuote => cases skipped

/-! From one round to one call of the lexer. -/

theorem lexLoop_append {state : TokenParserState} {value input : Text}
    {type : TokenType} {found unread : Text} (suffix : Text)
    (returned : lexLoop state value input = .returned type found unread) :
    lexLoop state value (input ++ suffix) =
      .returned type found (unread ++ suffix) := by
  fun_induction lexLoop state value input with
  | case1 => cases returned
  | case2 state value c rest nextState nextValue stepped induction =>
      have longer := lexStep_append suffix stepped (by simp)
      rw [List.cons_append, lexLoop, longer]
      exact induction returned
  | case3 => cases returned
  | case4 state value c nextState nextValue ch rest stepped induction =>
      have longer := lexStep_append suffix stepped (by simp)
      rw [List.cons_append, lexLoop, longer]
      exact induction returned
  | case5 state value c rest type found unread stepped =>
      cases returned
      have longer := lexStep_append suffix stepped (by simp)
      rw [List.cons_append, lexLoop, longer]
      rfl
  | case6 => cases returned

/-- What a call that ends in a state comes to when a newline follows. -/
def NewlineExit : TokenParserState → LoopExit → Prop
  | .initialWhitespace, exit =>
      ∃ value, exit = .endOfInput .initialWhitespace value
  | .singleQuote, exit | .doubleQuote, exit =>
      (∃ state value, exit = .endOfInput state value ∧
        endOfFileType state = .error) ∨
      ∃ value, exit = .returned .normal value ['\n']
  | .tokenTypeComment, exit => ∃ value, exit = .returned .comment value []
  | .tokenTypeNormal, exit => ∃ value, exit = .returned .normal value ['\n']

theorem lexLoop_newline (state : TokenParserState) (value : Text) :
    NewlineExit state (lexLoop state value ['\n']) := by
  cases state with
  | initialWhitespace => exact ⟨value, rfl⟩
  | singleQuote => exact .inl ⟨.singleQuote, _, rfl, rfl⟩
  | doubleQuote => exact .inl ⟨.doubleQuote, _, rfl, rfl⟩
  | tokenTypeComment => exact ⟨value, rfl⟩
  | tokenTypeNormal => exact ⟨value, rfl⟩

theorem lexLoop_endOfInput {state final : TokenParserState}
    {value found input : Text}
    (ended : lexLoop state value input = .endOfInput final found) :
    NewlineExit final (lexLoop state value (input ++ ['\n'])) := by
  fun_induction lexLoop state value input with
  | case1 state value =>
      cases ended
      exact lexLoop_newline final found
  | case2 state value c rest nextState nextValue stepped induction =>
      have longer := lexStep_append ['\n'] stepped (by simp)
      rw [List.cons_append, lexLoop, longer]
      exact induction ended
  | case3 state value c nextState nextValue stepped =>
      exact absurd stepped (lexStep_nil_ne_skip _ _ _ _ _)
  | case4 state value c nextState nextValue ch rest stepped induction =>
      have longer := lexStep_append ['\n'] stepped (by simp)
      rw [List.cons_append, lexLoop, longer]
      exact induction ended
  | case5 => cases ended
  | case6 state value c rest final found stopped =>
      cases ended
      obtain ⟨rfl, rfl, ⟨value', before⟩ | ⟨quoted, word, before⟩⟩ :=
        lexStep_stop stopped
      · rw [List.cons_append, List.nil_append, lexLoop, before]
        exact lexLoop_newline final value'
      · rw [List.cons_append, List.nil_append, lexLoop, before]
        rcases quoted with rfl | rfl
        · exact .inr ⟨word, rfl⟩
        · exact .inr ⟨word, rfl⟩

/-! From one call to all the calls on a text. -/

theorem parseToken_append {input unread suffix : Text} {result : TokenResult}
    (called : parseToken input = (result, unread))
    (isBody : isBodyResult result = true) :
    parseToken (input ++ suffix) = (result, unread ++ suffix) := by
  unfold parseToken at called ⊢
  split at called
  next type value rest returned =>
    cases called
    rw [lexLoop_append suffix returned]
  next state value ended =>
    cases called
    simp only [endOfFileType] at isBody
    split at isBody <;> cases isBody

theorem Lexes.before_suffix {input unread : Text} {results : List TokenResult}
    (lexes : Lexes input results unread) (suffix : Text) :
    Lexes (input ++ suffix) results (unread ++ suffix) := by
  induction lexes with
  | nil => exact .nil _
  | cons head _ induction =>
      exact .cons ⟨parseToken_append head.1 head.2, head.2⟩ induction

/-- How the last call on a text and the calls on the text with a newline after
it differ. -/
inductive NewlineCalls (text : Text) : Prop
  | word (inWord : EndsInWord text) (value : Text)
      (endOfFile : (parseToken text).1.1 = .eof)
      (calls : Lexes (text ++ ['\n']) [(.normal, value)] ['\n'])
  | comment (notWord : ¬ EndsInWord text) (value : Text)
      (endOfFile : (parseToken text).1.1 = .eof)
      (calls : Lexes (text ++ ['\n']) [(.comment, value)] [])
  | blank (notWord : ¬ EndsInWord text)
      (endOfFile : (parseToken text).1.1 = .eof)
      (final : (parseToken (text ++ ['\n'])).1.1 = .eof)
  | error (notWord : ¬ EndsInWord text)
      (failed : (parseToken text).1.1 = .error)
      (final : (parseToken (text ++ ['\n'])).1.1 = .error)
  | quoted (notWord : ¬ EndsInWord text) (value : Text)
      (failed : (parseToken text).1.1 = .error)
      (calls : Lexes (text ++ ['\n']) [(.normal, value)] ['\n'])

theorem notEndsInWord_of_returned {text value unread : Text} {type : TokenType}
    (returned : lexLoop .initialWhitespace [] text =
      .returned type value unread) : ¬ EndsInWord text := by
  rintro ⟨found, ended⟩
  rw [returned] at ended
  cases ended

theorem notEndsInWord_of_endOfInput {text value : Text}
    {state : TokenParserState}
    (ended : lexLoop .initialWhitespace [] text = .endOfInput state value)
    (other : state ≠ .tokenTypeNormal) : ¬ EndsInWord text := by
  rintro ⟨found, inWord⟩
  rw [ended] at inWord
  cases inWord
  exact other rfl

theorem newlineCalls_quoted {text value : Text} {state : TokenParserState}
    (exit : lexLoop .initialWhitespace [] text = .endOfInput state value)
    (quoted : endOfFileType state = .error)
    (newline :
      (∃ state value,
        lexLoop .initialWhitespace [] (text ++ ['\n']) =
          .endOfInput state value ∧ endOfFileType state = .error) ∨
      ∃ value, lexLoop .initialWhitespace [] (text ++ ['\n']) =
        .returned .normal value ['\n']) : NewlineCalls text := by
  have notWord := notEndsInWord_of_endOfInput exit
    (by rintro rfl; cases quoted)
  have failed : (parseToken text).1.1 = .error := by
    simp only [parseToken, exit]
    exact quoted
  rcases newline with ⟨_, found, longer, failedLonger⟩ | ⟨found, longer⟩
  · refine .error notWord failed ?_
    simp only [parseToken, longer]
    exact failedLonger
  · refine .quoted notWord found failed (.single ⟨?_, rfl⟩)
    simp only [parseToken, longer]

theorem newlineCalls {text : Text}
    (final : (parseToken text).1.1 = .eof ∨ (parseToken text).1.1 = .error) :
    NewlineCalls text := by
  cases exit : lexLoop .initialWhitespace [] text with
  | returned type value unread =>
      have longer := lexLoop_append ['\n'] exit
      have notWord := notEndsInWord_of_returned exit
      have called : parseToken text = ((type, value), unread) := by
        simp only [parseToken, exit]
      have calledLonger : parseToken (text ++ ['\n']) =
          ((type, value), unread ++ ['\n']) := by
        simp only [parseToken, longer]
      obtain ⟨isBody | failed, _⟩ := lexLoop_returned exit
      · rw [called] at final
        rcases final with rfl | rfl <;> cases isBody
      · exact .error notWord (by rw [called]; exact failed)
          (by rw [calledLonger]; exact failed)
  | endOfInput state value =>
      have called : parseToken text = ((endOfFileType state, value), []) := by
        simp only [parseToken, exit]
      have newline := lexLoop_endOfInput exit
      cases state with
      | initialWhitespace =>
          have notWord := notEndsInWord_of_endOfInput exit nofun
          obtain ⟨found, longer⟩ := newline
          exact .blank notWord (by rw [called]; rfl)
            (by simp only [parseToken, longer]; rfl)
      | tokenTypeComment =>
          have notWord := notEndsInWord_of_endOfInput exit nofun
          obtain ⟨found, longer⟩ := newline
          refine .comment notWord found (by rw [called]; rfl) (.single ?_)
          exact ⟨by simp only [parseToken, longer], rfl⟩
      | tokenTypeNormal =>
          obtain ⟨found, longer⟩ := newline
          refine .word ⟨value, exit⟩ found (by rw [called]; rfl) (.single ?_)
          exact ⟨by simp only [parseToken, longer], rfl⟩
      | singleQuote => exact newlineCalls_quoted exit rfl newline
      | doubleQuote => exact newlineCalls_quoted exit rfl newline

/-! `Parse` on a text and on the text with a newline after it. -/

/-- The two calls return the same boolean, and equal trees when it is true. -/
def SameWithNewline (text : Text) : Prop :=
  ∃ valid left right,
    parse text (.mk []) = .returned valid left ∧
    parse (text ++ ['\n']) (.mk []) = .returned valid right ∧
    (valid = true → left = right)

/-- A complete config, followed by an unquoted word that the text cuts off. -/
def CutConfig (text : Text) : Prop :=
  ∃ results rest tree, Lexes text results rest ∧
    Derives (lexemesOf results) tree ∧ EndsInWord rest

/-- A complete config, with a word behind its last `;` or `{` that begins with a
backslash and is never handed out: only comments and closing braces are. -/
def DropsEscape (text : Text) : Prop :=
  ∃ before middle after rest tree,
    Lexes text before middle ∧ opensEscape middle = true ∧
    Lexes middle after rest ∧ (parseToken rest).1.1 = .eof ∧
    OnlyBraces after ∧ Derives (lexemesOf (before ++ after)) tree

/-- Nothing but the end of its statement or of a block can follow a word. -/
theorem not_derives_word (before : List Lexeme) (token : Text)
    {after : List Lexeme} (braces : ∀ lexeme ∈ after, lexeme = .closeBrace)
    (tree : NginxConfig) : ¬ Derives (before ++ .word token :: after) tree := by
  intro derivation
  obtain ⟨statements⟩ := tree
  rw [← Draft.reads_iff_derives] at derivation
  obtain ⟨middle, _, last⟩ := derivation.split
  cases last with
  | @cons _ next _ _ _ head tail =>
      have someWords : next.words ≠ [] := by
        rw [← Option.some.inj head]
        exact List.append_ne_nil_of_right_ne_nil _ (List.cons_ne_nil _ _)
      cases after with
      | nil =>
          cases tail
          exact someWords rfl
      | cons lexeme after =>
          cases tail with
          | cons closes _ =>
              rw [braces lexeme List.mem_cons_self, Draft.read] at closes
              split at closes
              · cases closes
              · rw [if_neg someWords] at closes
                cases closes

theorem OnlyBraces.lexemesOf {results : List TokenResult}
    (braces : OnlyBraces results) :
    ∀ lexeme ∈ lexemesOf results, lexeme = .closeBrace := by
  intro lexeme member
  obtain ⟨⟨type, value⟩, isResult, isLexeme⟩ := List.mem_filterMap.mp member
  rcases braces _ isResult with rfl | rfl
  · cases isLexeme
  · exact (Option.some.inj isLexeme).symm

theorem parseToken_newline : (parseToken ['\n']).1.1 = .eof := rfl

theorem parse_trailing_word {text unread : Text} {results : List TokenResult}
    (lexes : Lexes text results unread)
    (endOfFile : (parseToken unread).1.1 = .eof)
    {before : List Lexeme} {token : Text}
    (trailing : lexemesOf results = before ++ [.word token]) :
    ∃ tree, parse text (.mk []) = .returned false tree := by
  rcases parse_lexes_eof lexes endOfFile with ⟨tree, derivation, _⟩ | ⟨_, failed⟩
  · rw [trailing] at derivation
    exact absurd derivation (not_derives_word _ _ (List.forall_mem_nil _) _)
  · exact failed

theorem CutConfig.not_same {text : Text} (cut : CutConfig text) :
    ¬ SameWithNewline text := by
  obtain ⟨results, rest, tree, lexes, derivation, inWord⟩ := cut
  have final : (parseToken rest).1.1 = .eof := by
    obtain ⟨value, ended⟩ := inWord
    simp only [parseToken, ended]
    rfl
  cases newlineCalls (.inl final) with
  | word _ value _ calls =>
      rintro ⟨valid, left, right, parsed, parsedLonger, _⟩
      have longer := (lexes.before_suffix ['\n']).append calls
      have trailing : lexemesOf (results ++ [(.normal, value)]) =
          lexemesOf results ++ [.word value] := lexemesOf_append _ _
      obtain ⟨failedTree, failed⟩ :=
        parse_trailing_word longer parseToken_newline trailing
      rcases parse_lexes_eof lexes final with ⟨found, _, accepted⟩ | ⟨none, _⟩
      · rw [accepted] at parsed
        rw [failed] at parsedLonger
        cases parsed
        cases parsedLonger
      · exact none tree derivation
  | comment notWord => exact absurd inWord notWord
  | blank notWord => exact absurd inWord notWord
  | error notWord => exact absurd inWord notWord
  | quoted notWord => exact absurd inWord notWord

theorem sameWithNewline_of_eof {text unread unreadLonger : Text}
    {results longer : List TokenResult}
    (lexes : Lexes text results unread)
    (final : (parseToken unread).1.1 = .eof)
    (lexesLonger : Lexes (text ++ ['\n']) longer unreadLonger)
    (finalLonger : (parseToken unreadLonger).1.1 = .eof)
    (same : lexemesOf longer = lexemesOf results) : SameWithNewline text :=
  parse_same_lexemes lexes final lexesLonger finalLonger same

theorem sameWithNewline_of_not_cut {text : Text} (notCut : ¬ CutConfig text) :
    SameWithNewline text := by
  obtain ⟨results, rest, lexes, final⟩ := lexes_exists text
  have lexesLonger := lexes.before_suffix ['\n']
  cases newlineCalls final with
  | word inWord value endOfFile calls =>
      have longer := lexesLonger.append calls
      have trailing : lexemesOf (results ++ [(.normal, value)]) =
          lexemesOf results ++ [.word value] := lexemesOf_append _ _
      obtain ⟨right, failed⟩ :=
        parse_trailing_word longer parseToken_newline trailing
      rcases parse_lexes_eof lexes endOfFile with
        ⟨tree, derivation, _⟩ | ⟨_, left, parsed⟩
      · exact absurd ⟨results, rest, tree, lexes, derivation, inWord⟩ notCut
      · exact ⟨false, left, right, parsed, failed, nofun⟩
  | comment _ value endOfFile calls =>
      have longer := lexesLonger.append calls
      refine sameWithNewline_of_eof lexes endOfFile longer rfl ?_
      rw [lexemesOf_append]
      exact List.append_nil _
  | blank _ endOfFile finalLonger =>
      exact sameWithNewline_of_eof lexes endOfFile lexesLonger finalLonger rfl
  | error _ failed failedLonger =>
      obtain ⟨left, parsed⟩ := parse_lexes_error lexes failed
      obtain ⟨right, parsedLonger⟩ :=
        parse_lexes_error lexesLonger failedLonger
      exact ⟨false, left, right, parsed, parsedLonger, nofun⟩
  | quoted _ value failed calls =>
      have longer := lexesLonger.append calls
      have trailing : lexemesOf (results ++ [(.normal, value)]) =
          lexemesOf results ++ [.word value] := lexemesOf_append _ _
      obtain ⟨left, parsed⟩ := parse_lexes_error lexes failed
      obtain ⟨right, parsedLonger⟩ :=
        parse_trailing_word longer parseToken_newline trailing
      exact ⟨false, left, right, parsed, parsedLonger, nofun⟩

theorem DropsEscape.accepted {text : Text} (drops : DropsEscape text) :
    UnendedWord text ∧ ∃ tree, parse text (.mk []) = .returned true tree := by
  obtain ⟨before, middle, after, rest, tree, lexesBefore, opens, lexesAfter,
    final, braces, derivation⟩ := drops
  refine ⟨?_, tree, parse_derived (lexesBefore.append lexesAfter) final derivation⟩
  obtain ⟨left, same⟩ := lexesBefore.pending false
  rw [UnendedWord, same]
  exact lexesAfter.stays_unended final braces (.inr opens)

/-- An accepted text with an unended word lost it in one of two ways. -/
theorem lost_of_accepted {text : Text} {tree : NginxConfig}
    (unendedWord : UnendedWord text)
    (accepted : parse text (.mk []) = .returned true tree) :
    CutConfig text ∨ DropsEscape text := by
  obtain ⟨results, rest, lexes, final, derivation⟩ := parse_accepts accepted
  cases lexes.wordLeft final unendedWord with
  | cut inWord => exact .inl ⟨results, rest, tree, lexes, derivation, inWord⟩
  | before isPending => cases isPending
  | handedOut split braces =>
      rw [split, lexemesOf_append] at derivation
      exact absurd derivation (not_derives_word _ _ braces.lexemesOf _)
  | dropped lexesBefore opens lexesAfter braces split =>
      rw [split] at derivation
      exact .inr ⟨_, _, _, _, tree, lexesBefore, opens, lexesAfter, final, braces,
        derivation⟩

/-- A newline at the end changes nothing, and an unended word is refused, exactly
when the text is not a config behind which a word is cut off, or dropped because it
begins with a backslash. -/
theorem parse_newline_iff (text : Text) :
    (SameWithNewline text ∧
      (UnendedWord text →
        ∀ tree, parse text (.mk []) ≠ .returned true tree)) ↔
      ¬ (CutConfig text ∨ DropsEscape text) := by
  constructor
  · rintro ⟨same, refused⟩ (cut | drops)
    · exact cut.not_same same
    · obtain ⟨unendedWord, tree, accepted⟩ := drops.accepted
      exact refused unendedWord tree accepted
  · intro notLost
    have notCut : ¬ CutConfig text := fun cut => notLost (.inl cut)
    refine ⟨sameWithNewline_of_not_cut notCut, ?_⟩
    intro unendedWord tree accepted
    exact notLost (lost_of_accepted unendedWord accepted)

/-- The last words of these texts are dropped at the end of the file. -/
theorem parse_newline_cut :
    parse "root a; b".toList (.mk []) =
      .returned true (.mk [.mk ["root".toList, "a".toList] none]) ∧
    parse "root a; b\n".toList (.mk []) =
      .returned false (.mk [.mk ["root".toList, "a".toList] none,
        .mk ["b".toList] none]) ∧
    (UnendedWord "root a; \\#".toList ∧
      parse "root a; \\#".toList (.mk []) =
        .returned true (.mk [.mk ["root".toList, "a".toList] none])) ∧
    ¬ (SameWithNewline "root a; b".toList ∧
      (UnendedWord "root a; b".toList →
        ∀ tree, parse "root a; b".toList (.mk []) ≠ .returned true tree)) := by
  have accepted : parse "root a; b".toList (.mk []) =
      .returned true (.mk [.mk ["root".toList, "a".toList] none]) := rfl
  have refused : parse "root a; b\n".toList (.mk []) =
      .returned false (.mk [.mk ["root".toList, "a".toList] none,
        .mk ["b".toList] none]) := rfl
  have escaped : UnendedWord "root a; \\#".toList := by decide +kernel
  refine ⟨accepted, refused, ⟨escaped, rfl⟩, ?_⟩
  rintro ⟨⟨valid, left, right, parsed, parsedLonger, _⟩, _⟩
  rw [accepted] at parsed
  cases parsed
  cases refused.symm.trans parsedLonger

end HttpsServer.Config
