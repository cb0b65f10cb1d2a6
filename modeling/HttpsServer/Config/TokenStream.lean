import HttpsServer.Data.InputStream
import HttpsServer.Config.Lexing

namespace HttpsServer.Config

open HttpsServer.Data

/-! The lexer on the stream itself, with every `get` and `unget` of the source
and a bound on the rounds of its loop. -/

abbrev CharStream := InputStream Char

/-- `EOF`, as the character that it is cut down to. -/
def eofChar : Char := '\xff'

/-- How the `switch` is left: by `continue` or `break`, or by `return`. -/
inductive SwitchExit where
  | again (state : TokenParserState) (value : Text) (input : CharStream)
  | returned (type : TokenType) (value : Text) (input : CharStream)

/-- The look-ahead after a backslash; `broken` is where its `break` leads. -/
def readEscape (escapable : Char → Bool) (broken : CharStream → SwitchExit)
    (state : TokenParserState) (value : Text) (c : Char) (input : CharStream) :
    SwitchExit :=
  let (ch, ahead) := input.get eofChar
  if !ahead.good then broken ahead
  else if escapable ch then .again state (value ++ [ch]) ahead
  else .again state (value ++ [c]) ahead.unget

def readCloseQuote (state : TokenParserState) (value : Text)
    (input : CharStream) : SwitchExit :=
  let (ch, ahead) := input.get eofChar
  if !ahead.good then .again state value ahead
  else if !endsQuoted ch then .returned .error value ahead
  else .returned .normal value ahead.unget

def readQuoted (quote : Char) (closed : Text) (state : TokenParserState)
    (value : Text) (c : Char) (input : CharStream) : SwitchExit :=
  if c = '\\' then
    readEscape (· = quote) (.again state value) state value c input
  else if c = quote then readCloseQuote state closed input
  else .again state (value ++ [c]) input

def readSingleQuote (state : TokenParserState) (value : Text) (c : Char)
    (input : CharStream) : SwitchExit :=
  readQuoted '\x27' (value ++ [c]) state value c input

def readDoubleQuote (state : TokenParserState) (value : Text) (c : Char)
    (input : CharStream) : SwitchExit :=
  readQuoted '\x22' value state value c input

def readComment (state : TokenParserState) (value : Text) (c : Char)
    (input : CharStream) : SwitchExit :=
  if c = '\n' || c = '\r' then .returned .comment value input
  else .again state (value ++ [c]) input

def readNormal (state : TokenParserState) (value : Text) (c : Char)
    (input : CharStream) : SwitchExit :=
  if endsWord c then .returned .normal value input.unget
  else if c = '\\' then
    readEscape isEscapable (.again state value) state value c input
  else .again state (value ++ [c]) input

def readInitialWhitespace (state : TokenParserState) (value : Text) (c : Char)
    (input : CharStream) : SwitchExit :=
  if c = '{' then .returned .startBlock [c] input
  else if c = '}' then .returned .endBlock [c] input
  else if c = '#' then .again .tokenTypeComment [c] input
  else if c = '\x22' then .again .doubleQuote value input
  else if c = '\x27' then .again .singleQuote [c] input
  else if c = ';' then .returned .statementEnd [c] input
  else if isBlank c then .again state value input
  else if c = '\\' then
    -- This `break` only leaves the inner switch and falls into the next case.
    readEscape isEscapable (readSingleQuote state value c) state value c input
  else .again .tokenTypeNormal (value ++ [c]) input

def readState (state : TokenParserState) (value : Text) (c : Char)
    (input : CharStream) : SwitchExit :=
  match state with
  | .initialWhitespace => readInitialWhitespace state value c input
  | .singleQuote => readSingleQuote state value c input
  | .doubleQuote => readDoubleQuote state value c input
  | .tokenTypeComment => readComment state value c input
  | .tokenTypeNormal => readNormal state value c input

/-- At most `rounds` tests of the loop's condition; `none` is a loop that would
go on. -/
def readTokenLoop :
    Nat → TokenParserState → Text → CharStream →
      Option (TokenResult × CharStream)
  | 0, _, _, _ => none
  | rounds + 1, state, value, input =>
      if input.good then
        let (c, input) := input.get eofChar
        if !input.good then some ((endOfFileType state, value), input)
        else
          match readState state value c input with
          | .again state value input => readTokenLoop rounds state value input
          | .returned type value input => some ((type, value), input)
      else some ((endOfFileType state, value), input)

/-- `ParseToken`, with `value` as the caller hands it over. -/
def parseTokenFrom (rounds : Nat) (value : Text) (input : CharStream) :
    Option (TokenResult × CharStream) :=
  readTokenLoop rounds .initialWhitespace value input

/-! One round, against the round on the text behind `c`. -/

/-- The exit taken on `input`, for a step on what is unread there: the stream is
where the step leaves the text. -/
inductive SwitchExit.Agrees (input : CharStream) : LexStep → SwitchExit → Prop
  | next {state : TokenParserState} {value : Text} :
      Agrees input (.next state value) (.again state value input)
  | skip {state : TokenParserState} {value : Text} {ch : Char} {rest : Text}
      (ahead : input.unread = ch :: rest) :
      Agrees input (.skip state value)
        (.again state value ⟨ch :: input.taken, rest, true⟩)
  | done {type : TokenType} {value rest : Text} {after : CharStream}
      (moved : input.MovedTo rest after) :
      Agrees input (.done type value rest) (.returned type value after)
  | stop {state : TokenParserState} {value : Text} {after : CharStream}
      (ended : after.good = false) (moved : input.MovedTo [] after) :
      Agrees input (.stop state value) (.again state value after)

theorem readEscape_agrees {escapable : Char → Bool}
    {broken : CharStream → SwitchExit} {state : TokenParserState}
    {value : Text} (taken rest : Text)
    (leaves : broken ⟨'\\' :: taken, [], false⟩ =
      .again state value ⟨'\\' :: taken, [], false⟩) :
    SwitchExit.Agrees ⟨'\\' :: taken, rest, true⟩
      (escape escapable state value rest)
      (readEscape escapable broken state value '\\'
        ⟨'\\' :: taken, rest, true⟩) := by
  cases rest with
  | nil =>
      simp only [escape, readEscape, InputStream.get_nil, leaves]
      exact .stop rfl ⟨rfl, rfl, fun _ => rfl⟩
  | cons ch rest =>
      by_cases special : escapable ch = true
      · simp only [escape, readEscape, InputStream.get_cons, special]
        exact .skip rfl
      · simp only [escape, readEscape, InputStream.get_cons,
          InputStream.unget_cons, special]
        exact .next

theorem readCloseQuote_agrees {state : TokenParserState} {value : Text}
    (taken rest : Text) :
    SwitchExit.Agrees ⟨taken, rest, true⟩ (closeQuote state value rest)
      (readCloseQuote state value ⟨taken, rest, true⟩) := by
  cases rest with
  | nil => exact .stop rfl ⟨rfl, rfl, fun _ => rfl⟩
  | cons ch rest =>
      have looked := InputStream.get_contents eofChar ⟨taken, ch :: rest, true⟩
      by_cases ends : endsQuoted ch = true
      · simp only [closeQuote, readCloseQuote, InputStream.get_cons,
          InputStream.unget_cons, ends]
        exact .done ⟨rfl, rfl, nofun⟩
      · simp only [closeQuote, readCloseQuote, InputStream.get_cons, ends]
        exact .done ⟨rfl, looked, nofun⟩

theorem readQuoted_agrees {quote : Char} {closed : Text}
    {state : TokenParserState} {value : Text} {c : Char} (taken rest : Text) :
    SwitchExit.Agrees ⟨c :: taken, rest, true⟩
      (quotedCase quote closed state value c rest)
      (readQuoted quote closed state value c ⟨c :: taken, rest, true⟩) := by
  unfold quotedCase readQuoted
  by_cases backslash : c = '\\'
  · subst backslash
    exact readEscape_agrees taken rest rfl
  by_cases isQuote : c = quote
  · simp only [if_neg backslash, if_pos isQuote]
    exact readCloseQuote_agrees _ rest
  · simp only [if_neg backslash, if_neg isQuote]
    exact .next

theorem readInitialWhitespace_agrees {state : TokenParserState} {value : Text}
    {c : Char} (taken rest : Text) :
    SwitchExit.Agrees ⟨c :: taken, rest, true⟩
      (initialWhitespaceCase state value c rest)
      (readInitialWhitespace state value c ⟨c :: taken, rest, true⟩) := by
  have here : InputStream.MovedTo ⟨c :: taken, rest, true⟩ rest
      ⟨c :: taken, rest, true⟩ := ⟨rfl, rfl, nofun⟩
  unfold initialWhitespaceCase readInitialWhitespace
  by_cases openBrace : c = '{'
  · simp only [if_pos openBrace]
    exact .done here
  by_cases closeBrace : c = '}'
  · simp only [if_neg openBrace, if_pos closeBrace]
    exact .done here
  by_cases hash : c = '#'
  · simp only [if_neg openBrace, if_neg closeBrace, if_pos hash]
    exact .next
  simp only [if_neg openBrace, if_neg closeBrace, if_neg hash]
  by_cases double : c = '\x22'
  · simp only [if_pos double]
    exact .next
  by_cases single : c = '\x27'
  · simp only [if_neg double, if_pos single]
    exact .next
  by_cases semicolon : c = ';'
  · simp only [if_neg double, if_neg single, if_pos semicolon]
    exact .done here
  simp only [if_neg double, if_neg single, if_neg semicolon]
  by_cases blank : isBlank c = true
  · simp only [if_pos blank]
    exact .next
  by_cases backslash : c = '\\'
  · subst backslash
    have agrees : SwitchExit.Agrees ⟨'\\' :: taken, rest, true⟩
        (escape isEscapable state value rest)
        (readEscape isEscapable (readSingleQuote state value '\\') state value
          '\\' ⟨'\\' :: taken, rest, true⟩) :=
      readEscape_agrees taken rest rfl
    -- At the end of the input the case below stops in the same way.
    cases rest with
    | nil => exact agrees
    | cons ch rest => exact agrees
  · simp only [if_neg blank, if_neg backslash]
    exact .next

theorem readComment_agrees {state : TokenParserState} {value : Text} {c : Char}
    (taken rest : Text) :
    SwitchExit.Agrees ⟨c :: taken, rest, true⟩ (commentCase state value c rest)
      (readComment state value c ⟨c :: taken, rest, true⟩) := by
  unfold commentCase readComment
  by_cases ends : (c = '\n' || c = '\r') = true
  · simp only [if_pos ends]
    exact .done ⟨rfl, rfl, nofun⟩
  · simp only [if_neg ends]
    exact .next

theorem readNormal_agrees {state : TokenParserState} {value : Text} {c : Char}
    (taken rest : Text) :
    SwitchExit.Agrees ⟨c :: taken, rest, true⟩ (normalCase state value c rest)
      (readNormal state value c ⟨c :: taken, rest, true⟩) := by
  have putBack := InputStream.unget_contents ⟨c :: taken, rest, true⟩
  unfold normalCase readNormal
  by_cases ends : endsWord c = true
  · simp only [if_pos ends]
    exact .done ⟨rfl, putBack, nofun⟩
  by_cases backslash : c = '\\'
  · subst backslash
    exact readEscape_agrees taken rest rfl
  · simp only [if_neg ends, if_neg backslash]
    exact .next

theorem readState_agrees (state : TokenParserState) (value : Text) (c : Char)
    (taken rest : Text) :
    SwitchExit.Agrees ⟨c :: taken, rest, true⟩ (lexStep state value c rest)
      (readState state value c ⟨c :: taken, rest, true⟩) := by
  cases state with
  | initialWhitespace => exact readInitialWhitespace_agrees taken rest
  | singleQuote => exact readQuoted_agrees taken rest
  | doubleQuote => exact readQuoted_agrees taken rest
  | tokenTypeComment => exact readComment_agrees taken rest
  | tokenTypeNormal => exact readNormal_agrees taken rest

/-! The loop, against the recursion over the text. -/

/-- What a call hands out after its loop, and the text that it leaves. -/
def LoopExit.handOut : LoopExit → TokenResult × Text
  | .returned type value unread => ((type, value), unread)
  | .endOfInput state value => ((endOfFileType state, value), [])

theorem parseToken_handOut (input : Text) :
    parseToken input = (lexLoop .initialWhitespace [] input).handOut := by
  unfold parseToken
  cases lexLoop .initialWhitespace [] input <;> rfl

theorem readTokenLoop_ended (rounds : Nat) (state : TokenParserState)
    (value : Text) {input : CharStream} (ended : input.good = false) :
    readTokenLoop (rounds + 1) state value input =
      some ((endOfFileType state, value), input) := by
  rw [readTokenLoop, ended]
  rfl

theorem readTokenLoop_cons (rounds : Nat) (state : TokenParserState)
    (value : Text) (c : Char) (taken rest : Text) :
    readTokenLoop (rounds + 1) state value ⟨taken, c :: rest, true⟩ =
      match readState state value c ⟨c :: taken, rest, true⟩ with
      | .again state value input => readTokenLoop rounds state value input
      | .returned type value input => some ((type, value), input) := rfl

/-- More rounds than there are unread characters are enough, and still more of
them do not change the result. -/
theorem readTokenLoop_good (state : TokenParserState) (value : Text) :
    (taken text : Text) → ∃ after : CharStream,
      InputStream.MovedTo ⟨taken, text, true⟩
        (lexLoop state value text).handOut.2 after ∧
      ∀ rounds, text.length < rounds →
        readTokenLoop rounds state value ⟨taken, text, true⟩ =
          some ((lexLoop state value text).handOut.1, after)
  | taken, [] => by
      refine ⟨⟨taken, [], false⟩, ⟨rfl, rfl, fun _ => rfl⟩, above_of_succ ?_⟩
      intro rounds enough
      rfl
  | taken, c :: rest => by
      suffices behind : ∃ after : CharStream,
          InputStream.MovedTo ⟨c :: taken, rest, true⟩
            (lexLoop state value (c :: rest)).handOut.2 after ∧
          ∀ rounds, rest.length < rounds →
            readTokenLoop (rounds + 1) state value ⟨taken, c :: rest, true⟩ =
              some ((lexLoop state value (c :: rest)).handOut.1, after) by
        obtain ⟨after, moved, looped⟩ := behind
        have same := InputStream.get_contents eofChar ⟨taken, c :: rest, true⟩
        exact ⟨after, moved.of_contents same, above_of_succ looped⟩
      have agrees := readState_agrees state value c taken rest
      simp only [readTokenLoop_cons, lexLoop]
      generalize lexStep state value c rest = step at agrees
      generalize readState state value c ⟨c :: taken, rest, true⟩ = exit
        at agrees
      cases agrees with
      | next => exact readTokenLoop_good _ _ (c :: taken) rest
      | @skip nextState nextValue ch more ahead =>
          cases ahead
          obtain ⟨after, moved, looped⟩ :=
            readTokenLoop_good nextState nextValue (ch :: c :: taken) more
          have same :=
            InputStream.get_contents eofChar ⟨c :: taken, ch :: more, true⟩
          refine ⟨after, moved.of_contents same, ?_⟩
          intro rounds enough
          exact looped rounds (Nat.lt_of_succ_lt enough)
      | @done type found unread after moved =>
          exact ⟨after, moved, fun rounds enough => rfl⟩
      | @stop lastState lastValue after ended moved =>
          refine ⟨after, moved, above_of_succ ?_⟩
          intro rounds enough
          exact readTokenLoop_ended rounds lastState lastValue ended
termination_by _ text => text.length

/-! One call. -/

theorem handOut_progress (value input : Text) :
    (lexLoop .initialWhitespace value input).handOut.2 <:+ input ∧
      ((lexLoop .initialWhitespace value input).handOut.1.1 ≠ .eof →
        (lexLoop .initialWhitespace value input).handOut.2.length <
          input.length) := by
  cases looped : lexLoop .initialWhitespace value input with
  | returned type found unread =>
      obtain ⟨_, suffix, shorter⟩ := lexLoop_returned looped
      exact ⟨suffix, fun _ => shorter nofun⟩
  | endOfInput state found =>
      refine ⟨List.nil_suffix, ?_⟩
      intro notEof
      cases input with
      | nil =>
          -- No quote has been opened before the first character.
          cases looped
          exact absurd rfl notEof
      | cons c rest => exact Nat.succ_pos _

/-- Every call returns, on a stream in whatever state. It loses no character and
makes none up, and it gets ahead unless it returns an end of file. -/
theorem parseTokenFrom_returns (value : Text) (input : CharStream) :
    ∃ result after,
      (∀ rounds, input.unread.length < rounds →
        parseTokenFrom rounds value input = some (result, after)) ∧
      after.contents = input.contents ∧ after.unread <:+ input.unread ∧
      (result.1 ≠ .eof → after.unread.length < input.unread.length) ∧
      (result, after.remaining) =
        (lexLoop .initialWhitespace value input.remaining).handOut := by
  obtain ⟨taken, text, good⟩ := input
  cases good with
  | false =>
      refine ⟨(.eof, value), ⟨taken, text, false⟩, above_of_succ ?_, rfl,
        List.suffix_rfl, fun notEof => absurd rfl notEof, rfl⟩
      intro rounds enough
      exact readTokenLoop_ended rounds _ value rfl
  | true =>
      obtain ⟨after, moved, looped⟩ :=
        readTokenLoop_good .initialWhitespace value taken text
      obtain ⟨suffix, shorter⟩ := handOut_progress value text
      rw [← moved.unread] at suffix shorter
      exact ⟨_, after, looped, moved.contents, suffix, shorter,
        Prod.ext rfl moved.remaining⟩

theorem parseTokenFrom_isSome (value : Text) (input : CharStream) :
    (parseTokenFrom (input.unread.length + 1) value input).isSome = true := by
  obtain ⟨result, after, returned, _⟩ := parseTokenFrom_returns value input
  rw [returned _ (Nat.lt_succ_self _)]
  rfl

/-- `ParseToken` on the empty `value` that the parser hands it. -/
def nextToken (input : CharStream) : TokenResult × CharStream :=
  (parseTokenFrom (input.unread.length + 1) [] input).get
    (parseTokenFrom_isSome [] input)

theorem parseTokenFrom_nextToken {rounds : Nat} {input : CharStream}
    (enough : input.unread.length < rounds) :
    parseTokenFrom rounds [] input = some (nextToken input) := by
  obtain ⟨result, after, returned, _⟩ := parseTokenFrom_returns [] input
  simp only [nextToken, returned _ enough, returned _ (Nat.lt_succ_self _),
    Option.get_some]

/-- The lexer on the text is the lexer on the stream, seen from the characters
that the stream has left. -/
theorem nextToken_remaining (input : CharStream) :
    parseToken input.remaining =
      ((nextToken input).1, (nextToken input).2.remaining) := by
  obtain ⟨result, after, returned, _, _, _, same⟩ :=
    parseTokenFrom_returns [] input
  have enough := Nat.lt_succ_self input.unread.length
  have next : (result, after) = nextToken input :=
    Option.some.inj ((returned _ enough).symm.trans
      (parseTokenFrom_nextToken enough))
  rw [parseToken_handOut, ← same, ← next]

end HttpsServer.Config
