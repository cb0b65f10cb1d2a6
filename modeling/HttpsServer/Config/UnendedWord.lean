import HttpsServer.Config.Lexing

namespace HttpsServer.Config

open HttpsServer.Data

/-! The characters of words behind the last `;` or `{` of a text. The place of a
character is named by a state of the lexer; what the lexer makes of the words plays
no part. -/

/-- The characters that a backslash at this place takes along. -/
def escapesAt : TokenParserState → Char → Bool
  | .singleQuote, c => c = '\x27'
  | .doubleQuote, c => c = '\x22'
  | .tokenTypeComment, _ => false
  | .initialWhitespace, c | .tokenTypeNormal, c => isEscapable c

def placeAfter (place : TokenParserState) (c : Char) : TokenParserState :=
  match place with
  | .initialWhitespace =>
      if c = '#' then .tokenTypeComment
      else if c = '\x22' then .doubleQuote
      else if c = '\x27' then .singleQuote
      else if endsWord c then .initialWhitespace
      else .tokenTypeNormal
  | .singleQuote => if c = '\x27' then .initialWhitespace else .singleQuote
  | .doubleQuote => if c = '\x22' then .initialWhitespace else .doubleQuote
  | .tokenTypeComment =>
      if c = '\n' || c = '\r' then .initialWhitespace else .tokenTypeComment
  | .tokenTypeNormal =>
      if endsWord c then .initialWhitespace else .tokenTypeNormal

/-- The words before a `;` or `{` are ended. -/
def endsWords : TokenParserState → Char → Bool
  | .initialWhitespace, c | .tokenTypeNormal, c => c = ';' || c = '{'
  | _, _ => false

def isWordChar : TokenParserState → Char → Bool
  | .initialWhitespace, c => !endsWord c && c ≠ '#'
  | .tokenTypeNormal, c => !endsWord c
  | .tokenTypeComment, _ => false
  | .singleQuote, _ | .doubleQuote, _ => true

/-- Whether a word is left without a `;` or `{` behind it, if one is pending before
the text or not. -/
def unended (place : TokenParserState) (pending : Bool) : Text → Bool
  | [] => pending
  | c :: rest =>
      if c = '\\' ∧ place ≠ .tokenTypeComment then
        if rest.head?.any (escapesAt place) then
          match rest with
          | [] => true
          | _ :: after => unended place true after
        else unended place true rest
      else
        unended (placeAfter place c)
          (!endsWords place c && (pending || isWordChar place c)) rest

/-- The last word of the text has no `;` and no block behind it. -/
def UnendedWord (text : Text) : Prop :=
  unended .initialWhitespace false text = true

instance (text : Text) : Decidable (UnendedWord text) :=
  inferInstanceAs (Decidable (_ = true))

example : UnendedWord "root a; \\#".toList := by decide +kernel

example : ¬ UnendedWord "http \x7b root 'a;b'; # c\n\x7d".toList := by decide +kernel

theorem unended_plain {place : TokenParserState} {c : Char}
    (plain : c ≠ '\\' ∨ place = .tokenTypeComment) (pending : Bool)
    (rest : Text) :
    unended place pending (c :: rest) =
      unended (placeAfter place c)
        (!endsWords place c && (pending || isWordChar place c)) rest := by
  have notEscape : ¬ (c = '\\' ∧ place ≠ .tokenTypeComment) := by
    rintro ⟨backslash, other⟩
    exact plain.elim (· backslash) other
  rw [unended.eq_def]
  exact if_neg notEscape

theorem unended_taken {place : TokenParserState}
    (outside : place ≠ .tokenTypeComment) (pending : Bool) {ch : Char}
    (taken : escapesAt place ch = true) (after : Text) :
    unended place pending ('\\' :: ch :: after) = unended place true after := by
  rw [unended, if_pos ⟨rfl, outside⟩]
  exact if_pos taken

theorem unended_backslash {place : TokenParserState}
    (outside : place ≠ .tokenTypeComment) (pending : Bool) {rest : Text}
    (notTaken : rest.head?.any (escapesAt place) = false) :
    unended place pending ('\\' :: rest) = unended place true rest := by
  rw [unended.eq_def]
  dsimp only
  rw [if_pos ⟨rfl, outside⟩, notTaken]
  rfl

/-! What a call of the lexer comes to, and what it leaves pending. -/

/-- The first character that is not blank is a backslash. -/
def opensEscape : Text → Bool
  | [] => false
  | c :: rest => if isBlank c then opensEscape rest else c = '\\'

/-- What is pending behind the gap and the comment that the call may stand in; in a
word it is pending already. -/
def Keeps (place : TokenParserState) (pending : Bool) (input : Text)
    (kept : Bool) : Prop :=
  match place with
  | .initialWhitespace => kept = (pending || opensEscape input)
  | .tokenTypeComment => kept = pending
  | .singleQuote | .doubleQuote | .tokenTypeNormal => pending = true

/-- How the characters of a call count: those of a word are pending, those of a `;`
or `{` leave nothing pending, and other calls keep what is. -/
inductive Scanned (kept scanned : Bool) : LoopExit → Prop
  | word (value unread : Text)
      (same : scanned = unended .initialWhitespace true unread) :
      Scanned kept scanned (.returned .normal value unread)
  | ends {type : TokenType} (value unread : Text)
      (isEnd : type = .statementEnd ∨ type = .startBlock)
      (same : scanned = unended .initialWhitespace false unread) :
      Scanned kept scanned (.returned type value unread)
  | keeps {type : TokenType} (value unread : Text)
      (isOther : type = .comment ∨ type = .endBlock)
      (same : scanned = unended .initialWhitespace kept unread) :
      Scanned kept scanned (.returned type value unread)
  | error (value unread : Text) :
      Scanned kept scanned (.returned .error value unread)
  | cut (value : Text) (same : scanned = true) :
      Scanned kept scanned (.endOfInput .tokenTypeNormal value)
  | outside {state : TokenParserState} (value : Text)
      (isOutside : state = .initialWhitespace ∨ state = .tokenTypeComment)
      (same : scanned = kept) : Scanned kept scanned (.endOfInput state value)
  | quoted {state : TokenParserState} (value : Text)
      (failed : endOfFileType state = .error) :
      Scanned kept scanned (.endOfInput state value)

/-- What one round has to do with its characters for the call to count them so. -/
inductive StepScanned (kept scanned : Bool) (rest : Text) : LexStep → Prop
  | next {place : TokenParserState} {pending : Bool} (value : Text)
      (keeps : Keeps place pending rest kept)
      (same : scanned = unended place pending rest) :
      StepScanned kept scanned rest (.next place value)
  | skip {place : TokenParserState} {pending : Bool} {ch : Char} {after : Text}
      (value : Text) (split : rest = ch :: after)
      (keeps : Keeps place pending after kept)
      (same : scanned = unended place pending after) :
      StepScanned kept scanned rest (.skip place value)
  | done {type : TokenType} {value unread : Text}
      (exit : Scanned kept scanned (.returned type value unread)) :
      StepScanned kept scanned rest (.done type value unread)
  | stop {place : TokenParserState} {value : Text}
      (exit : Scanned kept scanned (.endOfInput place value)) :
      StepScanned kept scanned rest (.stop place value)

theorem Keeps.backslash {place : TokenParserState} {pending kept : Bool}
    {rest : Text} (outside : place ≠ .tokenTypeComment)
    (keeps : Keeps place pending ('\\' :: rest) kept) (after : Text) :
    Keeps place true after kept := by
  cases place with
  | initialWhitespace =>
      have isTrue : kept = (pending || true) := keeps
      rw [isTrue, Bool.or_true]
      rfl
  | tokenTypeComment => exact absurd rfl outside
  | singleQuote => rfl
  | doubleQuote => rfl
  | tokenTypeNormal => rfl

theorem escape_scanned {place : TokenParserState} {pending kept : Bool}
    {rest : Text} (outside : place ≠ .tokenTypeComment)
    (keeps : Keeps place pending ('\\' :: rest) kept) (value : Text) :
    StepScanned kept (unended place pending ('\\' :: rest)) rest
      (escape (escapesAt place) place value rest) := by
  cases rest with
  | nil =>
      have last : unended place pending ['\\'] = true :=
        unended_backslash outside pending rfl
      have keepsEnd := keeps.backslash outside []
      refine .stop ?_
      cases place with
      | initialWhitespace => exact .outside value (.inl rfl) (last.trans keepsEnd.symm)
      | tokenTypeComment => exact absurd rfl outside
      | singleQuote => exact .quoted value rfl
      | doubleQuote => exact .quoted value rfl
      | tokenTypeNormal => exact .cut value last
  | cons ch after =>
      cases taken : escapesAt place ch with
      | true =>
          simp only [escape, taken, if_true]
          exact .skip _ rfl (keeps.backslash outside after)
            (unended_taken outside pending taken after)
      | false =>
          simp only [escape, taken]
          exact .next _ (keeps.backslash outside (ch :: after))
            (unended_backslash outside pending taken)

/-- The place inside quotes, and the quote that leaves it. -/
structure QuotePlace (place : TokenParserState) (quote : Char) : Prop where
  isQuoted : place = .singleQuote ∨ place = .doubleQuote
  escapes : escapesAt place = fun c => decide (c = quote)
  after : ∀ c, placeAfter place c = if c = quote then .initialWhitespace else place
  isWordChar : ∀ c, (!endsWords place c && isWordChar place c) = true
  notBackslash : quote ≠ '\\'

theorem quotePlace_single : QuotePlace .singleQuote '\x27' :=
  ⟨.inl rfl, rfl, fun _ => rfl, fun _ => rfl, by decide⟩

theorem quotePlace_double : QuotePlace .doubleQuote '\x22' :=
  ⟨.inr rfl, rfl, fun _ => rfl, fun _ => rfl, by decide⟩

theorem QuotePlace.outside {place : TokenParserState} {quote : Char}
    (quoted : QuotePlace place quote) : place ≠ .tokenTypeComment := by
  rintro rfl
  rcases quoted.isQuoted with isQuote | isQuote <;> cases isQuote

theorem QuotePlace.keeps_iff {place : TokenParserState} {quote : Char}
    (quoted : QuotePlace place quote) (pending : Bool) (input : Text)
    (kept : Bool) : Keeps place pending input kept ↔ pending = true := by
  rcases quoted.isQuoted with rfl | rfl
  · exact Iff.rfl
  · exact Iff.rfl

theorem QuotePlace.unended_char {place : TokenParserState} {quote c : Char}
    (quoted : QuotePlace place quote) (plain : c ≠ '\\') (rest : Text) :
    unended place true (c :: rest) =
      unended (if c = quote then .initialWhitespace else place) true rest := by
  have inWord := quoted.isWordChar c
  rw [Bool.and_eq_true] at inWord
  rw [unended_plain (.inl plain), quoted.after, inWord.1, Bool.true_or,
    Bool.and_true]

theorem quotedCase_scanned {place : TokenParserState} {quote : Char}
    (quoted : QuotePlace place quote) {pending kept : Bool} {c : Char}
    {rest : Text} (keeps : Keeps place pending (c :: rest) kept)
    (closed value : Text) :
    StepScanned kept (unended place pending (c :: rest)) rest
      (quotedCase quote closed place value c rest) := by
  have isPending := (quoted.keeps_iff _ _ _).mp keeps
  by_cases backslash : c = '\\'
  · subst backslash
    have looked := escape_scanned quoted.outside keeps value
    rw [quoted.escapes] at looked
    exact looked
  rw [isPending, quoted.unended_char backslash, quotedCase, if_neg backslash]
  by_cases isQuote : c = quote
  · rw [if_pos isQuote, if_pos isQuote]
    cases rest with
    | nil =>
        refine .stop (.quoted closed ?_)
        rcases quoted.isQuoted with rfl | rfl <;> rfl
    | cons ch rest =>
        rw [closeQuote]
        split
        · exact .done (.word closed _ rfl)
        · exact .done (.error closed _)
  · rw [if_neg isQuote, if_neg isQuote]
    exact .next _ ((quoted.keeps_iff _ _ _).mpr rfl) rfl

theorem commentCase_scanned {pending kept : Bool} {c : Char} {rest : Text}
    (keeps : Keeps .tokenTypeComment pending (c :: rest) kept) (value : Text) :
    StepScanned kept (unended .tokenTypeComment pending (c :: rest)) rest
      (commentCase .tokenTypeComment value c rest) := by
  have same : kept = pending := keeps
  subst same
  rw [unended_plain (.inr rfl), commentCase, placeAfter]
  split
  · exact .done (.keeps value rest (.inl rfl) (by simp [endsWords, isWordChar]))
  · exact .next _ rfl (by simp [endsWords, isWordChar])

theorem endsWords_false {c : Char} (inside : endsWord c = false) :
    (c = ';' || c = '{') = false := by
  rw [endsWord, Bool.or_eq_false_iff, Bool.or_eq_false_iff,
    Bool.or_eq_false_iff] at inside
  obtain ⟨⟨⟨_, notSemicolon⟩, notBrace⟩, _⟩ := inside
  rw [notSemicolon, notBrace]
  rfl

/-- The characters that end a word stand in the gap behind it. -/
theorem placeAfter_endsWord {c : Char} (ends : endsWord c = true) :
    placeAfter .initialWhitespace c = .initialWhitespace := by
  have notHash : c ≠ '#' := by rintro rfl; cases ends
  have notDouble : c ≠ '\x22' := by rintro rfl; cases ends
  have notSingle : c ≠ '\x27' := by rintro rfl; cases ends
  rw [placeAfter, if_neg notHash, if_neg notDouble, if_neg notSingle, if_pos ends]

theorem normalCase_scanned {pending kept : Bool} {c : Char} {rest : Text}
    (keeps : Keeps .tokenTypeNormal pending (c :: rest) kept) (value : Text) :
    StepScanned kept (unended .tokenTypeNormal pending (c :: rest)) rest
      (normalCase .tokenTypeNormal value c rest) := by
  have isPending : pending = true := keeps
  subst isPending
  by_cases backslash : c = '\\'
  · subst backslash
    have looked := escape_scanned (by simp) keeps value
    exact looked
  rw [unended_plain (.inl backslash), Bool.true_or, Bool.and_true, normalCase]
  cases ends : endsWord c with
  | true =>
      -- The character is put back, and counts once more from the gap.
      rw [if_pos rfl]
      refine .done (.word value _ ?_)
      rw [unended_plain (.inl (by rintro rfl; cases ends)),
        placeAfter_endsWord ends, Bool.true_or, Bool.and_true, placeAfter,
        if_pos ends]
      rfl
  | false =>
      have unendedSame : endsWords .tokenTypeNormal c = false :=
        endsWords_false ends
      rw [if_neg Bool.false_ne_true, if_neg backslash, unendedSame, placeAfter,
        ends]
      exact .next _ rfl rfl

theorem blank_endsWord {c : Char} (blank : isBlank c = true) :
    endsWord c = true ∧ endsWords .initialWhitespace c = false := by
  constructor
  · simp only [endsWord, blank, Bool.true_or]
  · have notSemicolon : c ≠ ';' := by rintro rfl; cases blank
    have notBrace : c ≠ '{' := by rintro rfl; cases blank
    simp only [endsWords, decide_eq_false notSemicolon,
      decide_eq_false notBrace, Bool.or_false]

theorem unended_blank {c : Char} (blank : isBlank c = true) (pending : Bool)
    (rest : Text) :
    unended .initialWhitespace pending (c :: rest) =
      unended .initialWhitespace pending rest := by
  obtain ⟨ends, notEnds⟩ := blank_endsWord blank
  have notChar : isWordChar .initialWhitespace c = false := by
    simp only [isWordChar, ends, Bool.not_true, Bool.false_and]
  rw [unended_plain (.inl (by rintro rfl; cases blank)),
    placeAfter_endsWord ends, notEnds, notChar, Bool.or_false]
  rfl

/-- The first character of a word that is neither quoted nor escaped. -/
theorem unended_wordChar {c : Char} (backslash : c ≠ '\\') (hash : c ≠ '#')
    (double : c ≠ '\x22') (single : c ≠ '\x27')
    (inside : endsWord c = false) (pending : Bool) (rest : Text) :
    unended .initialWhitespace pending (c :: rest) =
      unended .tokenTypeNormal true rest := by
  have notEnds : endsWords .initialWhitespace c = false := endsWords_false inside
  have isChar : isWordChar .initialWhitespace c = true := by
    simp only [isWordChar, inside, decide_eq_true hash, Bool.not_false,
      Bool.and_true]
  rw [unended_plain (.inl backslash), placeAfter, if_neg hash, if_neg double,
    if_neg single, inside, notEnds, isChar, Bool.or_true]
  rfl

theorem initialWhitespaceCase_scanned {pending kept : Bool} {c : Char}
    {rest : Text} (keeps : Keeps .initialWhitespace pending (c :: rest) kept)
    (value : Text) :
    StepScanned kept (unended .initialWhitespace pending (c :: rest)) rest
      (initialWhitespaceCase .initialWhitespace value c rest) := by
  by_cases backslash : c = '\\'
  · subst backslash
    have looked := escape_scanned (by simp) keeps value
    cases rest with
    | nil => exact looked
    | cons ch rest => exact looked
  have keepsGap : kept = (pending || opensEscape (c :: rest)) := keeps
  rw [initialWhitespaceCase.eq_def]
  by_cases openBrace : c = '{'
  · subst openBrace
    exact .done (.ends _ _ (.inr rfl) (unended_plain (.inl backslash) _ _))
  rw [if_neg openBrace]
  by_cases closeBrace : c = '}'
  · subst closeBrace
    rw [if_pos rfl, unended_plain (.inl backslash)]
    exact .done (.keeps _ _ (.inr rfl) (by rw [keepsGap]; rfl))
  rw [if_neg closeBrace]
  by_cases hash : c = '#'
  · subst hash
    rw [if_pos rfl, unended_plain (.inl backslash)]
    exact .next _ keepsGap rfl
  rw [if_neg hash]
  by_cases double : c = '\x22'
  · subst double
    rw [if_pos rfl, unended_plain (.inl backslash)]
    exact .next _ (Bool.or_true _) rfl
  rw [if_neg double]
  by_cases single : c = '\x27'
  · subst single
    rw [if_pos rfl, unended_plain (.inl backslash)]
    exact .next _ (Bool.or_true _) rfl
  rw [if_neg single]
  by_cases semicolon : c = ';'
  · subst semicolon
    rw [if_pos rfl]
    exact .done (.ends _ _ (.inl rfl) (unended_plain (.inl backslash) _ _))
  rw [if_neg semicolon]
  cases blank : isBlank c with
  | true =>
      rw [if_pos rfl, unended_blank blank]
      refine .next _ ?_ rfl
      rw [keepsGap, opensEscape, if_pos blank]
      rfl
  | false =>
      have inside : endsWord c = false := by
        simp only [endsWord, blank, decide_eq_false semicolon,
          decide_eq_false openBrace, decide_eq_false closeBrace, Bool.or_false]
      rw [if_neg Bool.false_ne_true, if_neg backslash,
        unended_wordChar backslash hash double single inside]
      exact .next _ rfl rfl

theorem lexStep_scanned {place : TokenParserState} {pending kept : Bool}
    {c : Char} {rest : Text} (keeps : Keeps place pending (c :: rest) kept)
    (value : Text) :
    StepScanned kept (unended place pending (c :: rest)) rest
      (lexStep place value c rest) := by
  cases place with
  | initialWhitespace => exact initialWhitespaceCase_scanned keeps value
  | singleQuote => exact quotedCase_scanned quotePlace_single keeps _ value
  | doubleQuote => exact quotedCase_scanned quotePlace_double keeps _ value
  | tokenTypeComment => exact commentCase_scanned keeps value
  | tokenTypeNormal => exact normalCase_scanned keeps value

theorem lexLoop_scanned {place : TokenParserState} {pending kept : Bool}
    {input : Text} (value : Text) (keeps : Keeps place pending input kept) :
    Scanned kept (unended place pending input) (lexLoop place value input) := by
  fun_induction lexLoop place value input generalizing pending with
  | case1 place value =>
      cases place with
      | initialWhitespace =>
          exact .outside value (.inl rfl) (keeps.trans (Bool.or_false _)).symm
      | singleQuote => exact .quoted value rfl
      | doubleQuote => exact .quoted value rfl
      | tokenTypeComment => exact .outside value (.inr rfl) keeps.symm
      | tokenTypeNormal => exact .cut value keeps
  | case2 place value c rest nextPlace nextValue stepped induction =>
      have scanned := lexStep_scanned keeps value
      rw [stepped] at scanned
      cases scanned with
      | next _ keepsNext same =>
          rw [same]
          exact induction keepsNext
  | case3 place value c nextPlace nextValue stepped =>
      have scanned := lexStep_scanned keeps value
      rw [stepped] at scanned
      cases scanned with
      | skip _ split => cases split
  | case4 place value c nextPlace nextValue ch rest stepped induction =>
      have scanned := lexStep_scanned keeps value
      rw [stepped] at scanned
      cases scanned with
      | skip _ split keepsNext same =>
          cases split
          rw [same]
          exact induction keepsNext
  | case5 place value c rest type found unread stepped =>
      have scanned := lexStep_scanned keeps value
      rw [stepped] at scanned
      cases scanned with
      | done exit => exact exit
  | case6 place value c rest final found stopped =>
      have scanned := lexStep_scanned keeps value
      rw [stopped] at scanned
      cases scanned with
      | stop exit => exact exit

theorem lexLoop_scanned_gap (pending : Bool) (input : Text) :
    Scanned (pending || opensEscape input)
      (unended .initialWhitespace pending input)
      (lexLoop .initialWhitespace [] input) := by
  have keeps : Keeps .initialWhitespace pending input
      (pending || opensEscape input) := rfl
  exact lexLoop_scanned [] keeps

/-! What all the calls on a text leave pending. -/

def EndsInWord (text : Text) : Prop :=
  ∃ value, lexLoop .initialWhitespace [] text =
    .endOfInput .tokenTypeNormal value

def pendingAfter (type : TokenType) (kept : Bool) : Bool :=
  match type with
  | .normal => true
  | .statementEnd | .startBlock => false
  | _ => kept

theorem parseToken_pending {input unread : Text} {result : TokenResult}
    (called : parseToken input = (result, unread))
    (isBody : isBodyResult result = true) (pending : Bool) :
    unended .initialWhitespace pending input =
      unended .initialWhitespace
        (pendingAfter result.1 (pending || opensEscape input)) unread := by
  have scanned := lexLoop_scanned_gap pending input
  unfold parseToken at called
  split at called
  next type value rest returned =>
    rw [returned] at scanned
    cases called
    cases scanned with
    | word _ _ same => exact same
    | ends _ _ isEnd same => rcases isEnd with rfl | rfl <;> exact same
    | keeps _ _ isOther same => rcases isOther with rfl | rfl <;> exact same
    | error => cases isBody
  next state value ended =>
    cases called
    simp only [endOfFileType] at isBody
    split at isBody <;> cases isBody

theorem parseToken_eof_pending {input : Text}
    (final : (parseToken input).1.1 = .eof) (pending : Bool) :
    unended .initialWhitespace pending input = true ↔
      EndsInWord input ∨ pending = true ∨ opensEscape input = true := by
  have scanned := lexLoop_scanned_gap pending input
  unfold parseToken at final
  unfold EndsInWord
  generalize lexLoop .initialWhitespace [] input = exit at scanned final ⊢
  cases scanned with
  | word => cases final
  | ends _ _ isEnd => rcases isEnd with rfl | rfl <;> cases final
  | keeps _ _ isOther => rcases isOther with rfl | rfl <;> cases final
  | error => cases final
  | cut value same => exact ⟨fun _ => .inl ⟨value, rfl⟩, fun _ => same⟩
  | outside value isOutside same =>
      rw [same, Bool.or_eq_true]
      refine ⟨.inr, fun left => left.resolve_left ?_⟩
      rintro ⟨_, inWord⟩
      cases inWord
      rcases isOutside with isWord | isWord <;> cases isWord
  | quoted value failed => exact absurd (failed.symm.trans final) (by decide)

/-- Calls that hand out comments and closing braces only. -/
def OnlyBraces (results : List TokenResult) : Prop :=
  ∀ result ∈ results, result.1 = .comment ∨ result.1 = .endBlock

theorem isBodyResult_type {result : TokenResult}
    (isBody : isBodyResult result = true) :
    result.1 = .normal ∨ (result.1 = .statementEnd ∨ result.1 = .startBlock) ∨
      (result.1 = .comment ∨ result.1 = .endBlock) := by
  obtain ⟨type, value⟩ := result
  cases type with
  | normal => exact .inl rfl
  | statementEnd => exact .inr (.inl (.inl rfl))
  | startBlock => exact .inr (.inl (.inr rfl))
  | comment => exact .inr (.inr (.inl rfl))
  | endBlock => exact .inr (.inr (.inr rfl))
  | start => cases isBody
  | eof => cases isBody
  | error => cases isBody
  | quotedString => cases isBody

theorem Lexes.pending {text unread : Text} {results : List TokenResult}
    (lexes : Lexes text results unread) (pending : Bool) :
    ∃ left, unended .initialWhitespace pending text =
      unended .initialWhitespace left unread := by
  induction lexes generalizing pending with
  | nil => exact ⟨pending, rfl⟩
  | cons head _ induction =>
      rw [parseToken_pending head.1 head.2]
      exact induction _

/-- A word that is pending, or opens with a backslash, stays behind comments and
closing braces. -/
theorem Lexes.stays_unended {text unread : Text} {results : List TokenResult}
    (lexes : Lexes text results unread)
    (final : (parseToken unread).1.1 = .eof) (braces : OnlyBraces results)
    {pending : Bool} (left : pending = true ∨ opensEscape text = true) :
    unended .initialWhitespace pending text = true := by
  induction lexes generalizing pending with
  | nil => exact (parseToken_eof_pending final pending).mpr (.inr left)
  | cons head _ induction =>
      rw [parseToken_pending head.1 head.2, Bool.or_eq_true _ _ |>.mpr left]
      obtain ⟨isBrace, braces⟩ := List.forall_mem_cons.mp braces
      refine induction final braces (.inl ?_)
      rcases isBrace with type | type <;> rw [type] <;> rfl

/-- A word that is left is cut off by the end, was pending, is handed out with only
closing braces behind it, or opens with a backslash behind the last of the words
and is not handed out. -/
inductive WordLeft (text : Text) (pending : Bool) (results : List TokenResult)
    (unread : Text) : Prop
  | cut (inWord : EndsInWord unread)
  | before (isPending : pending = true) (braces : OnlyBraces results)
  | handedOut {before after : List TokenResult} {word : Text}
      (split : results = before ++ (.normal, word) :: after)
      (braces : OnlyBraces after)
  | dropped {before after : List TokenResult} {middle : Text}
      (lexesBefore : Lexes text before middle)
      (opens : opensEscape middle = true)
      (lexesAfter : Lexes middle after unread) (braces : OnlyBraces after)
      (split : results = before ++ after)

theorem Lexes.wordLeft {text unread : Text} {results : List TokenResult}
    (lexes : Lexes text results unread)
    (final : (parseToken unread).1.1 = .eof) {pending : Bool}
    (left : unended .initialWhitespace pending text = true) :
    WordLeft text pending results unread := by
  induction lexes generalizing pending with
  | nil text =>
      rcases (parseToken_eof_pending final pending).mp left with
        inWord | isPending | opens
      · exact .cut inWord
      · exact .before isPending (List.forall_mem_nil _)
      · exact .dropped (.nil text) opens (.nil text) (List.forall_mem_nil _) rfl
  | @cons text middle unread result results head tail induction =>
      rw [parseToken_pending head.1 head.2] at left
      cases induction final left with
      | cut inWord => exact .cut inWord
      | @handedOut before after word split braces =>
          have longer : result :: results =
              (result :: before) ++ (.normal, word) :: after :=
            congrArg (result :: ·) split
          exact .handedOut longer braces
      | @dropped before after middle lexesBefore opens lexesAfter braces split =>
          have longer : result :: results = (result :: before) ++ after :=
            congrArg (result :: ·) split
          exact .dropped (.cons head lexesBefore) opens lexesAfter braces longer
      | before isPending braces =>
          rcases isBodyResult_type head.2 with isWord | isEnd | isBrace
          · obtain ⟨type, word⟩ := result
            cases isWord
            exact .handedOut (List.nil_append _).symm braces
          · rcases isEnd with type | type <;> rw [type] at isPending <;>
              cases isPending
          · have allBraces : OnlyBraces (result :: results) :=
              List.forall_mem_cons.mpr ⟨isBrace, braces⟩
            have kept : (pending || opensEscape text) = true := by
              rcases isBrace with type | type <;> rw [type] at isPending <;>
                exact isPending
            rcases Bool.or_eq_true _ _ ▸ kept with isPending | opens
            · exact .before isPending allBraces
            · exact .dropped (.nil text) opens (.cons head tail) allBraces rfl

end HttpsServer.Config
