import HttpsServer.Config.RoundTrip

namespace HttpsServer.Config

open HttpsServer.Data

/-! The ways to set a sequence of lexemes out as a text. -/

def Lexeme.text : Lexeme → Text
  | .word token => token
  | .semicolon => [';']
  | .openBrace => ['{']
  | .closeBrace => ['}']

def Lexeme.isWord : Lexeme → Bool
  | .word _ => true
  | .semicolon | .openBrace | .closeBrace => false

/-- The text of a comment stays on one line. -/
def OneLine (text : Text) : Prop :=
  ∀ c ∈ text, c ≠ '\n' ∧ c ≠ '\r'

instance (text : Text) : Decidable (OneLine text) :=
  List.decidableBAll _ text

/-- Blanks and comments, each with the character that ends its line. -/
inductive Separator : Text → Prop
  | nil : Separator []
  | blank {c : Char} {rest : Text} (isBlank : isBlank c = true)
      (after : Separator rest) : Separator (c :: rest)
  | comment {body rest : Text} {last : Char} (oneLine : OneLine body)
      (ends : last = '\n' ∨ last = '\r') (after : Separator rest) :
      Separator ('#' :: (body ++ last :: rest))

/-- What may follow the last lexeme: the end of the file may cut a comment off. -/
inductive Trailing : Text → Prop
  | whole {text : Text} (separates : Separator text) : Trailing text
  | cut {text body : Text} (separates : Separator text)
      (oneLine : OneLine body) : Trailing (text ++ '#' :: body)

def StartsBlank (text : Text) : Prop :=
  ∃ c rest, text = c :: rest ∧ isBlank c = true

/-- A text that sets out the lexemes, after a word or after something else. A word
is followed by a blank or directly by a punctuation mark. -/
inductive Layout : Bool → List Lexeme → Text → Prop
  | nil {afterWord : Bool} {trailing : Text} (trails : Trailing trailing)
      (apart : afterWord = true → StartsBlank trailing) :
      Layout afterWord [] trailing
  | cons {afterWord : Bool} {lexeme : Lexeme} {lexemes : List Lexeme}
      {separator rest : Text} (separates : Separator separator)
      (apart : afterWord = true → StartsBlank separator ∨
        separator = [] ∧ lexeme.isWord = false)
      (after : Layout lexeme.isWord lexemes rest) :
      Layout afterWord (lexeme :: lexemes) (separator ++ lexeme.text ++ rest)

/-! Comments as the lexer reads them. -/

theorem lexLoop_comment {body : Text} (oneLine : OneLine body) {last : Char}
    (ends : last = '\n' ∨ last = '\r') (value rest : Text) :
    lexLoop .tokenTypeComment value (body ++ last :: rest) =
      .returned .comment (value ++ body) rest := by
  induction body generalizing value with
  | nil =>
      rcases ends with rfl | rfl <;> simp [lexLoop, lexStep, commentCase]
  | cons c body induction =>
      obtain ⟨notNewline, notReturn⟩ := oneLine c List.mem_cons_self
      have step : lexStep .tokenTypeComment value c (body ++ last :: rest) =
          .next .tokenTypeComment (value ++ [c]) := by
        simp [lexStep, commentCase, notNewline, notReturn]
      rw [List.cons_append, lexLoop, step]
      dsimp only
      rw [induction fun other member => oneLine other
        (List.mem_cons_of_mem _ member), List.append_assoc,
        List.singleton_append]

theorem lexLoop_cutComment {body : Text} (oneLine : OneLine body)
    (value : Text) :
    lexLoop .tokenTypeComment value body =
      .endOfInput .tokenTypeComment (value ++ body) := by
  induction body generalizing value with
  | nil => rw [lexLoop, List.append_nil]
  | cons c body induction =>
      obtain ⟨notNewline, notReturn⟩ := oneLine c List.mem_cons_self
      have step : lexStep .tokenTypeComment value c body =
          .next .tokenTypeComment (value ++ [c]) := by
        simp [lexStep, commentCase, notNewline, notReturn]
      rw [lexLoop, step]
      dsimp only
      rw [induction fun other member => oneLine other
        (List.mem_cons_of_mem _ member), List.append_assoc,
        List.singleton_append]

theorem parseToken_comment {body : Text} (oneLine : OneLine body) {last : Char}
    (ends : last = '\n' ∨ last = '\r') (rest : Text) :
    parseToken ('#' :: (body ++ last :: rest)) =
      ((.comment, '#' :: body), rest) := by
  have read : lexLoop .initialWhitespace [] ('#' :: (body ++ last :: rest)) =
      lexLoop .tokenTypeComment ['#'] (body ++ last :: rest) := rfl
  rw [parseToken, read, lexLoop_comment oneLine ends]
  rfl

theorem parseToken_cutComment {body : Text} (oneLine : OneLine body) :
    (parseToken ('#' :: body)).1.1 = .eof := by
  have read : lexLoop .initialWhitespace [] ('#' :: body) =
      lexLoop .tokenTypeComment ['#'] body := rfl
  rw [parseToken, read, lexLoop_cutComment oneLine]
  rfl

theorem Separator.lexes {separator : Text} (separates : Separator separator)
    (rest : Text) :
    ∃ comments left, Blanks left ∧ lexemesOf comments = [] ∧
      Lexes (separator ++ rest) comments (left ++ rest) := by
  suffices ∀ blanks, Blanks blanks → ∃ comments left, Blanks left ∧
      lexemesOf comments = [] ∧
      Lexes (blanks ++ (separator ++ rest)) comments (left ++ rest) from
    this [] blanks_nil
  induction separates with
  | nil => exact fun blanks blank => ⟨[], blanks, blank, rfl, .nil _⟩
  | @blank c after isBlank _ induction =>
      intro blanks blank
      have longer := blank.append (blanks_singleton c isBlank)
      obtain ⟨comments, left, leftBlank, noLexemes, lexes⟩ :=
        induction (blanks ++ [c]) longer
      rw [List.append_assoc] at lexes
      exact ⟨comments, left, leftBlank, noLexemes, lexes⟩
  | @comment body after last oneLine ends _ induction =>
      intro blanks blank
      obtain ⟨comments, left, leftBlank, noLexemes, lexes⟩ :=
        induction [] blanks_nil
      refine ⟨(.comment, '#' :: body) :: comments, left, leftBlank, noLexemes, ?_⟩
      refine .blanks blank (.cons ⟨?_, rfl⟩ lexes)
      rw [List.cons_append, List.append_assoc]
      exact parseToken_comment oneLine ends _

theorem Trailing.lexes {trailing : Text} (trails : Trailing trailing) :
    ∃ comments unread, lexemesOf comments = [] ∧
      Lexes trailing comments unread ∧ (parseToken unread).1.1 = .eof := by
  cases trails with
  | whole separates =>
      obtain ⟨comments, left, leftBlank, noLexemes, lexes⟩ := separates.lexes []
      rw [List.append_nil] at lexes
      refine ⟨comments, _, noLexemes, lexes, ?_⟩
      rw [parseToken_blanks leftBlank]
      rfl
  | @cut text body separates oneLine =>
      obtain ⟨comments, left, leftBlank, noLexemes, lexes⟩ :=
        separates.lexes ('#' :: body)
      refine ⟨comments, _, noLexemes, lexes, ?_⟩
      rw [parseToken_blanks leftBlank]
      exact parseToken_cutComment oneLine

/-! A layout is lexed into its lexemes. -/

theorem endsWord_of_isBlank {c : Char} (blank : isBlank c = true) :
    endsWord c = true := by
  simp [endsWord, blank]

theorem Layout.endsWord {lexemes : List Lexeme} {text : Text}
    (laid : Layout true lexemes text) :
    ∃ c rest, text = c :: rest ∧ endsWord c = true := by
  cases laid with
  | nil _ apart =>
      obtain ⟨c, rest, rfl, blank⟩ := apart rfl
      exact ⟨c, rest, rfl, endsWord_of_isBlank blank⟩
  | @cons _ lexeme _ _ _ _ apart _ =>
      obtain ⟨c, rest, rfl, blank⟩ | ⟨rfl, punctuation⟩ := apart rfl
      · exact ⟨c, _, rfl, endsWord_of_isBlank blank⟩
      · cases lexeme with
        | word => contradiction
        | semicolon => exact ⟨';', _, rfl, rfl⟩
        | openBrace => exact ⟨'{', _, rfl, rfl⟩
        | closeBrace => exact ⟨'}', _, rfl, rfl⟩

/-- Every word among the lexemes is plain. -/
def PlainWords (lexemes : List Lexeme) : Prop :=
  ∀ token, .word token ∈ lexemes → isPlainToken token = true

theorem parseToken_lexeme {lexeme : Lexeme} {lexemes : List Lexeme}
    {rest : Text} (plain : PlainWords (lexeme :: lexemes))
    (laid : Layout lexeme.isWord lexemes rest) :
    parseToken (lexeme.text ++ rest) = (lexeme.result, rest) := by
  cases lexeme with
  | word token =>
      obtain ⟨c, after, rfl, ends⟩ := laid.endsWord
      exact parseToken_plain (plain token List.mem_cons_self) ends after
  | semicolon => rfl
  | openBrace => rfl
  | closeBrace => rfl

theorem Layout.lexes {afterWord : Bool} {lexemes : List Lexeme} {text : Text}
    (laid : Layout afterWord lexemes text) (plain : PlainWords lexemes) :
    ∃ results unread, lexemesOf results = lexemes ∧
      Lexes text results unread ∧ (parseToken unread).1.1 = .eof := by
  induction laid with
  | nil trails _ => exact trails.lexes
  | @cons _ lexeme lexemes separator rest separates _ after induction =>
      obtain ⟨results, unread, sameLexemes, lexes, final⟩ :=
        induction fun token member => plain token (List.mem_cons_of_mem _ member)
      obtain ⟨comments, left, leftBlank, noLexemes, before⟩ :=
        separates.lexes (lexeme.text ++ rest)
      have head : Lexes (left ++ (lexeme.text ++ rest))
          (lexeme.result :: results) unread := by
        refine .blanks leftBlank (.cons ⟨parseToken_lexeme plain after, ?_⟩ lexes)
        cases lexeme <;> rfl
      refine ⟨comments ++ lexeme.result :: results, unread, ?_, ?_, final⟩
      · have isLexeme : lexeme? lexeme.result = some lexeme := by
          cases lexeme <;> rfl
        rw [lexemesOf_append, noLexemes, lexemesOf_cons_lexeme isLexeme,
          sameLexemes, List.nil_append]
      · rw [List.append_assoc]
        exact before.append head

/-- However the same lexemes are set out, `Parse` makes the same of them. -/
theorem parse_layouts {lexemes : List Lexeme} {left right : Text}
    (plain : PlainWords lexemes) (leftLaid : Layout false lexemes left)
    (rightLaid : Layout false lexemes right) :
    ∃ valid leftTree rightTree,
      parse left (.mk []) = .returned valid leftTree ∧
      parse right (.mk []) = .returned valid rightTree ∧
      (valid = true → leftTree = rightTree) := by
  obtain ⟨leftResults, leftUnread, leftSame, leftLexes, leftFinal⟩ :=
    leftLaid.lexes plain
  obtain ⟨rightResults, rightUnread, rightSame, rightLexes, rightFinal⟩ :=
    rightLaid.lexes plain
  exact parse_same_lexemes leftLexes leftFinal rightLexes rightFinal
    (rightSame.trans leftSame.symm)

/-- A comment with a quote and a brace between a word and its block. -/
theorem parse_layouts_commented :
    ∃ valid leftTree rightTree,
      parse "http \r# it's a \x7b\n\x7b\x7d #".toList (.mk []) =
        .returned valid leftTree ∧
      parse "http\x7b\x7d".toList (.mk []) = .returned valid rightTree ∧
      (valid = true → leftTree = rightTree) := by
  have plain : PlainWords [.word "http".toList, .openBrace, .closeBrace] := by
    intro token member
    simp only [List.mem_cons, Lexeme.word.injEq, reduceCtorEq,
      List.not_mem_nil, or_false] at member
    rw [member]
    decide
  have oneLine : OneLine " it's a \x7b".toList := by decide
  have comment : Separator "# it's a \x7b\n".toList :=
    .comment oneLine (.inl rfl) .nil
  have separates : Separator " \r# it's a \x7b\n".toList :=
    .blank rfl (.blank rfl comment)
  have cut : Trailing " #".toList := .cut (.blank rfl .nil) nofun
  apply parse_layouts plain
  · exact .cons .nil nofun (.cons separates (fun _ => .inl ⟨' ', _, rfl, rfl⟩)
      (.cons .nil nofun (.nil cut nofun)))
  · exact .cons .nil nofun (.cons .nil (fun _ => .inr ⟨rfl, rfl⟩)
      (.cons .nil nofun (.nil (.whole .nil) nofun)))

end HttpsServer.Config
