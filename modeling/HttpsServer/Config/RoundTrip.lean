import HttpsServer.Config.Lexing

namespace HttpsServer.Config

open HttpsServer.Data

/-! Words that the lexer reads back unchanged when they stand unquoted. -/

/-- A character that neither ends a word nor starts an escape. -/
def isPlainChar (c : Char) : Bool :=
  !endsWord c && c ≠ '\\'

/-- A non-empty word of plain characters that opens neither a comment nor a
quoted string. -/
def isPlainToken : Text → Bool
  | [] => false
  | first :: rest =>
      first ≠ '#' && first ≠ '\x22' && first ≠ '\x27' &&
        (first :: rest).all isPlainChar

abbrev NginxConfig.Plain (config : NginxConfig) : Prop :=
  config.Every fun tokens =>
    tokens ≠ [] ∧ ∀ token ∈ tokens, isPlainToken token = true

theorem lexLoop_blank {c : Char} (blank : isBlank c = true)
    (value rest : Text) :
    lexLoop .initialWhitespace value (c :: rest) =
      lexLoop .initialWhitespace value rest := by
  simp only [isBlank, Bool.or_eq_true, decide_eq_true_eq] at blank
  rcases blank with ((rfl | rfl) | rfl) | rfl <;> rfl

theorem lexLoop_plain {state : TokenParserState} {value : Text} {c : Char}
    (plain : isPlainChar c = true)
    (inWord : state = .tokenTypeNormal ∨
      (state = .initialWhitespace ∧ c ≠ '#' ∧ c ≠ '\x22' ∧ c ≠ '\x27'))
    (rest : Text) :
    lexLoop state value (c :: rest) =
      lexLoop .tokenTypeNormal (value ++ [c]) rest := by
  simp only [isPlainChar, endsWord, isBlank, Bool.and_eq_true,
    Bool.not_eq_true', Bool.or_eq_false_iff, decide_eq_false_iff_not,
    decide_eq_true_eq] at plain
  obtain ⟨⟨⟨⟨blank, semicolon⟩, openBrace⟩, closeBrace⟩, backslash⟩ := plain
  rcases inWord with rfl | ⟨rfl, noComment, noDouble, noSingle⟩
  · simp_all [lexLoop, lexStep, normalCase, endsWord, isBlank]
  · simp_all [lexLoop, lexStep, initialWhitespaceCase, isBlank]

theorem lexLoop_word {word : Text} (plain : ∀ c ∈ word, isPlainChar c = true)
    {last : Char} (ends : endsWord last = true) (value rest : Text) :
    lexLoop .tokenTypeNormal value (word ++ last :: rest) =
      .returned .normal (value ++ word) (last :: rest) := by
  induction word generalizing value with
  | nil => simp [lexLoop, lexStep, normalCase, ends]
  | cons c word induction =>
      rw [List.cons_append, lexLoop_plain (plain c List.mem_cons_self) (.inl rfl),
        induction fun other member => plain other (List.mem_cons_of_mem _ member),
        List.append_assoc, List.singleton_append]

theorem parseToken_plain {token : Text} (plain : isPlainToken token = true)
    {last : Char} (ends : endsWord last = true) (rest : Text) :
    parseToken (token ++ last :: rest) =
      ((.normal, token), last :: rest) := by
  cases token with
  | nil => cases plain
  | cons first token =>
      simp only [isPlainToken, Bool.and_eq_true, decide_eq_true_eq,
        List.all_eq_true] at plain
      obtain ⟨⟨⟨noComment, noDouble⟩, noSingle⟩, plainChars⟩ := plain
      have word : lexLoop .initialWhitespace []
          (first :: token ++ last :: rest) =
          .returned .normal (first :: token) (last :: rest) := by
        rw [List.cons_append,
          lexLoop_plain (plainChars first List.mem_cons_self)
            (.inr ⟨rfl, noComment, noDouble, noSingle⟩),
          lexLoop_word (fun c member =>
            plainChars c (List.mem_cons_of_mem _ member)) ends]
        rfl
      simp only [parseToken, word]

theorem parseToken_blank {c : Char} (blank : isBlank c = true) (rest : Text) :
    parseToken (c :: rest) = parseToken rest := by
  simp only [parseToken, lexLoop_blank blank]

def Blanks (text : Text) : Prop :=
  ∀ c ∈ text, isBlank c = true

theorem Blanks.append {left right : Text} (leftBlank : Blanks left)
    (rightBlank : Blanks right) : Blanks (left ++ right) := by
  intro c member
  rcases List.mem_append.mp member with member | member
  · exact leftBlank c member
  · exact rightBlank c member

theorem blanks_nil : Blanks [] := nofun

theorem blanks_singleton (c : Char) (blank : isBlank c = true) :
    Blanks [c] := by
  intro other member
  rw [List.mem_singleton.mp member]
  exact blank

theorem blanks_indentation (depth : Nat) : Blanks (indentation depth) := by
  induction depth with
  | zero => simp [indentation, Blanks]
  | succ depth induction =>
      intro c member
      simp only [indentation, List.mem_cons] at member
      rcases member with rfl | rfl | member
      · rfl
      · rfl
      · exact induction c member

theorem parseToken_blanks {blanks : Text} (blank : Blanks blanks)
    (rest : Text) : parseToken (blanks ++ rest) = parseToken rest := by
  induction blanks with
  | nil => rfl
  | cons c blanks induction =>
      rw [List.cons_append, parseToken_blank (blank c List.mem_cons_self),
        induction fun other member => blank other (List.mem_cons_of_mem _ member)]

theorem Lexes.blanks {blanks : Text} (blank : Blanks blanks)
    {input unread : Text} {result : TokenResult} {results : List TokenResult}
    (lexes : Lexes input (result :: results) unread) :
    Lexes (blanks ++ input) (result :: results) unread := by
  cases lexes with
  | cons head tail =>
      refine .cons ⟨?_, head.2⟩ tail
      rw [parseToken_blanks blank, head.1]

/-! The printed form of a tree is lexed into the lexemes of the tree. -/

def Lexeme.result : Lexeme → TokenResult
  | .word token => (.normal, token)
  | .semicolon => (.statementEnd, [';'])
  | .openBrace => (.startBlock, ['{'])
  | .closeBrace => (.endBlock, ['}'])

theorem lexemesOf_result (lexemes : List Lexeme) :
    lexemesOf (lexemes.map Lexeme.result) = lexemes := by
  induction lexemes with
  | nil => rfl
  | cons lexeme lexemes induction =>
      have head : lexeme? lexeme.result = some lexeme := by
        cases lexeme <;> rfl
      rw [List.map_cons, lexemesOf_cons_lexeme head, induction]

/-- A word that the lexer reads back where it stands in a printed statement. -/
def Reread (token : Text) : Prop :=
  ∀ (last : Char) (rest : Text), last = ' ' ∨ last = ';' →
    parseToken (token ++ last :: rest) = ((.normal, token), last :: rest)

theorem lexes_tokens_tail {tokens : List Text}
    (reread : ∀ token ∈ tokens, Reread token)
    {last : Char} (ends : last = ' ' ∨ last = ';') (rest : Text) :
    (∃ next after, (next = ' ' ∨ next = ';') ∧
      (tokens.flatMap fun token => ' ' :: token) ++ last :: rest =
        next :: after) ∧
    Lexes ((tokens.flatMap fun token => ' ' :: token) ++ last :: rest)
      ((tokens.map Lexeme.word).map Lexeme.result) (last :: rest) := by
  induction tokens with
  | nil => exact ⟨⟨last, rest, ends, rfl⟩, .nil _⟩
  | cons token tokens induction =>
      obtain ⟨⟨next, after, nextEnds, tailEquation⟩, tailLexes⟩ :=
        induction fun other member =>
          reread other (List.mem_cons_of_mem _ member)
      rw [List.flatMap_cons, List.append_assoc, List.cons_append]
      refine ⟨⟨' ', _, .inl rfl, rfl⟩, ?_⟩
      refine .cons ⟨?_, rfl⟩ tailLexes
      rw [parseToken_blank rfl, tailEquation]
      exact reread token List.mem_cons_self next after nextEnds

theorem lexes_tokens {tokens : List Text} (nonempty : tokens ≠ [])
    (reread : ∀ token ∈ tokens, Reread token)
    (last : Char) (ends : last = ' ' ∨ last = ';') {blanks : Text}
    (blank : Blanks blanks) (rest : Text) :
    Lexes (blanks ++ (joinTokens tokens ++ last :: rest))
      ((tokens.map Lexeme.word).map Lexeme.result) (last :: rest) := by
  cases tokens with
  | nil => exact absurd rfl nonempty
  | cons first tokens =>
      obtain ⟨⟨next, after, nextEnds, tailEquation⟩, tailLexes⟩ :=
        lexes_tokens_tail (fun token member =>
          reread token (List.mem_cons_of_mem _ member)) ends rest
      refine .blanks blank (.cons ⟨?_, rfl⟩ tailLexes)
      rw [joinTokens, List.append_assoc, tailEquation]
      exact reread first List.mem_cons_self next after nextEnds

theorem lexes_punctuation (lexeme : Lexeme) {c : Char}
    (value : lexeme.result.2 = [c]) (notWord : lexeme ≠ .word [c])
    {blanks : Text} (blank : Blanks blanks) (rest : Text) :
    Lexes (blanks ++ c :: rest) ([lexeme].map Lexeme.result) rest := by
  refine .blanks blank (.single ?_)
  cases lexeme with
  | word token => exact absurd (congrArg Lexeme.word value) notWord
  | semicolon => cases value; exact ⟨rfl, rfl⟩
  | openBrace => cases value; exact ⟨rfl, rfl⟩
  | closeBrace => cases value; exact ⟨rfl, rfl⟩

mutual
theorem reread_statements (depth : Nat) :
    (statements : List NginxConfigStatement) →
    EveryStatement (fun tokens =>
      tokens ≠ [] ∧ ∀ token ∈ tokens, Reread token) statements →
    ∀ (blanks rest : Text), Blanks blanks →
    ∃ left, Blanks left ∧
      Lexes (blanks ++ (statementsToString depth statements ++ rest))
        ((statementLexemes statements).map Lexeme.result) (left ++ rest)
  | [], _, blanks, rest, blank => ⟨blanks, blank, .nil _⟩
  | statement :: statements, reread, blanks, rest, blank => by
      obtain ⟨middle, middleBlank, first⟩ :=
        reread_statement depth statement reread.1 blanks
          (statementsToString depth statements ++ rest) blank
      obtain ⟨left, leftBlank, others⟩ :=
        reread_statements depth statements reread.2 middle rest middleBlank
      refine ⟨left, leftBlank, ?_⟩
      rw [statementsToString, statementLexemes, List.map_append,
        List.append_assoc]
      exact first.append others

theorem reread_statement (depth : Nat) :
    (statement : NginxConfigStatement) →
    statement.Every (fun tokens =>
      tokens ≠ [] ∧ ∀ token ∈ tokens, Reread token) →
    ∀ (blanks rest : Text), Blanks blanks →
    ∃ left, Blanks left ∧
      Lexes (blanks ++ (statement.toString depth ++ rest))
        (statement.lexemes.map Lexeme.result) (left ++ rest)
  | .mk tokens none, reread, blanks, rest, blank => by
      have indented := blank.append (blanks_indentation depth)
      have words := lexes_tokens reread.1 reread.2 ';' (.inr rfl) indented
        ('\n' :: rest)
      have mark := lexes_punctuation .semicolon rfl nofun blanks_nil
        ('\n' :: rest)
      refine ⟨['\n'], blanks_singleton '\n' rfl, ?_⟩
      simpa [NginxConfigStatement.toString, NginxConfigStatement.lexemes]
        using words.append mark
  | .mk tokens (some (.mk inner)), reread, blanks, rest, blank => by
      have indented := blank.append (blanks_indentation depth)
      have words := lexes_tokens reread.1.1 reread.1.2 ' ' (.inl rfl) indented
        ('{' :: '\n' :: (statementsToString (depth + 1) inner ++
          (indentation depth ++ '}' :: '\n' :: rest)))
      have opening := lexes_punctuation .openBrace rfl nofun
        (blanks_singleton ' ' rfl)
        ('\n' :: (statementsToString (depth + 1) inner ++
          (indentation depth ++ '}' :: '\n' :: rest)))
      obtain ⟨left, leftBlank, block⟩ :=
        reread_statements (depth + 1) inner reread.2 ['\n']
          (indentation depth ++ '}' :: '\n' :: rest)
          (blanks_singleton '\n' rfl)
      have closing := lexes_punctuation .closeBrace rfl nofun
        (leftBlank.append (blanks_indentation depth))
        ('\n' :: rest)
      rw [List.append_assoc] at closing
      refine ⟨['\n'], blanks_singleton '\n' rfl, ?_⟩
      simpa [NginxConfigStatement.toString, NginxConfig.toString,
        NginxConfigStatement.lexemes, NginxConfig.lexemes]
        using words.append (opening.append (block.append closing))
end

theorem lexes_statements (depth : Nat)
    (statements : List NginxConfigStatement)
    (plain : EveryStatement (fun tokens =>
      tokens ≠ [] ∧ ∀ token ∈ tokens, isPlainToken token = true) statements)
    (blanks rest : Text) (blank : Blanks blanks) :
    ∃ left, Blanks left ∧
      Lexes (blanks ++ (statementsToString depth statements ++ rest))
        ((statementLexemes statements).map Lexeme.result) (left ++ rest) := by
  refine reread_statements depth statements ?_ blanks rest blank
  refine plain.imp fun tokens ⟨nonempty, plainTokens⟩ => ⟨nonempty, ?_⟩
  intro token member last rest ends
  refine parseToken_plain (plainTokens token member) ?_ rest
  rcases ends with rfl | rfl <;> rfl

/-- Printing a config of plain tokens and parsing the text gives it back. -/
theorem parse_toString (config : NginxConfig) (plain : config.Plain) :
    parse (config.toString 0) (.mk []) = .returned true config := by
  obtain ⟨statements⟩ := config
  obtain ⟨left, leftBlank, lexes⟩ :=
    lexes_statements 0 statements plain [] [] blanks_nil
  simp only [List.nil_append, List.append_nil] at lexes
  have final : parseToken left = ((.eof, []), []) := by
    rw [← List.append_nil left, parseToken_blanks leftBlank]
    rfl
  have derivation : Derives
      (lexemesOf ((statementLexemes statements).map Lexeme.result))
      (.mk statements) := by
    rw [lexemesOf_result, derives_iff]
    exact ⟨rfl, plain.imp fun tokens tokensPlain => tokensPlain.1⟩
  exact parse_derived lexes (by rw [final]) derivation

theorem parse_toString_nested :
    parse ((NginxConfig.mk [
        .mk ["server".toList] (some (.mk [
          .mk ["location".toList, "/a".toList] (some (.mk [])),
          .mk ["root".toList] none])),
        .mk ["listen".toList, "80".toList] none]).toString 0) (.mk []) =
      .returned true (.mk [
        .mk ["server".toList] (some (.mk [
          .mk ["location".toList, "/a".toList] (some (.mk [])),
          .mk ["root".toList] none])),
        .mk ["listen".toList, "80".toList] none]) :=
  parse_toString _ (by simp [NginxConfig.Plain, NginxConfig.Every,
    EveryStatement, NginxConfigStatement.Every, isPlainToken, isPlainChar,
    endsWord, isBlank])

end HttpsServer.Config
