import HttpsServer.Config.Quoting
import HttpsServer.Dispatch.Handler

namespace HttpsServer.Dispatch

open HttpsServer.Data
open HttpsServer.Config

/-! A location whose path is written with and without quotes. -/

/-- The text of a location with its path as it is written there. -/
def locationText (writtenPath : Text) (type : HandlerType) (block : Text) :
    Text :=
  "location ".toList ++ (writtenPath ++ ' ' :: (type.name ++
    (" \x7b".toList ++ block ++ "\x7d".toList)))

def doubleQuoted (path : Text) : Text :=
  '\x22' :: (path ++ ['\x22'])

def singleQuoted (path : Text) : Text :=
  '\x27' :: (path ++ ['\x27'])

/-- A path without whitespace, quotes, backslashes and special characters. -/
def IsPathText (path : Text) : Prop :=
  path ≠ [] ∧ ∀ c ∈ path, isPlainChar c = true ∧
    c ≠ '#' ∧ c ≠ '\x22' ∧ c ≠ '\x27'

instance (path : Text) : Decidable (IsPathText path) :=
  @instDecidableAnd _ _ inferInstance (List.decidableBAll _ path)

/-- `Parse` accepts the text in the place of a block. -/
def AcceptedInside (block : Text) : Prop :=
  ∃ tree, parse ('b' :: (" \x7b".toList ++ block ++ "\x7d".toList)) (.mk []) =
    .returned true tree

theorem isPlainToken_name (type : HandlerType) :
    isPlainToken type.name = true := by
  cases type <;> decide

theorem AcceptedInside.lexes {block : Text} (accepted : AcceptedInside block) :
    ∃ results unread others childBlock statements,
      Lexes (" \x7b".toList ++ block ++ "\x7d".toList) results unread ∧
      (parseToken unread).1.1 = .eof ∧
      ∀ words : List Text, words ≠ [] →
        Derives (words.map .word ++ lexemesOf results)
          (.mk (.mk (words ++ others) childBlock :: statements)) := by
  obtain ⟨tree, parsed⟩ := accepted
  obtain ⟨results, unread, lexes, final, derivation⟩ := parse_accepts parsed
  have word : parseToken ('b' :: (" \x7b".toList ++ block ++ "\x7d".toList)) =
      ((.normal, ['b']), " \x7b".toList ++ block ++ "\x7d".toList) := rfl
  cases lexes with
  | nil =>
      rw [word] at final
      contradiction
  | cons head tail =>
      obtain ⟨called, _⟩ := head
      rw [word] at called
      cases called
      rw [lexemesOf_cons_lexeme rfl] at derivation
      obtain ⟨others, childBlock, statements, derives⟩ := derivation.replaceWord
      exact ⟨_, unread, others, childBlock, statements, tail, final, derives⟩

/-- A location is accepted whichever way the lexer comes by the token of its
path. -/
theorem parse_locationText {block : Text} (accepted : AcceptedInside block)
    (type : HandlerType) :
    ∃ others childBlock statements, ∀ writtenPath token : Text,
      (∀ rest, parseToken (writtenPath ++ ' ' :: rest) =
        ((.normal, token), ' ' :: rest)) →
      parse (locationText writtenPath type block) (.mk []) =
        .returned true (.mk (.mk ("location".toList :: token :: type.name ::
          others) childBlock :: statements)) := by
  obtain ⟨results, unread, others, childBlock, statements, lexes, final,
    derives⟩ := accepted.lexes
  refine ⟨others, childBlock, statements, fun writtenPath token reads => ?_⟩
  have words : Lexes (locationText writtenPath type block)
      ((.normal, "location".toList) :: (.normal, token) ::
        (.normal, type.name) :: results) unread := by
    have keyword : isPlainToken "location".toList = true := by decide
    refine .cons ⟨parseToken_plain keyword rfl _, rfl⟩ ?_
    refine .cons ⟨(parseToken_blank rfl _).trans (reads _), rfl⟩ ?_
    refine .cons ⟨(parseToken_blank rfl _).trans ?_, rfl⟩ lexes
    exact parseToken_plain (isPlainToken_name type) rfl _
  have derivation := derives ["location".toList, token, type.name] nofun
  exact parse_derived words final derivation

/-! What each way of writing the path gives for its token. -/

theorem parseToken_path {path : Text} (isPath : IsPathText path)
    (rest : Text) :
    parseToken (path ++ ' ' :: rest) = ((.normal, path), ' ' :: rest) := by
  obtain ⟨nonempty, characters⟩ := isPath
  apply parseToken_plain _ rfl
  cases path with
  | nil => contradiction
  | cons first path =>
      obtain ⟨_, hash, double, single⟩ := characters first List.mem_cons_self
      have plain : ∀ c ∈ first :: path, isPlainChar c = true :=
        fun c member => (characters c member).1
      simp only [isPlainToken, hash, double, single, ne_eq, not_false_eq_true,
        decide_true, Bool.and_self, Bool.true_and, List.all_eq_true]
      exact plain

theorem IsPathText.noBackslash {path : Text} (isPath : IsPathText path)
    {c : Char} (member : c ∈ path) : c ≠ '\\' := by
  have plain := (isPath.2 c member).1
  rintro rfl
  contradiction

theorem parseToken_doubleQuotedPath {path : Text} (isPath : IsPathText path)
    (rest : Text) :
    parseToken (doubleQuoted path ++ ' ' :: rest) =
      ((.normal, path), ' ' :: rest) := by
  have unchanged : escapeQuotes path = path :=
    escapeQuotes_of_noQuote fun c member => (isPath.2 c member).2.2.1
  have noBackslash : path.getLast? ≠ some '\\' := fun final =>
    isPath.noBackslash (List.mem_of_getLast? final) rfl
  have ends : endsQuoted ' ' = true := rfl
  have read := parseToken_escapeQuotes noBackslash ends rest
  rw [unchanged] at read
  rw [doubleQuoted, List.cons_append, List.append_assoc]
  exact read

theorem parseToken_singleQuotedPath {path : Text} (isPath : IsPathText path)
    (rest : Text) :
    parseToken (singleQuoted path ++ ' ' :: rest) =
      ((.normal, singleQuoted path), ' ' :: rest) := by
  rw [singleQuoted, List.cons_append, List.append_assoc]
  exact parseToken_singleQuoted (fun c member =>
    ⟨(isPath.2 c member).2.2.2, isPath.noBackslash member⟩) rfl rest

/-! The three ways of writing the path. -/

/-- All three are accepted, and make the same tokens. -/
def QuotesIrrelevant (path : Text) (type : HandlerType) (block : Text) : Prop :=
  ∃ plain double single : NginxConfig,
    parse (locationText path type block) (.mk []) = .returned true plain ∧
    parse (locationText (doubleQuoted path) type block) (.mk []) =
      .returned true double ∧
    parse (locationText (singleQuoted path) type block) (.mk []) =
      .returned true single ∧
    double.statements.map NginxConfigStatement.tokens =
      plain.statements.map NginxConfigStatement.tokens ∧
    single.statements.map NginxConfigStatement.tokens =
      plain.statements.map NginxConfigStatement.tokens

/-- All three are accepted and double quotes make no difference, but single quotes
become a part of the path. -/
theorem parse_quotedPath {path block : Text} (isPath : IsPathText path)
    (type : HandlerType) (accepted : AcceptedInside block) :
    ∃ others childBlock statements,
      let config (token : Text) : NginxConfig :=
        .mk (.mk ("location".toList :: token :: type.name :: others)
          childBlock :: statements)
      parse (locationText path type block) (.mk []) =
        .returned true (config path) ∧
      parse (locationText (doubleQuoted path) type block) (.mk []) =
        .returned true (config path) ∧
      parse (locationText (singleQuoted path) type block) (.mk []) =
        .returned true (config (singleQuoted path)) := by
  obtain ⟨others, childBlock, statements, parses⟩ :=
    parse_locationText accepted type
  exact ⟨others, childBlock, statements,
    parses _ _ (parseToken_path isPath),
    parses _ _ (parseToken_doubleQuotedPath isPath),
    parses _ _ (parseToken_singleQuotedPath isPath)⟩

theorem singleQuoted_ne (path : Text) : singleQuoted path ≠ path := by
  intro equal
  have lengths := congrArg List.length equal
  simp only [singleQuoted, List.length_cons, List.length_append,
    List.length_nil] at lengths
  omega

/-- Single quotes around the path always change its token. -/
theorem not_quotesIrrelevant {path block : Text} (isPath : IsPathText path)
    (type : HandlerType) (accepted : AcceptedInside block) :
    ¬ QuotesIrrelevant path type block := by
  rintro ⟨plain, double, single, parsedPlain, _, parsedSingle, _, same⟩
  obtain ⟨others, childBlock, statements, builtPlain, _, builtSingle⟩ :=
    parse_quotedPath isPath type accepted
  rw [builtPlain] at parsedPlain
  rw [builtSingle] at parsedSingle
  cases parsedPlain
  cases parsedSingle
  simp only [NginxConfig.statements_mk, List.map_cons,
    NginxConfigStatement.tokens_mk, List.cons.injEq, true_and, and_true] at same
  exact singleQuoted_ne path same

theorem not_quotesIrrelevant_static :
    ¬ QuotesIrrelevant "/static".toList .fileHandler "root /bar;".toList := by
  have isPath : IsPathText "/static".toList := by decide
  exact not_quotesIrrelevant isPath .fileHandler ⟨_, rfl⟩

/-- The path of an echo location keeps its single quotes. -/
theorem parse_singleQuotedEcho :
    parse (locationText (singleQuoted "/echo".toList) .echoHandler [])
        (.mk []) =
      .returned true (.mk [.mk ["location".toList, "'/echo'".toList,
        "EchoHandler".toList] (some (.mk []))]) ∧
    ¬ QuotesIrrelevant "/echo".toList .echoHandler [] := by
  have built : parse (locationText (singleQuoted "/echo".toList) .echoHandler [])
        (.mk []) =
      .returned true (.mk [.mk ["location".toList, "'/echo'".toList,
        "EchoHandler".toList] (some (.mk []))]) := rfl
  refine ⟨built, ?_⟩
  rintro ⟨plain, _, single, parsedPlain, _, parsedSingle, _, same⟩
  have builtPlain : parse (locationText "/echo".toList .echoHandler [])
      (.mk []) =
    .returned true (.mk [.mk ["location".toList, "/echo".toList,
      "EchoHandler".toList] (some (.mk []))]) := rfl
  rw [builtPlain] at parsedPlain
  rw [built] at parsedSingle
  cases parsedPlain
  cases parsedSingle
  contradiction

end HttpsServer.Dispatch
