import HttpsServer.Config.Token

namespace HttpsServer.Config

open HttpsServer.Data

/-! The language of config files, as a grammar over lexemes. -/

inductive Lexeme where
  | word (token : Text)
  | semicolon
  | openBrace
  | closeBrace
  deriving DecidableEq

mutual
/-- `config := statement*`, with the tree that the derivation builds. -/
inductive Derives : List Lexeme → NginxConfig → Prop
  | nil : Derives [] (.mk [])
  | cons {head tail : List Lexeme} {statement : NginxConfigStatement}
      {statements : List NginxConfigStatement}
      (first : DerivesStatement head statement)
      (rest : Derives tail (.mk statements)) :
      Derives (head ++ tail) (.mk (statement :: statements))

/-- `statement := word+ ';' | word+ '{' config '}'`. -/
inductive DerivesStatement : List Lexeme → NginxConfigStatement → Prop
  | simple {words : List Text} (nonempty : words ≠ []) :
      DerivesStatement (words.map .word ++ [.semicolon]) (.mk words none)
  | block {words : List Text} {lexemes : List Lexeme} {config : NginxConfig}
      (nonempty : words ≠ []) (inner : Derives lexemes config) :
      DerivesStatement
        (words.map .word ++ [.openBrace] ++ lexemes ++ [.closeBrace])
        (.mk words (some config))
end

/-! The lexemes of a tree. -/

mutual
def NginxConfig.lexemes : NginxConfig → List Lexeme
  | .mk statements => statementLexemes statements

def statementLexemes : List NginxConfigStatement → List Lexeme
  | [] => []
  | statement :: rest => statement.lexemes ++ statementLexemes rest

def NginxConfigStatement.lexemes : NginxConfigStatement → List Lexeme
  | .mk tokens none => tokens.map .word ++ [.semicolon]
  | .mk tokens (some childBlock) =>
      tokens.map .word ++ [.openBrace] ++ childBlock.lexemes ++ [.closeBrace]
end

@[simp] theorem statementLexemes_append
    (left right : List NginxConfigStatement) :
    statementLexemes (left ++ right) =
      statementLexemes left ++ statementLexemes right := by
  induction left with
  | nil => rfl
  | cons statement rest induction =>
      simp only [List.cons_append, statementLexemes, induction,
        List.append_assoc]

mutual
theorem Derives.tree {lexemes : List Lexeme} {config : NginxConfig}
    (derivation : Derives lexemes config) :
    config.lexemes = lexemes ∧ config.Tokenized := by
  cases derivation with
  | nil => exact ⟨rfl, trivial⟩
  | cons first rest =>
      obtain ⟨firstLexemes, firstTokenized⟩ := first.tree
      obtain ⟨restLexemes, restTokenized⟩ := rest.tree
      simp only [NginxConfig.lexemes] at restLexemes
      refine ⟨?_, firstTokenized, restTokenized⟩
      simp only [NginxConfig.lexemes, statementLexemes, firstLexemes,
        restLexemes]

theorem DerivesStatement.tree {lexemes : List Lexeme}
    {statement : NginxConfigStatement}
    (derivation : DerivesStatement lexemes statement) :
    statement.lexemes = lexemes ∧ statement.Every (· ≠ []) := by
  cases derivation with
  | simple nonempty => exact ⟨rfl, nonempty⟩
  | block nonempty inner =>
      obtain ⟨innerLexemes, innerTokenized⟩ := inner.tree
      exact ⟨by simp only [NginxConfigStatement.lexemes, innerLexemes],
        nonempty, innerTokenized⟩
end

mutual
theorem NginxConfig.derives :
    (config : NginxConfig) → config.Tokenized → Derives config.lexemes config
  | .mk statements, tokenized => statementsDerive statements tokenized

theorem statementsDerive :
    (statements : List NginxConfigStatement) →
    EveryStatement (· ≠ []) statements →
    Derives (statementLexemes statements) (.mk statements)
  | [], _ => .nil
  | statement :: rest, tokenized =>
      .cons (statement.derives tokenized.1)
        (statementsDerive rest tokenized.2)

theorem NginxConfigStatement.derives :
    (statement : NginxConfigStatement) → statement.Every (· ≠ []) →
    DerivesStatement statement.lexemes statement
  | .mk _ none, tokenized => .simple tokenized
  | .mk _ (some childBlock), tokenized =>
      .block tokenized.1 (childBlock.derives tokenized.2)
end

/-- A derivation is the same thing as a tree with these lexemes and a first
token in every statement. -/
theorem derives_iff (lexemes : List Lexeme) (config : NginxConfig) :
    Derives lexemes config ↔ config.lexemes = lexemes ∧ config.Tokenized := by
  constructor
  · exact Derives.tree
  · rintro ⟨rfl, tokenized⟩
    exact config.derives tokenized

theorem Derives.replaceWord {first : Text} {lexemes : List Lexeme}
    {tree : NginxConfig} (derivation : Derives (.word first :: lexemes) tree) :
    ∃ others childBlock statements, ∀ words : List Text, words ≠ [] →
      Derives (words.map .word ++ lexemes)
        (.mk (.mk (words ++ others) childBlock :: statements)) := by
  obtain ⟨statements⟩ := tree
  obtain ⟨same, tokenized⟩ := (derives_iff _ _).mp derivation
  match statements, same, tokenized with
  | .mk (token :: others) none :: statements, same, tokenized =>
      refine ⟨others, none, statements, fun words nonempty => ?_⟩
      refine (derives_iff _ _).mpr
        ⟨?_, List.append_ne_nil_of_left_ne_nil nonempty _, tokenized.2⟩
      have rest := List.tail_eq_of_cons_eq same
      simp only [NginxConfig.lexemes, statementLexemes,
        NginxConfigStatement.lexemes, List.map_append, List.append_assoc]
      rw [← rest]
      simp
  | .mk (token :: others) (some childBlock) :: statements, same, tokenized =>
      refine ⟨others, some childBlock, statements, fun words nonempty => ?_⟩
      refine (derives_iff _ _).mpr
        ⟨?_, ⟨List.append_ne_nil_of_left_ne_nil nonempty _, tokenized.1.2⟩,
          tokenized.2⟩
      have rest := List.tail_eq_of_cons_eq same
      simp only [NginxConfig.lexemes, statementLexemes,
        NginxConfigStatement.lexemes, List.map_append, List.append_assoc]
      rw [← rest]
      simp
  | .mk [] none :: _, _, tokenized => exact absurd rfl tokenized.1
  | .mk [] (some _) :: _, _, tokenized => exact absurd rfl tokenized.1.1

/-! Lexer results as lexemes; comments have none. -/

def lexeme? : TokenResult → Option Lexeme
  | (.normal, token) => some (.word token)
  | (.statementEnd, _) => some .semicolon
  | (.startBlock, _) => some .openBrace
  | (.endBlock, _) => some .closeBrace
  | _ => none

/-- The result of a call that neither ends nor fails the lexing: a word, one of
the three punctuation marks, or a comment. -/
def isBodyResult (result : TokenResult) : Bool :=
  result.1 = .comment || (lexeme? result).isSome

def lexemesOf (results : List TokenResult) : List Lexeme :=
  results.filterMap lexeme?

end HttpsServer.Config
