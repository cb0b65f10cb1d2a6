import HttpsServer.Config.RoundTrip

namespace HttpsServer.Config

open HttpsServer.Data

/-! Words that are searched for in the printed statements. -/

mutual
/-- Every statement, each before those of its block. -/
def NginxConfig.allStatements : NginxConfig → List NginxConfigStatement
  | .mk statements => allStatementsOf statements

def allStatementsOf : List NginxConfigStatement → List NginxConfigStatement
  | [] => []
  | statement :: rest => statement.withNested ++ allStatementsOf rest

def NginxConfigStatement.withNested :
    NginxConfigStatement → List NginxConfigStatement
  | .mk tokens none => [.mk tokens none]
  | .mk tokens (some childBlock) =>
      .mk tokens (some childBlock) :: childBlock.allStatements
end

def isMark (c : Char) : Bool :=
  c = ' ' || c = ';' || c = '{' || c = '}' || c = '\n'

/-- Nothing that is printed around the tokens is part of the word. -/
structure IsKeyword (keyword : Text) : Prop where
  nonempty : keyword ≠ []
  unmarked : ∀ c ∈ keyword, isMark c = false

theorem isKeyword_of_all {keyword : Text} (nonempty : keyword ≠ [])
    (unmarked : keyword.all (fun c => !isMark c) = true) : IsKeyword keyword := by
  refine ⟨nonempty, fun c member => ?_⟩
  simpa using List.all_eq_true.mp unmarked c member

theorem IsKeyword.outside {keyword : Text} (isKeyword : IsKeyword keyword)
    {c : Char} (mark : isMark c = true) : c ∉ keyword := by
  intro member
  rw [isKeyword.unmarked c member] at mark
  contradiction

theorem IsKeyword.infix_marks {keyword : Text} (isKeyword : IsKeyword keyword)
    {marks : Text} (marked : marks.all isMark = true) (after : Text) :
    keyword <:+: marks ++ after ↔ keyword <:+: after :=
  Text.infix_append_of_outside isKeyword.nonempty (fun c member =>
    isKeyword.outside (List.all_eq_true.mp marked c member)) after

theorem isMark_indentation (depth : Nat) :
    (indentation depth).all isMark = true := by
  induction depth with
  | zero => rfl
  | succ depth induction => exact induction

/-- A token of the statement has the keyword in it. -/
def NginxConfigStatement.mentions (keyword : Text)
    (statement : NginxConfigStatement) : Bool :=
  statement.tokens.any fun token => (Text.find keyword token).isSome

theorem joinTokens_cons_cons (first second : Text) (rest : List Text) :
    joinTokens (first :: second :: rest) =
      first ++ ' ' :: joinTokens (second :: rest) := by
  simp [joinTokens]

theorem IsKeyword.infix_joinTokens {keyword : Text}
    (isKeyword : IsKeyword keyword) (tokens : List Text) :
    keyword <:+: joinTokens tokens ↔ ∃ token ∈ tokens, keyword <:+: token := by
  induction tokens with
  | nil => simp [joinTokens, isKeyword.nonempty]
  | cons first rest induction =>
      cases rest with
      | nil => simp [joinTokens]
      | cons second rest =>
          rw [joinTokens_cons_cons, Text.infix_append_cons isKeyword.nonempty
            (isKeyword.outside rfl), induction]
          simp

theorem NginxConfigStatement.mentions_iff (keyword : Text)
    (statement : NginxConfigStatement) :
    statement.mentions keyword = true ↔
      ∃ token ∈ statement.tokens, keyword <:+: token := by
  rw [NginxConfigStatement.mentions, List.any_eq_true]
  simp only [Text.find_isSome]

mutual
theorem IsKeyword.infix_statements {keyword : Text}
    (isKeyword : IsKeyword keyword) (depth : Nat) :
    ∀ (statements : List NginxConfigStatement) (after : Text),
      keyword <:+: statementsToString depth statements ++ after ↔
        (∃ statement ∈ allStatementsOf statements,
          statement.mentions keyword = true) ∨ keyword <:+: after
  | [], _ => by simp [statementsToString, allStatementsOf]
  | statement :: rest, after => by
      rw [statementsToString, List.append_assoc,
        isKeyword.infix_statement depth statement,
        isKeyword.infix_statements depth rest after, allStatementsOf,
        ← or_assoc]
      simp only [List.mem_append, or_and_right, exists_or]

theorem IsKeyword.infix_statement {keyword : Text}
    (isKeyword : IsKeyword keyword) (depth : Nat) :
    ∀ (statement : NginxConfigStatement) (after : Text),
      keyword <:+: statement.toString depth ++ after ↔
        (∃ nested ∈ statement.withNested, nested.mentions keyword = true) ∨
          keyword <:+: after
  | .mk tokens none, after => by
      have printed :
          (NginxConfigStatement.mk tokens none).toString depth ++ after =
            indentation depth ++
              (joinTokens tokens ++ ';' :: ("\n".toList ++ after)) := by
        simp [NginxConfigStatement.toString]
      rw [printed, isKeyword.infix_marks (isMark_indentation depth),
        Text.infix_append_cons isKeyword.nonempty (isKeyword.outside rfl),
        isKeyword.infix_marks rfl, isKeyword.infix_joinTokens,
        NginxConfigStatement.withNested]
      simp [NginxConfigStatement.mentions_iff]
  | .mk tokens (some (.mk inner)), after => by
      have printed : (NginxConfigStatement.mk tokens
            (some (.mk inner))).toString depth ++ after =
          indentation depth ++ (joinTokens tokens ++ ' ' ::
            ("\x7b\n".toList ++ (statementsToString (depth + 1) inner ++
              (indentation depth ++ ("\x7d\n".toList ++ after))))) := by
        simp [NginxConfigStatement.toString, NginxConfig.toString]
      rw [printed, isKeyword.infix_marks (isMark_indentation depth),
        Text.infix_append_cons isKeyword.nonempty (isKeyword.outside rfl),
        isKeyword.infix_marks rfl, isKeyword.infix_statements (depth + 1) inner,
        isKeyword.infix_marks (isMark_indentation depth),
        isKeyword.infix_marks rfl, isKeyword.infix_joinTokens,
        NginxConfigStatement.withNested, NginxConfig.allStatements, ← or_assoc]
      simp [NginxConfigStatement.mentions_iff]
end

theorem IsKeyword.infix_toString {keyword : Text}
    (isKeyword : IsKeyword keyword) (statement : NginxConfigStatement) :
    keyword <:+: statement.toString 0 ↔
      ∃ nested ∈ statement.withNested, nested.mentions keyword = true := by
  have within := isKeyword.infix_statement 0 statement []
  rw [List.append_nil] at within
  rw [within, List.infix_nil]
  exact or_iff_left isKeyword.nonempty

end HttpsServer.Config
