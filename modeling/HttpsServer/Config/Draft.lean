import HttpsServer.Config.Grammar
import HttpsServer.Config.Parse

namespace HttpsServer.Config

open HttpsServer.Data

/-! A config read up to some lexeme, cut along its open blocks. -/

/-- A statement whose block is open: its earlier siblings and its tokens. -/
structure Frame where
  before : List NginxConfigStatement
  tokens : List Text

/-- What has been read so far: the open statements, innermost first, then the
complete statements of the innermost block, then the words of an unfinished
statement. -/
structure Draft where
  frames : List Frame
  statements : List NginxConfigStatement
  words : List Text

namespace Draft

def empty : Draft := ⟨[], [], []⟩

/-- Reads one lexeme; `none` where no config continues this way. -/
def read (draft : Draft) : Lexeme → Option Draft
  | .word token => some { draft with words := draft.words ++ [token] }
  | .semicolon =>
      if draft.words = [] then none
      else some {
        frames := draft.frames
        statements := draft.statements ++ [.mk draft.words none]
        words := [] }
  | .openBrace =>
      if draft.words = [] then none
      else some {
        frames := ⟨draft.statements, draft.words⟩ :: draft.frames
        statements := []
        words := [] }
  | .closeBrace =>
      match draft.frames with
      | [] => none
      | frame :: frames =>
          if draft.words = [] then
            some {
              frames := frames
              statements := frame.before ++
                [.mk frame.tokens (some (.mk draft.statements))]
              words := [] }
          else none

def Complete (draft : Draft) : Prop :=
  draft.frames = [] ∧ draft.words = []

instance (draft : Draft) : Decidable draft.Complete :=
  inferInstanceAs (Decidable (draft.frames = [] ∧ draft.words = []))

abbrev Reads : Draft → List Lexeme → Draft → Prop :=
  Run fun draft lexeme next => draft.read lexeme = some next

theorem Reads.unique {draft left right : Draft} {lexemes : List Lexeme}
    (leftReads : Reads draft lexemes left)
    (rightReads : Reads draft lexemes right) : left = right := by
  apply leftReads.deterministic _ rightReads
  intro first lexeme left right leftStep rightStep
  exact Option.some.inj (leftStep.symm.trans rightStep)

/-! Soundness: the lexemes read are the lexemes of the draft. -/

def framesLexemes : List Frame → List Lexeme
  | [] => []
  | frame :: frames =>
      framesLexemes frames ++ statementLexemes frame.before ++
        frame.tokens.map .word ++ [.openBrace]

def lexemes (draft : Draft) : List Lexeme :=
  framesLexemes draft.frames ++ statementLexemes draft.statements ++
    draft.words.map .word

theorem read_lexemes {draft next : Draft} {lexeme : Lexeme}
    (step : draft.read lexeme = some next) :
    next.lexemes = draft.lexemes ++ [lexeme] := by
  cases lexeme with
  | word token =>
      cases step
      simp [lexemes]
  | semicolon =>
      simp only [read] at step
      split at step
      · cases step
      · cases step
        simp [lexemes, statementLexemes, NginxConfigStatement.lexemes]
  | openBrace =>
      simp only [read] at step
      split at step
      · cases step
      · cases step
        simp [lexemes, framesLexemes, statementLexemes]
  | closeBrace =>
      simp only [read] at step
      split at step
      · cases step
      next frame frames opened =>
        split at step
        next noWords =>
          cases step
          simp [lexemes, framesLexemes, statementLexemes, opened, noWords,
            NginxConfigStatement.lexemes, NginxConfig.lexemes]
        · cases step

theorem Reads.lexemes {draft next : Draft} {read : List Lexeme}
    (run : Reads draft read next) :
    next.lexemes = draft.lexemes ++ read := by
  induction run with
  | nil => simp
  | cons head _ induction => simp [induction, read_lexemes head]

/-! Every statement of a draft has a token, in whatever state it is. -/

structure Tokenized (draft : Draft) : Prop where
  frames : ∀ frame ∈ draft.frames,
    EveryStatement (· ≠ []) frame.before ∧ frame.tokens ≠ []
  statements : EveryStatement (· ≠ []) draft.statements

theorem tokenized_empty : empty.Tokenized :=
  ⟨by simp [empty], trivial⟩

theorem read_tokenized {draft next : Draft} {lexeme : Lexeme}
    (step : draft.read lexeme = some next) (tokenized : draft.Tokenized) :
    next.Tokenized := by
  cases lexeme with
  | word token =>
      cases step
      exact ⟨tokenized.frames, tokenized.statements⟩
  | semicolon =>
      simp only [read] at step
      split at step
      · cases step
      next someWords =>
        cases step
        refine ⟨tokenized.frames, ?_⟩
        exact (everyStatement_append _ _ _).mpr
          ⟨tokenized.statements, someWords, trivial⟩
  | openBrace =>
      simp only [read] at step
      split at step
      · cases step
      next someWords =>
        cases step
        refine ⟨?_, trivial⟩
        intro frame member
        rcases List.mem_cons.mp member with rfl | older
        · exact ⟨tokenized.statements, someWords⟩
        · exact tokenized.frames frame older
  | closeBrace =>
      simp only [read] at step
      split at step
      · cases step
      next frame frames opened =>
        split at step
        · cases step
          have frameTokenized := tokenized.frames frame (by simp [opened])
          refine ⟨?_, ?_⟩
          · intro older member
            exact tokenized.frames older (by simp [opened, member])
          · exact (everyStatement_append _ _ _).mpr
              ⟨frameTokenized.1,
                ⟨frameTokenized.2, tokenized.statements⟩, trivial⟩
        · cases step

theorem Reads.tokenized {draft next : Draft} {lexemes : List Lexeme}
    (run : Reads draft lexemes next) (tokenized : draft.Tokenized) :
    next.Tokenized :=
  run.preserves (fun step => read_tokenized step) tokenized

/-! Completeness: the lexemes of a tree are read back into the tree. -/

theorem reads_words (draft : Draft) (words : List Text) :
    Reads draft (words.map .word)
      { draft with words := draft.words ++ words } := by
  induction words generalizing draft with
  | nil => simpa using Run.nil draft
  | cons word words induction =>
      have first : draft.read (.word word) =
          some { draft with words := draft.words ++ [word] } := rfl
      refine .cons first ?_
      simpa using induction { draft with words := draft.words ++ [word] }

mutual
theorem reads_statements (frames : List Frame) :
    (before statements : List NginxConfigStatement) →
    EveryStatement (· ≠ []) statements →
    Reads ⟨frames, before, []⟩ (statementLexemes statements)
      ⟨frames, before ++ statements, []⟩
  | before, [], _ => by simpa [statementLexemes] using Run.nil _
  | before, statement :: rest, tokenized => by
      have first := reads_statement frames before statement tokenized.1
      have others := reads_statements frames (before ++ [statement]) rest
        tokenized.2
      simpa [statementLexemes] using first.append others

theorem reads_statement (frames : List Frame)
    (before : List NginxConfigStatement) :
    (statement : NginxConfigStatement) → statement.Every (· ≠ []) →
    Reads ⟨frames, before, []⟩ statement.lexemes
      ⟨frames, before ++ [statement], []⟩
  | .mk tokens none, tokenized => by
      have nonempty : tokens ≠ [] := tokenized
      refine (reads_words ⟨frames, before, []⟩ tokens).snoc ?_
      simp [read, nonempty]
  | .mk tokens (some (.mk inner)), tokenized => by
      have nonempty : tokens ≠ [] := tokenized.1
      have opened : Reads ⟨frames, before, []⟩
          (tokens.map .word ++ [.openBrace])
          ⟨⟨before, tokens⟩ :: frames, [], []⟩ := by
        refine (reads_words ⟨frames, before, []⟩ tokens).snoc ?_
        simp [read, nonempty]
      have filled := reads_statements (⟨before, tokens⟩ :: frames) [] inner
        tokenized.2
      refine (opened.append filled).snoc ?_
      simp [read]
end

/-- The abstract reader recognises the grammar and builds the derivation's tree. -/
theorem reads_iff_derives (lexemes : List Lexeme)
    (statements : List NginxConfigStatement) :
    Reads empty lexemes ⟨[], statements, []⟩ ↔
      Derives lexemes (.mk statements) := by
  rw [derives_iff]
  constructor
  · intro run
    refine ⟨?_, (run.tokenized tokenized_empty).statements⟩
    simpa [Draft.lexemes, framesLexemes, empty, statementLexemes,
      NginxConfig.lexemes] using run.lexemes
  · rintro ⟨rfl, tokenized⟩
    exact reads_statements [] [] statements tokenized

end Draft

end HttpsServer.Config
