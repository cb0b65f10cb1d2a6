import HttpsServer.Config.Lexing

namespace HttpsServer.Config

open HttpsServer.Data

/-! What `Parse` leaves in its out-parameter, which need not be empty. -/

namespace Draft

/-- Reads as many lexemes as it can; with the ones that are left. -/
def readAll (draft : Draft) : List Lexeme → Draft × List Lexeme
  | [] => (draft, [])
  | lexeme :: rest =>
      match draft.read lexeme with
      | none => (draft, lexeme :: rest)
      | some next => next.readAll rest

theorem readAll_rejected {draft : Draft} {lexeme : Lexeme} (rest : List Lexeme)
    (rejected : draft.read lexeme = none) :
    draft.readAll (lexeme :: rest) = (draft, lexeme :: rest) := by
  rw [readAll, rejected]

theorem readAll_accepted {draft next : Draft} {lexeme : Lexeme}
    (rest : List Lexeme) (accepted : draft.read lexeme = some next) :
    draft.readAll (lexeme :: rest) = next.readAll rest := by
  rw [readAll, accepted]

/-- What is read is a prefix of the lexemes, and cannot be continued. -/
theorem readAll_spec (draft : Draft) (lexemes : List Lexeme) :
    ∃ read, lexemes = read ++ (draft.readAll lexemes).2 ∧
      draft.Reads read (draft.readAll lexemes).1 ∧
      ∀ lexeme ∈ (draft.readAll lexemes).2.head?,
        (draft.readAll lexemes).1.read lexeme = none := by
  induction lexemes generalizing draft with
  | nil => exact ⟨[], rfl, .nil draft, nofun⟩
  | cons lexeme rest induction =>
      cases step : draft.read lexeme with
      | none =>
          rw [readAll_rejected rest step]
          refine ⟨[], rfl, .nil draft, ?_⟩
          intro other isHead
          cases isHead
          exact step
      | some next =>
          rw [readAll_accepted rest step]
          obtain ⟨read, split, reads, stopped⟩ := induction next
          exact ⟨lexeme :: read, congrArg (lexeme :: ·) split,
            .cons step reads, stopped⟩

/-! The same draft, with more statements in front of it. -/

def framesBehind (statements : List NginxConfigStatement) :
    List Frame → List Frame
  | [] => []
  | [frame] => [{ frame with before := statements ++ frame.before }]
  | frame :: outer :: frames => frame :: framesBehind statements (outer :: frames)

def behind (statements : List NginxConfigStatement) (draft : Draft) : Draft :=
  { draft with
    frames := framesBehind statements draft.frames
    statements :=
      if draft.frames = [] then statements ++ draft.statements
      else draft.statements }

theorem framesBehind_eq_nil {statements : List NginxConfigStatement}
    {frames : List Frame} :
    framesBehind statements frames = [] ↔ frames = [] := by
  match frames with
  | [] => simp [framesBehind]
  | [frame] => simp [framesBehind]
  | frame :: outer :: frames => simp [framesBehind]

theorem plug_framesBehind (statements : List NginxConfigStatement) :
    (inner : List NginxConfigStatement) → (frames : List Frame) → frames ≠ [] →
    plug (framesBehind statements frames) inner =
      .mk (statements ++ (plug frames inner).statements)
  | _, [], opened => absurd rfl opened
  | inner, [frame], _ => by
      simp [framesBehind, plug]
  | inner, frame :: outer :: frames, _ =>
      plug_framesBehind statements _ (outer :: frames) (List.cons_ne_nil _ _)

theorem config_behind (statements : List NginxConfigStatement) (draft : Draft) :
    (draft.behind statements).config =
      .mk (statements ++ draft.config.statements) := by
  rw [config, config, behind]
  by_cases closed : draft.frames = []
  · rw [if_pos closed, closed, List.append_assoc]
    rfl
  · rw [if_neg closed]
    exact plug_framesBehind statements _ draft.frames closed

theorem complete_behind {statements : List NginxConfigStatement}
    {draft : Draft} :
    (draft.behind statements).Complete ↔ draft.Complete := by
  rw [Complete, Complete, behind, framesBehind_eq_nil]

theorem read_behind (statements : List NginxConfigStatement) (draft : Draft)
    (lexeme : Lexeme) :
    (draft.behind statements).read lexeme =
      (draft.read lexeme).map (behind statements) := by
  obtain ⟨frames, before, words⟩ := draft
  cases lexeme with
  | word token => rfl
  | semicolon =>
      by_cases noWords : words = []
      · simp [read, behind, noWords]
      · by_cases closed : frames = []
        · simp [read, behind, noWords, closed]
        · simp [read, behind, noWords, closed]
  | openBrace =>
      by_cases noWords : words = []
      · simp [read, behind, noWords]
      · cases frames with
        | nil => simp [read, behind, noWords, framesBehind]
        | cons frame frames => simp [read, behind, noWords, framesBehind]
  | closeBrace =>
      match frames with
      | [] => rfl
      | [frame] =>
          by_cases noWords : words = []
          · simp [read, behind, noWords, framesBehind]
          · simp [read, behind, noWords, framesBehind]
      | frame :: outer :: frames =>
          by_cases noWords : words = []
          · simp [read, behind, noWords, framesBehind]
          · simp [read, behind, noWords, framesBehind]

theorem readAll_behind (statements : List NginxConfigStatement) (draft : Draft)
    (lexemes : List Lexeme) :
    (draft.behind statements).readAll lexemes =
      ((draft.readAll lexemes).1.behind statements,
        (draft.readAll lexemes).2) := by
  induction lexemes generalizing draft with
  | nil => rfl
  | cons lexeme rest induction =>
      have step := read_behind statements draft lexeme
      cases own : draft.read lexeme with
      | none =>
          rw [own] at step
          rw [readAll_rejected rest own, readAll_rejected rest step]
      | some next =>
          rw [own] at step
          rw [readAll_accepted rest own, readAll_accepted rest step]
          exact induction next

end Draft

/-! The parser's loop over lexer results. -/

theorem parseLoop_readAll {state : ParseState} {draft : Draft}
    (represents : state.Represents draft) {body : List TokenResult}
    (bodyResults : ∀ result ∈ body, isBodyResult result = true)
    {last : TokenResult} (final : last.1 = .eof ∨ last.1 = .error) :
    parseLoop nextResult (body.length + 1) (body ++ [last]) state =
      .returned (decide ((draft.readAll (lexemesOf body)).2 = [] ∧
          last.1 = .eof ∧ (draft.readAll (lexemesOf body)).1.Complete))
        (draft.readAll (lexemesOf body)).1.config := by
  induction body generalizing state draft with
  | nil =>
      obtain ⟨tokenType, value⟩ := last
      rw [List.nil_append, List.length_nil, parseLoop_succ]
      rcases final with rfl | rfl
      · simp only [nextResult, represents.endOfFile value, represents.config]
        simp [lexemesOf, Draft.readAll]
      · simp [nextResult, parseStep, represents.config, lexemesOf,
          Draft.readAll]
  | cons result body induction =>
      have restResults : ∀ result ∈ body, isBodyResult result = true :=
        fun other member => bodyResults other (List.mem_cons_of_mem _ member)
      rw [parseLoop_cons]
      rcases isBodyResult_cases (bodyResults result List.mem_cons_self) with
        ⟨value, rfl⟩ | ⟨lexeme, isLexeme⟩
      · rw [lexemesOf_cons_comment]
        exact induction represents restResults
      · rw [lexemesOf_cons_lexeme isLexeme]
        cases step : draft.read lexeme with
        | none =>
            rw [represents.rejects isLexeme step,
              Draft.readAll_rejected _ step, represents.config]
            simp
        | some next =>
            obtain ⟨after, stepped, afterRepresents⟩ :=
              represents.accepts isLexeme step
            rw [stepped, Draft.readAll_accepted _ step]
            exact induction afterRepresents restResults

/-- For every input there are the lexemes that it is read as, up to its end or a
token that is none. `Parse` appends what they say to the statements that are there,
up to the first lexeme that cannot follow, and returns true exactly when there is
no such lexeme, the input has come to its end, and nothing is left open. -/
theorem parse_readAll (input : Text) :
    ∃ results unread, Lexes input results unread ∧
      ((parseToken unread).1.1 = .eof ∨ (parseToken unread).1.1 = .error) ∧
      ∃ read rest draft, lexemesOf results = read ++ rest ∧
        Draft.empty.Reads read draft ∧
        (∀ lexeme ∈ rest.head?, draft.read lexeme = none) ∧
        ∀ statements, parse input (.mk statements) =
          .returned (decide (rest = [] ∧ (parseToken unread).1.1 = .eof ∧
            draft.Complete)) (.mk (statements ++ draft.config.statements)) := by
  obtain ⟨results, unread, lexes, final⟩ := lexes_exists input
  obtain ⟨read, split, reads, stopped⟩ :=
    Draft.empty.readAll_spec (lexemesOf results)
  refine ⟨results, unread, lexes, final, read, _, _, split, reads, stopped, ?_⟩
  intro statements
  have start : (⟨[], statements, []⟩ : Draft) =
      Draft.empty.behind statements := by
    simp [Draft.behind, Draft.empty, Draft.framesBehind]
  have represents := ParseState.represents_start statements
  rw [start] at represents
  rw [parse_eq_parseResults lexes final, parseResults, List.length_append,
    List.length_singleton,
    parseLoop_readAll represents lexes.bodyResults final, Draft.readAll_behind]
  simp only [Draft.config_behind, Draft.complete_behind]

end HttpsServer.Config
