import HttpsServer.Config.Draft

namespace HttpsServer.Config

open HttpsServer.Data

/-! The parser's state as a draft: the tree is the draft plugged together, and
the pointers on the stack lead to its open blocks. -/

namespace Draft

def plug : List Frame → List NginxConfigStatement → NginxConfig
  | [], statements => .mk statements
  | frame :: frames, statements =>
      plug frames
        (frame.before ++ [.mk frame.tokens (some (.mk statements))])

def pointer : List Frame → ConfigPtr
  | [] => []
  | frame :: frames => pointer frames ++ [frame.before.length]

/-- The pointers to the open blocks, innermost first, and to the root. -/
def pointers : List Frame → List ConfigPtr
  | [] => [[]]
  | frame :: frames => pointer (frame :: frames) :: pointers frames

def openStatement (words : List Text) : List NginxConfigStatement :=
  if words = [] then [] else [.mk words none]

def config (draft : Draft) : NginxConfig :=
  plug draft.frames (draft.statements ++ openStatement draft.words)

theorem pointers_head (frames : List Frame) :
    (pointers frames).head? = some (pointer frames) := by
  cases frames <;> rfl

theorem deref_plug (frames : List Frame)
    (statements : List NginxConfigStatement) :
    (plug frames statements).deref (pointer frames) = some statements := by
  have descend : ∀ (inner : ConfigPtr) (statements : List NginxConfigStatement),
      (plug frames statements).deref (pointer frames ++ inner) =
        (NginxConfig.mk statements).deref inner := by
    induction frames with
    | nil => intro inner statements; rfl
    | cons frame frames induction =>
        intro inner statements
        simp only [plug, pointer, List.append_assoc, List.singleton_append]
        rw [induction]
        simp [NginxConfig.deref]
  simpa [NginxConfig.deref] using descend [] statements

theorem write_plug
    (change : List NginxConfigStatement → Option (List NginxConfigStatement))
    (frames : List Frame) (statements : List NginxConfigStatement) :
    (plug frames statements).write change (pointer frames) =
      (change statements).map (plug frames) := by
  induction frames generalizing statements change with
  | nil => rfl
  | cons frame frames induction =>
      simp only [plug, pointer]
      rw [NginxConfig.write_append, induction]
      simp only [NginxConfig.write, List.getElem?_append_right (Nat.le_refl _),
        Nat.sub_self, List.getElem?_cons_zero, Option.map_map]
      cases change statements with
      | none => rfl
      | some changed => simp

/-- The token types the parser can have accepted last in a draft. -/
def LastToken (draft : Draft) (last : TokenType) : Prop :=
  if draft.words ≠ [] then last = .normal
  else last = .statementEnd ∨ last = .endBlock ∨
    (last = .start ∧ draft.frames = []) ∨
    (last = .startBlock ∧ draft.frames ≠ [])

end Draft

structure ParseState.Represents (state : ParseState) (draft : Draft) : Prop where
  config : state.config = draft.config
  configStack : state.configStack = Draft.pointers draft.frames
  lastTokenType : draft.LastToken state.lastTokenType
  bracketStack :
    state.bracketStack = List.replicate draft.frames.length .startBlock

theorem ParseState.represents_start (statements : List NginxConfigStatement) :
    (ParseState.initial (.mk statements)).Represents ⟨[], statements, []⟩ where
  config := congrArg NginxConfig.mk (List.append_nil statements).symm
  configStack := rfl
  lastTokenType := .inr (.inr (.inl ⟨rfl, rfl⟩))
  bracketStack := rfl

theorem ParseState.represents_initial :
    (ParseState.initial (.mk [])).Represents Draft.empty :=
  ParseState.represents_start []

namespace ParseState.Represents

variable {state : ParseState} {draft : Draft}

theorem last_normal_iff (represents : state.Represents draft) :
    state.lastTokenType = .normal ↔ draft.words ≠ [] := by
  have last := represents.lastTokenType
  unfold Draft.LastToken at last
  split at last
  next someWords => simp [last, someWords]
  next noWords =>
    rcases last with last | last | ⟨last, _⟩ | ⟨last, _⟩ <;>
      simp [last, noWords]

theorem config_words (represents : state.Represents draft)
    (someWords : draft.words ≠ []) :
    state.config =
      Draft.plug draft.frames (draft.statements ++ [.mk draft.words none]) := by
  rw [represents.config, Draft.config, Draft.openStatement, if_neg someWords]

theorem config_noWords (represents : state.Represents draft)
    (noWords : draft.words = []) :
    state.config = Draft.plug draft.frames draft.statements := by
  rw [represents.config, Draft.config, Draft.openStatement, if_pos noWords,
    List.append_nil]

theorem top (represents : state.Represents draft) :
    state.configStack.head? = some (Draft.pointer draft.frames) := by
  rw [represents.configStack, Draft.pointers_head]

/-! What each kind of lexeme does to a state that stands for a draft. -/

theorem pushToken (represents : state.Represents draft) (token : Text) :
    state.pushToken token =
      some { draft with words := draft.words ++ [token] }.config := by
  unfold ParseState.pushToken
  rw [represents.top]
  by_cases noWords : draft.words = []
  · have last : state.lastTokenType ≠ .normal := fun normal =>
      represents.last_normal_iff.mp normal noWords
    simp [last, represents.config_noWords noWords, Draft.write_plug,
      emplaceStatement, NginxConfigStatement.pushToken, Draft.config,
      Draft.openStatement, noWords]
  · have last : state.lastTokenType = .normal :=
      represents.last_normal_iff.mpr noWords
    simp [last, represents.config_words noWords, Draft.write_plug,
      NginxConfigStatement.pushToken, Draft.config, Draft.openStatement]

theorem pushBlock (represents : state.Represents draft)
    (someWords : draft.words ≠ []) :
    state.pushBlock =
      some (Draft.plug (⟨draft.statements, draft.words⟩ :: draft.frames) [],
        Draft.pointer (⟨draft.statements, draft.words⟩ :: draft.frames)) := by
  unfold ParseState.pushBlock
  rw [represents.top]
  simp [represents.config_words someWords, Draft.write_plug,
    NginxConfigStatement.resetChildBlock, Draft.deref_plug, Draft.plug,
    Draft.pointer]

theorem word (represents : state.Represents draft) (token : Text) :
    ∃ next, parseStep state .normal token = .again next ∧
      next.Represents { draft with words := draft.words ++ [token] } := by
  have accepted : state.lastTokenType = .start ∨
      state.lastTokenType = .statementEnd ∨
      state.lastTokenType = .startBlock ∨
      state.lastTokenType = .endBlock ∨
      state.lastTokenType = .normal := by
    have last := represents.lastTokenType
    unfold Draft.LastToken at last
    split at last
    · simp [last]
    · rcases last with last | last | ⟨last, _⟩ | ⟨last, _⟩ <;> simp [last]
  simp only [parseStep, if_pos accepted, represents.pushToken token]
  exact ⟨_, rfl, {
    config := rfl
    configStack := represents.configStack
    lastTokenType := by simp [Draft.LastToken]
    bracketStack := represents.bracketStack }⟩

theorem semicolon (represents : state.Represents draft) (token : Text)
    (someWords : draft.words ≠ []) :
    ∃ next, parseStep state .statementEnd token = .again next ∧
      next.Represents {
        frames := draft.frames
        statements := draft.statements ++ [.mk draft.words none]
        words := [] } := by
  have last := represents.last_normal_iff.mpr someWords
  simp only [parseStep, last]
  exact ⟨_, rfl, {
    config := by
      simp [represents.config_words someWords, Draft.config,
        Draft.openStatement]
    configStack := represents.configStack
    lastTokenType := by simp [Draft.LastToken]
    bracketStack := represents.bracketStack }⟩

theorem openBrace (represents : state.Represents draft) (token : Text)
    (someWords : draft.words ≠ []) :
    ∃ next, parseStep state .startBlock token = .again next ∧
      next.Represents {
        frames := ⟨draft.statements, draft.words⟩ :: draft.frames
        statements := []
        words := [] } := by
  have last := represents.last_normal_iff.mpr someWords
  simp only [parseStep, last, represents.pushBlock someWords]
  exact ⟨_, rfl, {
    config := by simp [Draft.config, Draft.openStatement]
    configStack := by simp [represents.configStack, Draft.pointers]
    lastTokenType := by simp [Draft.LastToken]
    bracketStack := by
      simp [represents.bracketStack, List.replicate_succ] }⟩

theorem closeBrace (represents : state.Represents draft) (token : Text)
    {frame : Frame} {frames : List Frame}
    (opened : draft.frames = frame :: frames) (noWords : draft.words = []) :
    ∃ next, parseStep state .endBlock token = .again next ∧
      next.Represents {
        frames := frames
        statements := frame.before ++
          [.mk frame.tokens (some (.mk draft.statements))]
        words := [] } := by
  have accepted : ¬ (state.lastTokenType ≠ .statementEnd ∧
      state.lastTokenType ≠ .startBlock ∧
      state.lastTokenType ≠ .endBlock) := by
    have last := represents.lastTokenType
    simp only [Draft.LastToken, noWords, opened] at last
    rcases last with last | last | ⟨_, impossible⟩ | ⟨last, _⟩
    · simp [last]
    · simp [last]
    · cases impossible
    · simp [last]
  have configs := represents.configStack
  have brackets := represents.bracketStack
  simp only [opened, Draft.pointers] at configs
  simp only [opened, List.length_cons, List.replicate_succ] at brackets
  simp only [parseStep, if_neg accepted, configs, brackets]
  exact ⟨_, rfl, {
    config := by
      simp [represents.config_noWords noWords, opened, Draft.config,
        Draft.openStatement, Draft.plug]
    configStack := rfl
    lastTokenType := by simp [Draft.LastToken]
    bracketStack := rfl }⟩

theorem rejects (represents : state.Represents draft) {result : TokenResult}
    {lexeme : Lexeme} (isLexeme : lexeme? result = some lexeme)
    (unreadable : draft.read lexeme = none) :
    parseStep state result.1 result.2 = .leave false state.config := by
  obtain ⟨tokenType, token⟩ := result
  cases tokenType <;> simp only [lexeme?] at isLexeme <;> cases isLexeme
  case normal => cases unreadable
  case startBlock =>
    have noWords : draft.words = [] := by
      simpa [Draft.read] using unreadable
    have last : state.lastTokenType ≠ .normal := fun normal =>
      represents.last_normal_iff.mp normal noWords
    simp [parseStep, last]
  case statementEnd =>
    have noWords : draft.words = [] := by
      simpa [Draft.read] using unreadable
    have last : state.lastTokenType ≠ .normal := fun normal =>
      represents.last_normal_iff.mp normal noWords
    simp [parseStep, last]
  case endBlock =>
    simp only [Draft.read] at unreadable
    cases frames : draft.frames with
    | nil =>
        have configs := represents.configStack
        have brackets := represents.bracketStack
        rw [frames] at configs brackets
        simp only [Draft.pointers, List.length_nil, List.replicate_zero]
          at configs brackets
        simp [parseStep, configs, brackets]
    | cons frame outer =>
        have someWords : draft.words ≠ [] := by
          intro noWords
          simp [frames, noWords] at unreadable
        have last := represents.last_normal_iff.mpr someWords
        simp [parseStep, last]

theorem accepts (represents : state.Represents draft) {result : TokenResult}
    {lexeme : Lexeme} {next : Draft} (isLexeme : lexeme? result = some lexeme)
    (readable : draft.read lexeme = some next) :
    ∃ after, parseStep state result.1 result.2 = .again after ∧
      after.Represents next := by
  obtain ⟨tokenType, token⟩ := result
  cases tokenType <;> simp only [lexeme?] at isLexeme <;> cases isLexeme
  case normal =>
    cases readable
    exact represents.word token
  case startBlock =>
    simp only [Draft.read] at readable
    split at readable
    · cases readable
    next someWords =>
      cases readable
      exact represents.openBrace token someWords
  case statementEnd =>
    simp only [Draft.read] at readable
    split at readable
    · cases readable
    next someWords =>
      cases readable
      exact represents.semicolon token someWords
  case endBlock =>
    simp only [Draft.read] at readable
    split at readable
    · cases readable
    next frame frames opened =>
      split at readable
      next noWords =>
        cases readable
        exact represents.closeBrace token opened noWords
      · cases readable

theorem endOfFile (represents : state.Represents draft) (token : Text) :
    parseStep state .eof token =
      .leave (decide draft.Complete) state.config := by
  have last := represents.lastTokenType
  have brackets := represents.bracketStack
  unfold Draft.LastToken at last
  split at last
  next someWords =>
    simp [parseStep, last, Draft.Complete, someWords]
  next noWords =>
    cases frames : draft.frames with
    | nil =>
        rw [frames] at brackets
        rcases last with last | last | ⟨last, _⟩ | ⟨_, impossible⟩
        · simp_all [parseStep, Draft.Complete]
        · simp_all [parseStep, Draft.Complete]
        · simp_all [parseStep, Draft.Complete]
        · exact False.elim (impossible frames)
    | cons frame outer =>
        rw [frames] at brackets
        rcases last with last | last | ⟨_, impossible⟩ | ⟨last, _⟩
        · simp [parseStep, last, brackets, Draft.Complete, frames,
            List.replicate_succ]
        · simp [parseStep, last, brackets, Draft.Complete, frames,
            List.replicate_succ]
        · rw [frames] at impossible
          cases impossible
        · simp [parseStep, last, Draft.Complete, frames]

end ParseState.Represents

theorem Derives.unique {lexemes : List Lexeme} {left right : NginxConfig}
    (leftDerivation : Derives lexemes left)
    (rightDerivation : Derives lexemes right) : left = right := by
  obtain ⟨leftStatements⟩ := left
  obtain ⟨rightStatements⟩ := right
  rw [← Draft.reads_iff_derives] at leftDerivation rightDerivation
  have drafts := leftDerivation.unique rightDerivation
  exact congrArg NginxConfig.mk (congrArg Draft.statements drafts)

/-! Whole runs of the parser over a sequence of lexer results. -/

theorem lexemesOf_cons_lexeme {result : TokenResult} {lexeme : Lexeme}
    (isLexeme : lexeme? result = some lexeme) (rest : List TokenResult) :
    lexemesOf (result :: rest) = lexeme :: lexemesOf rest := by
  simp [lexemesOf, isLexeme]

theorem lexemesOf_cons_comment (value : Text) (rest : List TokenResult) :
    lexemesOf ((.comment, value) :: rest) = lexemesOf rest := rfl

theorem lexemesOf_append (left right : List TokenResult) :
    lexemesOf (left ++ right) = lexemesOf left ++ lexemesOf right :=
  List.filterMap_append

theorem isBodyResult_cases {result : TokenResult}
    (isBody : isBodyResult result = true) :
    (∃ value, result = (.comment, value)) ∨
      ∃ lexeme, lexeme? result = some lexeme := by
  obtain ⟨tokenType, value⟩ := result
  simp only [isBodyResult, Bool.or_eq_true, decide_eq_true_eq,
    Option.isSome_iff_exists] at isBody
  rcases isBody with rfl | isLexeme
  · exact .inl ⟨value, rfl⟩
  · exact .inr isLexeme

/-- On a word, a punctuation mark or a comment the parser goes on, or breaks off. -/
theorem ParseState.Represents.body {state : ParseState} {draft : Draft}
    (represents : state.Represents draft) {result : TokenResult}
    (isBody : isBodyResult result = true) :
    (∃ (after : ParseState) (next : Draft),
      parseStep state result.1 result.2 = .again after ∧
        after.Represents next ∧ (draft.Tokenized → next.Tokenized)) ∨
    parseStep state result.1 result.2 = .leave false state.config := by
  rcases isBodyResult_cases isBody with ⟨value, rfl⟩ | ⟨lexeme, isLexeme⟩
  · exact .inl ⟨state, draft, rfl, represents, id⟩
  · cases readable : draft.read lexeme with
    | none => exact .inr (represents.rejects isLexeme readable)
    | some next =>
        obtain ⟨after, stepped, afterRepresents⟩ :=
          represents.accepts isLexeme readable
        exact .inl ⟨after, next, stepped, afterRepresents,
          Draft.read_tokenized readable⟩

theorem parseLoop_cons (result : TokenResult) (body rest : List TokenResult)
    (calls : Nat) (state : ParseState) :
    parseLoop nextResult ((result :: body).length + calls)
        (result :: body ++ rest) state =
      match parseStep state result.1 result.2 with
      | .again state =>
          parseLoop nextResult (body.length + calls) (body ++ rest) state
      | .leave valid config => .returned valid config
      | .undefined => .undefined := by
  rw [List.length_cons, Nat.add_right_comm, parseLoop_succ]
  rfl

theorem parseLoop_reads {state : ParseState} {draft next : Draft}
    (represents : state.Represents draft) (body : List TokenResult)
    (bodyResults : ∀ result ∈ body, isBodyResult result = true)
    (reads : draft.Reads (lexemesOf body) next) :
    ∃ after : ParseState, after.Represents next ∧ ∀ calls rest,
      parseLoop nextResult (body.length + calls) (body ++ rest) state =
        parseLoop nextResult calls rest after := by
  induction body generalizing state draft with
  | nil =>
      cases reads
      exact ⟨state, represents, fun calls rest => by simp⟩
  | cons result body induction =>
      have restResults : ∀ result ∈ body, isBodyResult result = true :=
        fun other member => bodyResults other (List.mem_cons_of_mem _ member)
      rcases isBodyResult_cases (bodyResults result List.mem_cons_self) with
        ⟨value, rfl⟩ | ⟨lexeme, isLexeme⟩
      · rw [lexemesOf_cons_comment] at reads
        obtain ⟨after, afterRepresents, continued⟩ :=
          induction represents restResults reads
        refine ⟨after, afterRepresents, fun calls rest => ?_⟩
        rw [parseLoop_cons]
        exact continued calls rest
      · rw [lexemesOf_cons_lexeme isLexeme] at reads
        cases reads with
        | cons head tail =>
            obtain ⟨middle, stepped, middleRepresents⟩ :=
              represents.accepts isLexeme head
            obtain ⟨after, afterRepresents, continued⟩ :=
              induction middleRepresents restResults tail
            refine ⟨after, afterRepresents, fun calls rest => ?_⟩
            rw [parseLoop_cons, stepped]
            exact continued calls rest

/-- Results that the draft cannot read make the parser give up with the tree of
the last draft it reached. -/
theorem parseLoop_stuck {state : ParseState} {draft : Draft}
    (represents : state.Represents draft) (body : List TokenResult)
    (bodyResults : ∀ result ∈ body, isBodyResult result = true)
    (unreadable : ∀ next, ¬ draft.Reads (lexemesOf body) next) :
    ∃ (read : List Lexeme) (reached : Draft), draft.Reads read reached ∧
      ∀ calls rest,
        parseLoop nextResult (body.length + calls) (body ++ rest) state =
          .returned false reached.config := by
  induction body generalizing state draft with
  | nil => exact False.elim (unreadable draft (.nil draft))
  | cons result body induction =>
      have restResults : ∀ result ∈ body, isBodyResult result = true :=
        fun other member => bodyResults other (List.mem_cons_of_mem _ member)
      rcases isBodyResult_cases (bodyResults result List.mem_cons_self) with
        ⟨value, rfl⟩ | ⟨lexeme, isLexeme⟩
      · rw [lexemesOf_cons_comment] at unreadable
        obtain ⟨read, reached, reads, gaveUp⟩ :=
          induction represents restResults unreadable
        refine ⟨read, reached, reads, fun calls rest => ?_⟩
        rw [parseLoop_cons]
        exact gaveUp calls rest
      · rw [lexemesOf_cons_lexeme isLexeme] at unreadable
        cases stepped : draft.read lexeme with
        | none =>
            refine ⟨[], draft, .nil draft, fun calls rest => ?_⟩
            rw [parseLoop_cons, represents.rejects isLexeme stepped,
              represents.config]
        | some middle =>
            obtain ⟨after, parsed, afterRepresents⟩ :=
              represents.accepts isLexeme stepped
            obtain ⟨read, reached, reads, gaveUp⟩ :=
              induction afterRepresents restResults fun next tail =>
                unreadable next (.cons stepped tail)
            refine ⟨lexeme :: read, reached, .cons stepped reads,
              fun calls rest => ?_⟩
            rw [parseLoop_cons, parsed]
            exact gaveUp calls rest

theorem Draft.Complete.eq {draft : Draft} (complete : draft.Complete) :
    draft = ⟨[], draft.statements, []⟩ := by
  obtain ⟨frames, statements, words⟩ := draft
  obtain ⟨rfl, rfl⟩ := complete
  rfl

theorem Draft.Complete.config {draft : Draft} (complete : draft.Complete) :
    draft.config = .mk draft.statements := by
  rw [complete.eq]
  simp [Draft.config, Draft.plug, Draft.openStatement]

theorem parseResults_eof (body : List TokenResult) (value : Text)
    (bodyResults : ∀ result ∈ body, isBodyResult result = true) :
    (∃ statements, Derives (lexemesOf body) (.mk statements) ∧
      parseResults (body ++ [(.eof, value)]) (.mk []) =
        .returned true (.mk statements)) ∨
    ((∀ tree, ¬ Derives (lexemesOf body) tree) ∧
      ∃ config, parseResults (body ++ [(.eof, value)]) (.mk []) =
        .returned false config) := by
  unfold parseResults
  rw [List.length_append, List.length_singleton]
  by_cases readable : ∃ next, Draft.empty.Reads (lexemesOf body) next
  · obtain ⟨next, reads⟩ := readable
    obtain ⟨after, represents, continued⟩ :=
      parseLoop_reads ParseState.represents_initial body bodyResults reads
    rw [continued, parseLoop_succ]
    simp only [nextResult, represents.endOfFile value]
    by_cases complete : next.Complete
    · refine .inl ⟨next.statements, ?_, ?_⟩
      · rw [← Draft.reads_iff_derives, ← complete.eq]
        exact reads
      · rw [represents.config, complete.config, decide_eq_true complete]
    · refine .inr ⟨?_, after.config, ?_⟩
      · rintro ⟨statements⟩ derivation
        rw [← Draft.reads_iff_derives] at derivation
        exact complete (reads.unique derivation ▸ ⟨rfl, rfl⟩)
      · rw [decide_eq_false complete]
  · obtain ⟨read, reached, reads, gaveUp⟩ :=
      parseLoop_stuck ParseState.represents_initial body bodyResults
        fun next reads => readable ⟨next, reads⟩
    refine .inr ⟨?_, reached.config, gaveUp _ _⟩
    rintro ⟨statements⟩ derivation
    exact readable ⟨_, (Draft.reads_iff_derives _ _).mpr derivation⟩

theorem parseResults_error (body : List TokenResult) (value : Text)
    (bodyResults : ∀ result ∈ body, isBodyResult result = true) :
    ∃ config, parseResults (body ++ [(.error, value)]) (.mk []) =
      .returned false config := by
  unfold parseResults
  rw [List.length_append, List.length_singleton]
  by_cases readable : ∃ next, Draft.empty.Reads (lexemesOf body) next
  · obtain ⟨next, reads⟩ := readable
    obtain ⟨after, represents, continued⟩ :=
      parseLoop_reads ParseState.represents_initial body bodyResults reads
    rw [continued, parseLoop_succ]
    exact ⟨after.config, rfl⟩
  · obtain ⟨read, reached, reads, gaveUp⟩ :=
      parseLoop_stuck ParseState.represents_initial body bodyResults
        fun next reads => readable ⟨next, reads⟩
    exact ⟨reached.config, gaveUp _ _⟩

/-- `Parse` accepts exactly the grammar and builds the derivation's tree. -/
theorem parseResults_correct (body : List TokenResult) (last : TokenResult)
    (bodyResults : ∀ result ∈ body, isBodyResult result = true)
    (ended : last.1 = .eof ∨ last.1 = .error) :
    ∃ valid config,
      parseResults (body ++ [last]) (.mk []) = .returned valid config ∧
      (valid = true ↔
        last.1 = .eof ∧ ∃ tree, Derives (lexemesOf body) tree) ∧
      (valid = true →
        Derives (lexemesOf body) config ∧
        ∀ tree, Derives (lexemesOf body) tree → tree = config) := by
  obtain ⟨lastType, value⟩ := last
  rcases ended with rfl | rfl
  · rcases parseResults_eof body value bodyResults with
      ⟨statements, derivation, parsed⟩ | ⟨underivable, config, parsed⟩
    · refine ⟨true, .mk statements, parsed, ?_, ?_⟩
      · exact iff_of_true rfl ⟨rfl, _, derivation⟩
      · exact fun _ => ⟨derivation, fun tree other => other.unique derivation⟩
    · refine ⟨false, config, parsed, ?_, nofun⟩
      refine iff_of_false nofun ?_
      rintro ⟨_, tree, derivation⟩
      exact underivable tree derivation
  · obtain ⟨config, parsed⟩ := parseResults_error body value bodyResults
    exact ⟨false, config, parsed, iff_of_false nofun nofun, nofun⟩

theorem parseResults_correct_nested :
    ∃ valid config,
      parseResults
        ([(.normal, "server".toList), (.startBlock, "\x7b".toList),
          (.comment, "#".toList), (.normal, "bar".toList),
          (.statementEnd, ";".toList), (.endBlock, "\x7d".toList)] ++
          [(.eof, [])]) (.mk []) = .returned valid config ∧
      (valid = true ↔ TokenType.eof = .eof ∧ ∃ tree, Derives
        [.word "server".toList, .openBrace, .word "bar".toList, .semicolon,
          .closeBrace] tree) ∧
      (valid = true →
        Derives [.word "server".toList, .openBrace, .word "bar".toList,
          .semicolon, .closeBrace] config ∧
        ∀ tree, Derives [.word "server".toList, .openBrace, .word "bar".toList,
          .semicolon, .closeBrace] tree → tree = config) :=
  parseResults_correct _ (.eof, []) (by decide) (.inl rfl)

end HttpsServer.Config
