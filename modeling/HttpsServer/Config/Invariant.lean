import HttpsServer.Config.Lexing

namespace HttpsServer.Config

open HttpsServer.Data

/-! What holds before every iteration of the parser's loop. -/

/-- From the top down, the pointers lead each to the child block of the last
statement of the next one, and the lowest one to the root. -/
inductive OpenBlocks (config : NginxConfig) : List ConfigPtr → Prop
  | root : OpenBlocks config [[]]
  | block {outer : ConfigPtr} {stack : List ConfigPtr}
      {before : List NginxConfigStatement} {tokens : List Text}
      {childBlock : NginxConfig} (below : OpenBlocks config (outer :: stack))
      (last : config.deref outer =
        some (before ++ [.mk tokens (some childBlock)])) :
      OpenBlocks config ((outer ++ [before.length]) :: outer :: stack)

structure ParseState.Invariant (state : ParseState) : Prop where
  balanced : state.configStack.length = state.bracketStack.length + 1
  openBlocks : OpenBlocks state.config state.configStack
  unfinished : state.lastTokenType = .normal →
    ∃ top before tokens, state.configStack.head? = some top ∧
      state.config.deref top = some (before ++ [.mk tokens none]) ∧ tokens ≠ []
  tokenized : state.config.Tokenized

/-- An iteration that goes on does so in a state that is `kept`, one that leaves
the loop has put a token into every statement, and none is undefined. -/
def ParseStep.Sound (kept : ParseState → Prop) : ParseStep → Prop
  | .again state => kept state
  | .leave _ config => config.Tokenized
  | .undefined => False

theorem ParseStep.Sound.imp {kept other : ParseState → Prop} {step : ParseStep}
    (sound : step.Sound kept) (implies : ∀ state, kept state → other state) :
    step.Sound other := by
  cases step with
  | again state => exact implies state sound
  | leave valid config => exact sound
  | undefined => exact sound

/-- The states before the iterations that follow `results` of the lexer. -/
abbrev ParseState.Reaches : ParseState → List TokenResult → ParseState → Prop :=
  Run fun state result next =>
    parseStep state result.1 result.2 = .again next

/-! The tree and the stack of a draft. -/

namespace Draft

theorem plug_openBlocks (frames : List Frame)
    (statements : List NginxConfigStatement) :
    OpenBlocks (plug frames statements) (pointers frames) := by
  induction frames generalizing statements with
  | nil => exact .root
  | cons frame frames induction =>
      have below := induction
        (frame.before ++ [.mk frame.tokens (some (.mk statements))])
      have last := deref_plug frames
        (frame.before ++ [.mk frame.tokens (some (.mk statements))])
      obtain ⟨stack, outer⟩ := List.head?_eq_some_iff.mp (pointers_head frames)
      rw [pointers, outer]
      rw [outer] at below
      exact .block below last

theorem length_pointers (frames : List Frame) :
    (pointers frames).length = frames.length + 1 := by
  induction frames with
  | nil => rfl
  | cons frame frames induction =>
      rw [pointers, List.length_cons, induction, List.length_cons]

theorem plug_tokenized {frames : List Frame}
    (framesTokenized : ∀ frame ∈ frames,
      EveryStatement (· ≠ []) frame.before ∧ frame.tokens ≠ [])
    {statements : List NginxConfigStatement}
    (tokenized : EveryStatement (· ≠ []) statements) :
    (plug frames statements).Tokenized := by
  induction frames generalizing statements with
  | nil => exact tokenized
  | cons frame frames induction =>
      obtain ⟨beforeTokenized, nonempty⟩ :=
        framesTokenized frame List.mem_cons_self
      refine induction
        (fun older member => framesTokenized older (List.mem_cons_of_mem _ member))
        ?_
      exact (everyStatement_append _ _ _).mpr
        ⟨beforeTokenized, ⟨nonempty, tokenized⟩, trivial⟩

theorem Tokenized.config {draft : Draft} (tokenized : draft.Tokenized) :
    draft.config.Tokenized := by
  refine plug_tokenized tokenized.frames
    ((everyStatement_append _ _ _).mpr ⟨tokenized.statements, ?_⟩)
  unfold openStatement
  split
  · trivial
  next someWords => exact ⟨someWords, trivial⟩

end Draft

/-! One iteration. -/

/-- The state stands for a draft, but that its last token may have been a quoted
string instead of the one that belongs to the draft. -/
def ParseState.Drafted (state : ParseState) : Prop :=
  ∃ draft : Draft, draft.Tokenized ∧
    (state.Represents draft ∨
      ∃ unquoted : ParseState, unquoted.Represents draft ∧
        state = { unquoted with lastTokenType := .quotedString })

theorem ParseState.Represents.invariant {state : ParseState} {draft : Draft}
    (represents : state.Represents draft) (tokenized : draft.Tokenized) :
    state.Invariant where
  balanced := by
    rw [represents.configStack, represents.bracketStack,
      Draft.length_pointers, List.length_replicate]
  openBlocks := by
    rw [represents.config, represents.configStack]
    exact Draft.plug_openBlocks _ _
  unfinished := by
    intro normal
    have someWords := represents.last_normal_iff.mp normal
    refine ⟨_, draft.statements, draft.words, represents.top, ?_, someWords⟩
    rw [represents.config_words someWords]
    exact Draft.deref_plug _ _
  tokenized := by
    rw [represents.config]
    exact tokenized.config

theorem ParseState.Drafted.invariant {state : ParseState}
    (drafted : state.Drafted) : state.Invariant := by
  obtain ⟨draft, tokenized, represents | ⟨unquoted, represents, rfl⟩⟩ := drafted
  · exact represents.invariant tokenized
  · have kept := represents.invariant tokenized
    exact ⟨kept.balanced, kept.openBlocks, nofun, kept.tokenized⟩

theorem ParseState.drafted_initial :
    (ParseState.initial (.mk [])).Drafted :=
  ⟨Draft.empty, Draft.tokenized_empty, .inl ParseState.represents_initial⟩

/-- A state that stands for a draft goes on to one that stands for the draft with
the next lexeme read. -/
theorem ParseState.Represents.step_sound {state : ParseState} {draft : Draft}
    (represents : state.Represents draft) (tokenized : draft.Tokenized)
    (result : TokenResult) :
    (parseStep state result.1 result.2).Sound ParseState.Drafted := by
  have kept := (represents.invariant tokenized).tokenized
  by_cases isBody : isBodyResult result = true
  · rcases represents.body isBody with
      ⟨after, next, stepped, afterRepresents, nextTokenized⟩ | left
    · rw [stepped]
      exact ⟨next, nextTokenized tokenized, .inl afterRepresents⟩
    · rw [left]
      exact kept
  · obtain ⟨tokenType, token⟩ := result
    cases tokenType with
    | start => exact kept
    | error => exact kept
    | quotedString => exact ⟨draft, tokenized, .inr ⟨state, represents, rfl⟩⟩
    | eof =>
        rw [represents.endOfFile]
        exact kept
    | comment => exact absurd rfl isBody
    | normal => exact absurd rfl isBody
    | statementEnd => exact absurd rfl isBody
    | startBlock => exact absurd rfl isBody
    | endBlock => exact absurd rfl isBody

theorem parseStep_quoted {state : ParseState}
    (quoted : state.lastTokenType = .quotedString) (tokenType : TokenType)
    (token : Text) :
    parseStep state tokenType token = .again state ∨
      ∃ valid, parseStep state tokenType token = .leave valid state.config := by
  obtain ⟨config, configStack, lastTokenType, bracketStack⟩ := state
  cases quoted
  cases tokenType <;> simp [parseStep]

theorem ParseState.Drafted.step_sound {state : ParseState}
    (drafted : state.Drafted) (result : TokenResult) :
    (parseStep state result.1 result.2).Sound ParseState.Drafted := by
  have kept := drafted.invariant.tokenized
  obtain ⟨draft, tokenized, represents | ⟨unquoted, represents, same⟩⟩ :=
    id drafted
  · exact represents.step_sound tokenized result
  · have quoted : state.lastTokenType = .quotedString := by rw [same]
    rcases parseStep_quoted quoted result.1 result.2 with again | ⟨_, left⟩
    · rw [again]
      exact drafted
    · rw [left]
      exact kept

/-! Whole runs. -/

theorem ParseState.Reaches.drafted {state : ParseState}
    {results : List TokenResult}
    (reaches : (ParseState.initial (.mk [])).Reaches results state) :
    state.Drafted := by
  refine reaches.preserves ?_ ParseState.drafted_initial
  intro first result last stepped drafted
  have sound := drafted.step_sound result
  rw [stepped] at sound
  exact sound

/-- The loop over any lexer leaves a token in every statement, whatever it
returns, and does nothing undefined. -/
theorem parseLoop_drafted (next : Input → TokenResult × Input) (calls : Nat)
    (input : Input) {state : ParseState} (drafted : state.Drafted) :
    parseLoop next calls input state = .outOfCalls ∨
      ∃ valid config, config.Tokenized ∧
        parseLoop next calls input state = .returned valid config := by
  induction calls generalizing input state with
  | zero => exact .inl rfl
  | succ calls induction =>
      have sound := drafted.step_sound (next input).1
      rw [parseLoop_succ]
      cases stepped : parseStep state (next input).1.1 (next input).1.2 with
      | again after =>
          rw [stepped] at sound
          exact induction (next input).2 sound
      | leave valid config =>
          rw [stepped] at sound
          exact .inr ⟨valid, config, sound, rfl⟩
      | undefined =>
          rw [stepped] at sound
          exact sound.elim

/-- The invariant holds before every iteration, whatever the lexer returned so
far, and every iteration keeps it; so every statement of the config has a token,
whether `Parse` accepts or not. -/
theorem parse_invariant :
    (∀ results state, (ParseState.initial (.mk [])).Reaches results state →
      state.Invariant ∧ ∀ result : TokenResult,
        (parseStep state result.1 result.2).Sound ParseState.Invariant) ∧
    ∀ input, ∃ valid config,
      parse input (.mk []) = .returned valid config ∧ config.Tokenized := by
  refine ⟨fun results state reaches => ?_, fun input => ?_⟩
  · have drafted := reaches.drafted
    refine ⟨drafted.invariant, fun result => ?_⟩
    exact (drafted.step_sound result).imp fun next => ParseState.Drafted.invariant
  · obtain ⟨valid, config, parsed⟩ := parse_returns input (.mk [])
    rcases parseLoop_drafted parseToken (input.length + 1) input
        ParseState.drafted_initial with exhausted | ⟨_, _, tokenized, returned⟩
    · rw [parse, exhausted] at parsed
      contradiction
    · exact ⟨_, _, returned, tokenized⟩

/-- A word in an open block. -/
theorem parse_invariant_opened :
    (ParseState.mk
      (.mk [.mk ["server".toList] (some (.mk [.mk ["listen".toList] none]))])
      [[0], []] .normal [.startBlock]).Invariant :=
  (parse_invariant.1
    [(.normal, "server".toList), (.startBlock, "\x7b".toList),
      (.normal, "listen".toList)] _
    (.cons rfl (.cons rfl (.cons rfl (.nil _))))).1

end HttpsServer.Config
