import HttpsServer.Config.Token

namespace HttpsServer.Config

open HttpsServer.Data

structure ParseState where
  config : NginxConfig
  configStack : List ConfigPtr
  lastTokenType : TokenType
  bracketStack : List TokenType

/-- How one iteration of the parser's loop ends. `undefined` stands for a `top`,
`pop` or `back` on an empty container and for a pointer without a target. -/
inductive ParseStep where
  | again (state : ParseState)
  | leave (valid : Bool) (config : NginxConfig)
  | undefined

/-- The word `token` is stored at the end of the config on top of the stack. -/
def ParseState.pushToken (state : ParseState) (token : Text) :
    Option NginxConfig := do
  let top ← state.configStack.head?
  let config ←
    if state.lastTokenType ≠ .normal then
      state.config.write emplaceStatement top
    else some state.config
  config.write (changeBack (·.pushToken token)) top

/-- The last statement gets an empty child block; the pointer to it is new. -/
def ParseState.pushBlock (state : ParseState) :
    Option (NginxConfig × ConfigPtr) := do
  let top ← state.configStack.head?
  let config ← state.config.write (changeBack (·.resetChildBlock)) top
  let statements ← config.deref top
  some (config, top ++ [statements.length - 1])

def parseStep (state : ParseState) (tokenType : TokenType) (token : Text) :
    ParseStep :=
  match tokenType with
  | .error => .leave false state.config
  | .comment => .again state
  | .start => .leave false state.config
  | .normal =>
      if state.lastTokenType = .start ∨
          state.lastTokenType = .statementEnd ∨
          state.lastTokenType = .startBlock ∨
          state.lastTokenType = .endBlock ∨
          state.lastTokenType = .normal then
        match state.pushToken token with
        | none => .undefined
        | some config =>
            .again { state with config := config, lastTokenType := tokenType }
      else .leave false state.config
  | .statementEnd =>
      if state.lastTokenType ≠ .normal then .leave false state.config
      else .again { state with lastTokenType := tokenType }
  | .startBlock =>
      if state.lastTokenType ≠ .normal then .leave false state.config
      else
        match state.pushBlock with
        | none => .undefined
        | some (config, newConfig) =>
            .again {
              config := config
              configStack := newConfig :: state.configStack
              lastTokenType := tokenType
              bracketStack := tokenType :: state.bracketStack }
  | .endBlock =>
      if state.lastTokenType ≠ .statementEnd ∧
          state.lastTokenType ≠ .startBlock ∧
          state.lastTokenType ≠ .endBlock then
        .leave false state.config
      else
        match state.configStack, state.bracketStack with
        | [], _ => .undefined
        | _ :: _, [] => .leave false state.config
        | _ :: configs, _ :: brackets =>
            .again { state with
              configStack := configs
              lastTokenType := tokenType
              bracketStack := brackets }
  | .quotedString => .again { state with lastTokenType := tokenType }
  | .eof =>
      if state.lastTokenType ≠ .statementEnd ∧
          state.lastTokenType ≠ .endBlock ∧
          state.lastTokenType ≠ .start then
        .leave false state.config
      else if state.bracketStack ≠ [] then .leave false state.config
      else .leave true state.config

theorem parseStep_final (state : ParseState) {tokenType : TokenType}
    (token : Text) (final : tokenType = .eof ∨ tokenType = .error) :
    ∃ valid, parseStep state tokenType token = .leave valid state.config := by
  rcases final with rfl | rfl
  · simp only [parseStep]
    split
    · exact ⟨false, rfl⟩
    · split
      · exact ⟨false, rfl⟩
      · exact ⟨true, rfl⟩
  · exact ⟨false, rfl⟩

/-! The loop, over any source of lexer results. -/

inductive ParseResult where
  | returned (valid : Bool) (config : NginxConfig)
  | undefined
  | outOfCalls

/-- At most `calls` iterations, each with one call of the lexer `next`. -/
def parseLoop (next : Input → TokenResult × Input) :
    Nat → Input → ParseState → ParseResult
  | 0, _, _ => .outOfCalls
  | calls + 1, input, state =>
      let ((tokenType, token), unread) := next input
      match parseStep state tokenType token with
      | .again state => parseLoop next calls unread state
      | .leave valid config => .returned valid config
      | .undefined => .undefined

def ParseState.initial (config : NginxConfig) : ParseState where
  config := config
  configStack := [[]]
  lastTokenType := .start
  bracketStack := []

/-- The stream version of `Parse`. -/
def parse (input : Text) (config : NginxConfig) : ParseResult :=
  parseLoop parseToken (input.length + 1) input (.initial config)

/-- A lexer that hands out a fixed sequence of results, then the end of file. -/
def nextResult : List TokenResult → TokenResult × List TokenResult
  | [] => ((.eof, []), [])
  | result :: rest => (result, rest)

def parseResults (results : List TokenResult) (config : NginxConfig) :
    ParseResult :=
  parseLoop nextResult results.length results (.initial config)

theorem parseLoop_succ (next : Input → TokenResult × Input) (calls : Nat)
    (input : Input) (state : ParseState) :
    parseLoop next (calls + 1) input state =
      match parseStep state (next input).1.1 (next input).1.2 with
      | .again state => parseLoop next calls (next input).2 state
      | .leave valid config => .returned valid config
      | .undefined => .undefined := rfl

end HttpsServer.Config
