import HttpsServer.Data.Run
import HttpsServer.Config.Tree

namespace HttpsServer.Config

open HttpsServer.Data

inductive TokenType where
  | start
  | normal
  | startBlock
  | endBlock
  | comment
  | statementEnd
  | eof
  | error
  | quotedString
  deriving DecidableEq, Repr

inductive TokenParserState where
  | initialWhitespace
  | singleQuote
  | doubleQuote
  | tokenTypeComment
  | tokenTypeNormal
  deriving DecidableEq, Repr

/-- What one call of the lexer hands back: the type it returns and the text it
leaves in `value`. -/
abbrev TokenResult := TokenType × Text

/-! One round of the lexer's loop.

The input stream is the list of its unread characters. A character that is put
back is one that is not taken off that list; a read that fails is a read from
the empty list, after which the stream stays exhausted. -/

/-- How the `switch` is left after the character `c` has been read. -/
inductive LexStep where
  /-- `continue`, with every character after `c` still unread. -/
  | next (state : TokenParserState) (value : Text)
  /-- `continue`, with the character after `c` taken as well. -/
  | skip (state : TokenParserState) (value : Text)
  /-- `return`. -/
  | done (type : TokenType) (value : Text) (unread : Text)
  /-- `break`, with the stream no longer good. -/
  | stop (state : TokenParserState) (value : Text)
  deriving DecidableEq

def isBlank (c : Char) : Bool :=
  c = ' ' || c = '\t' || c = '\n' || c = '\r'

/-- The characters a backslash escapes outside quotes. -/
def isEscapable (c : Char) : Bool :=
  c = ' ' || c = '\t' || c = ';' || c = '{' || c = '}' || c = '#'

/-- The characters allowed right after a closing quote. -/
def endsQuoted (c : Char) : Bool :=
  isBlank c || c = ';' || c = '{'

def endsWord (c : Char) : Bool :=
  isBlank c || c = ';' || c = '{' || c = '}'

/-- The look-ahead after a backslash. -/
def escape (escapable : Char → Bool) (state : TokenParserState) (value : Text) :
    Text → LexStep
  | [] => .stop state value
  | ch :: _ =>
      if escapable ch then .skip state (value ++ [ch])
      else .next state (value ++ ['\\'])

/-- The look-ahead after a closing quote. -/
def closeQuote (state : TokenParserState) (value : Text) : Text → LexStep
  | [] => .stop state value
  | ch :: rest =>
      if endsQuoted ch then .done .normal value (ch :: rest)
      else .done .error value rest

/-- A character inside quotes; `closed` is the value once the quote is closed. -/
def quotedCase (quote : Char) (closed : Text) (state : TokenParserState)
    (value : Text) (c : Char) (rest : Text) : LexStep :=
  if c = '\\' then escape (· = quote) state value rest
  else if c = quote then closeQuote state closed rest
  else .next state (value ++ [c])

/-- Single quotes stay in the value. -/
def singleQuoteCase (state : TokenParserState) (value : Text) (c : Char)
    (rest : Text) : LexStep :=
  quotedCase '\x27' (value ++ [c]) state value c rest

/-- Double quotes are dropped. -/
def doubleQuoteCase (state : TokenParserState) (value : Text) (c : Char)
    (rest : Text) : LexStep :=
  quotedCase '\x22' value state value c rest

def commentCase (state : TokenParserState) (value : Text) (c : Char)
    (rest : Text) : LexStep :=
  if c = '\n' || c = '\r' then .done .comment value rest
  else .next state (value ++ [c])

def normalCase (state : TokenParserState) (value : Text) (c : Char)
    (rest : Text) : LexStep :=
  if endsWord c then .done .normal value (c :: rest)
  else if c = '\\' then escape isEscapable state value rest
  else .next state (value ++ [c])

def initialWhitespaceCase (state : TokenParserState) (value : Text) (c : Char)
    (rest : Text) : LexStep :=
  if c = '{' then .done .startBlock [c] rest
  else if c = '}' then .done .endBlock [c] rest
  else if c = '#' then .next .tokenTypeComment [c]
  else if c = '\x22' then .next .doubleQuote value
  else if c = '\x27' then .next .singleQuote [c]
  else if c = ';' then .done .statementEnd [c] rest
  else if isBlank c then .next state value
  else if c = '\\' then
    match rest with
    -- This `break` only leaves the inner switch and falls into the next case.
    | [] => singleQuoteCase state value c []
    | ch :: rest => escape isEscapable state value (ch :: rest)
  else .next .tokenTypeNormal (value ++ [c])

def lexStep (state : TokenParserState) (value : Text) (c : Char)
    (rest : Text) : LexStep :=
  match state with
  | .initialWhitespace => initialWhitespaceCase state value c rest
  | .singleQuote => singleQuoteCase state value c rest
  | .doubleQuote => doubleQuoteCase state value c rest
  | .tokenTypeComment => commentCase state value c rest
  | .tokenTypeNormal => normalCase state value c rest

/-! The loop and the code after it. -/

inductive LoopExit where
  | returned (type : TokenType) (value : Text) (unread : Text)
  | endOfInput (state : TokenParserState) (value : Text)
  deriving DecidableEq

def lexLoop (state : TokenParserState) (value : Text) : Text → LoopExit
  | [] => .endOfInput state value
  | c :: rest =>
      match lexStep state value c rest with
      | .next state value => lexLoop state value rest
      | .skip state value =>
          match rest with
          | [] => .endOfInput state value
          | _ :: rest => lexLoop state value rest
      | .done type value unread => .returned type value unread
      | .stop state value => .endOfInput state value

def endOfFileType (state : TokenParserState) : TokenType :=
  if state = .singleQuote ∨ state = .doubleQuote then .error else .eof

/-- One call of the lexer on an empty `value`, with the input it leaves. -/
def parseToken (input : Text) : TokenResult × Text :=
  match lexLoop .initialWhitespace [] input with
  | .returned type value unread => ((type, value), unread)
  | .endOfInput state value => ((endOfFileType state, value), [])

example : parseToken " root 'a b';".toList = ((.normal, "root".toList), " 'a b';".toList) := by
  decide

end HttpsServer.Config
