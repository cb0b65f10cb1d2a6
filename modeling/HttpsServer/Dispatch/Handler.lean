import HttpsServer.Config.Tree

namespace HttpsServer.Dispatch

open HttpsServer.Data
open HttpsServer.Config

/-! What can go wrong while the handlers are constructed. -/

inductive Fault where
  /-- `tokens_[i]` past the end of the tokens. -/
  | tokenIndex
  /-- A null `child_block_` is dereferenced. -/
  | nullChildBlock
  /-- `s[i]` past the end of a string. -/
  | charIndex
  /-- `substr` from a position past the end of a string. -/
  | substrPosition
  /-- The exception with the text "bad config file". -/
  | badConfig
  deriving DecidableEq

def tokenAt (statement : NginxConfigStatement) (index : Nat) :
    Except Fault Text :=
  match statement.tokens[index]? with
  | some token => .ok token
  | none => .error .tokenIndex

/-- `substr`; without a count, to the end of the string. -/
def substr (text : Text) (position : Nat) (count : Option Nat) :
    Except Fault Text :=
  if position ≤ text.length then
    match count with
    | some count => .ok ((text.drop position).take count)
    | none => .ok (text.drop position)
  else .error .substrPosition

/-! The three components of an URL. -/

/-- The last character is looked at before the string is known to have one. -/
def removeEndSlash (text : Text) : Except Fault Text :=
  match _ended : text.getLast? with
  | none => .error .charIndex
  | some last =>
      if last = '/' then removeEndSlash text.dropLast else .ok text
termination_by text.length
decreasing_by
  have nonempty : text ≠ [] := by
    rintro rfl
    cases _ended
  have positive := List.length_pos_iff.mpr nonempty
  rw [List.length_dropLast]
  omega

structure Url where
  protocol : Text
  host : Text
  path : Text
  deriving DecidableEq

def parseUrl (url : Text) : Except Fault Url := do
  let modifiedUrl ← removeEndSlash url
  match Text.find "://".toList modifiedUrl with
  | none => .ok ⟨[], [], []⟩
  | some hostStart =>
      let posAfterProtocol := hostStart + 3
      let posAfterHost := Text.findFrom "/".toList modifiedUrl posAfterProtocol
      let protocol ← substr modifiedUrl 0 (some hostStart)
      let host ← substr modifiedUrl posAfterProtocol
        (posAfterHost.map (· - posAfterProtocol))
      let path ← match posAfterHost with
        | some position => substr modifiedUrl position none
        | none => .ok "/".toList
      .ok ⟨protocol, host, path⟩

/-! The request handlers, with the members their constructors set. -/

inductive RequestHandler where
  | fileHandler (locationPrefix root : Text)
  | echoHandler
  | notFoundHandler
  | statusHandler
  | proxyHandler (locationPrefix host path port : Text)
  | sleepHandler
  | healthHandler
  deriving DecidableEq

/-- One round of the loop in the constructor of `FileHandler`. -/
def readFileStatement (root : Text) (statement : NginxConfigStatement) :
    Except Fault Text := do
  let first ← tokenAt statement 0
  if first = "root".toList ∧ statement.tokens.length = 2 then
    tokenAt statement 1
  else .ok root

def newFileHandler (locationPath : Text) (config : NginxConfig) :
    Except Fault RequestHandler := do
  let root ← config.statements.foldlM readFileStatement "/".toList
  .ok (.fileHandler locationPath root)

/-- The members of `ProxyHandler` that its constructor reads from the block. -/
structure ProxyTarget where
  host : Text
  path : Text
  port : Text

/-- One round of the loop in the constructor of `ProxyHandler`. -/
def readProxyStatement (target : ProxyTarget)
    (statement : NginxConfigStatement) : Except Fault ProxyTarget := do
  let first ← tokenAt statement 0
  if first = "host".toList ∧ statement.tokens.length = 2 then
    let components ← parseUrl (← tokenAt statement 1)
    if components.protocol ≠ "http".toList ∧
        components.protocol ≠ "https".toList then
      .error .badConfig
    else
      .ok { target with host := components.host, path := components.path }
  else if first = "port".toList ∧ statement.tokens.length = 2 then
    let port ← tokenAt statement 1
    .ok { target with port := port }
  else .ok target

def newProxyHandler (locationPath : Text) (config : NginxConfig) :
    Except Fault RequestHandler := do
  let target ← config.statements.foldlM readProxyStatement ⟨[], [], []⟩
  .ok (.proxyHandler locationPath target.host target.path target.port)

/-! The handler types a location can name. -/

inductive HandlerType where
  | fileHandler
  | echoHandler
  | notFoundHandler
  | statusHandler
  | proxyHandler
  | sleepHandler
  | healthHandler
  deriving DecidableEq

def HandlerType.name : HandlerType → Text
  | .fileHandler => "FileHandler".toList
  | .echoHandler => "EchoHandler".toList
  | .notFoundHandler => "404Handler".toList
  | .statusHandler => "StatusHandler".toList
  | .proxyHandler => "ProxyHandler".toList
  | .sleepHandler => "SleepHandler".toList
  | .healthHandler => "HealthHandler".toList

/-- The comparisons of `handler_type`, in their order in `add_handler`. -/
def handlerType? (text : Text) : Option HandlerType :=
  if text = HandlerType.fileHandler.name then some .fileHandler
  else if text = HandlerType.echoHandler.name then some .echoHandler
  else if text = HandlerType.notFoundHandler.name then some .notFoundHandler
  else if text = HandlerType.statusHandler.name then some .statusHandler
  else if text = HandlerType.proxyHandler.name then some .proxyHandler
  else if text = HandlerType.sleepHandler.name then some .sleepHandler
  else if text = HandlerType.healthHandler.name then some .healthHandler
  else none

def newHandler (locationPath : Text) (config : NginxConfig) :
    HandlerType → Except Fault RequestHandler
  | .fileHandler => newFileHandler locationPath config
  | .echoHandler => .ok .echoHandler
  | .notFoundHandler => .ok .notFoundHandler
  | .statusHandler => .ok .statusHandler
  | .proxyHandler => newProxyHandler locationPath config
  | .sleepHandler => .ok .sleepHandler
  | .healthHandler => .ok .healthHandler

end HttpsServer.Dispatch
