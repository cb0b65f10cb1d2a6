import Mathlib.Data.List.Basic
import HttpsServer.Data.PrefixMatch
import HttpsServer.Dispatch.Handler

namespace HttpsServer.Dispatch

open Std
open HttpsServer.Data
open HttpsServer.Config

/-- A `RequestHandler*`, as the number of the object among those that `new` has
made for its dispatcher. -/
abbrev HandlerPtr := Nat

/-- The maps that registration writes: the dispatcher's own `handlers_` with the
objects it points to, and the static `handler_info`. -/
structure Registry where
  objects : List RequestHandler
  handlers : TreeMap Text HandlerPtr compare
  handlerInfo : TreeMap Text Text compare

/-- `handlers_[path] = new ...` and the entry in `handler_info`. -/
def Registry.set (registry : Registry) (path : Text) (handler : RequestHandler)
    (name : Text) : Registry where
  objects := registry.objects ++ [handler]
  handlers := registry.handlers.insert path registry.objects.length
  handlerInfo := registry.handlerInfo.insert path name

/-- Trailing slashes are popped while more than one character is left. -/
def popSlashes (path : Text) : Text :=
  if 1 < path.length ∧ path.getLast? = some '/' then popSlashes path.dropLast
  else path
termination_by path.length
decreasing_by
  rw [List.length_dropLast]
  omega

/-- Whether a handler was added, and the maps afterwards. -/
def addHandler (registry : Registry) (config : NginxConfig) (path : Text)
    (handlerType : Text) : Except Fault (Bool × Registry) :=
  let path := popSlashes path
  if registry.handlers.contains path then .ok (false, registry)
  else
    match handlerType? handlerType with
    | none => .ok (false, registry)
    | some type => do
        let handler ← newHandler path config type
        .ok (true, registry.set path handler type.name)

/-- `tokens_.size() < 3 && tokens_[0] != "listen"`. -/
def isMalformed (statement : NginxConfigStatement) : Except Fault Bool :=
  if statement.tokens.length < 3 then do
    let first ← tokenAt statement 0
    .ok (first ≠ "listen".toList)
  else .ok false

/-- One statement in the loop of `init_handlers`. -/
def initStatement (counted : Nat × Registry)
    (statement : NginxConfigStatement) : Except Fault (Nat × Registry) := do
  if ← isMalformed statement then .ok counted
  else if (← tokenAt statement 0) ≠ "location".toList then .ok counted
  else
    match statement.childBlock with
    | none => .error .nullChildBlock
    | some childBlock =>
        let path ← tokenAt statement 1
        let handlerType ← tokenAt statement 2
        let (added, registry) ← addHandler counted.2 childBlock path handlerType
        .ok (if added then counted.1 + 1 else counted.1, registry)

/-- The maps with the 404 handler at the root, before the loop. -/
def rootRegistry (handlerInfo : TreeMap Text Text compare) : Registry :=
  Registry.set ⟨[], ∅, handlerInfo⟩ "/".toList .notFoundHandler
    "404Handler".toList

def initHandlers (handlerInfo : TreeMap Text Text compare)
    (config : NginxConfig) : Except Fault (Nat × Registry) :=
  config.statements.foldlM initStatement (1, rootRegistry handlerInfo)

structure Dispatcher where
  objects : List RequestHandler
  handlers : TreeMap Text HandlerPtr compare
  regnum : Nat

/-- The constructor, from the static `handler_info` it finds to the one it
leaves. -/
def newDispatcher (handlerInfo : TreeMap Text Text compare)
    (config : NginxConfig) :
    Except Fault (Dispatcher × TreeMap Text Text compare) := do
  let (regnum, registry) ← initHandlers handlerInfo config
  .ok (⟨registry.objects, registry.handlers, regnum⟩, registry.handlerInfo)

/-- `none` is the null pointer. -/
def Dispatcher.getRequestHandler (dispatcher : Dispatcher) (uri : Text) :
    Option HandlerPtr :=
  (PrefixMatch.longest (popSlashes uri) none
    (dispatcher.handlers.toList.map fun entry => (entry.1, some entry.2))).2

end HttpsServer.Dispatch
