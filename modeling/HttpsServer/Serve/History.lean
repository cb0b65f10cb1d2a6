import HttpsServer.Serve.Census

namespace HttpsServer.Serve

open Std
open HttpsServer.Data
open HttpsServer.Config
open HttpsServer.Dispatch

variable {Request : Type}

/-! Everything that a callback does, with what it leaves of the statics. -/

inductive Executes (dispatcher : Dispatcher) (statics : Statics)
    (session : Session) : Completion Request → Effect Request × Statics → Prop
  | crashed {completion : Completion Request} {calls : List (Call Request)}
      {crash : Crash} {last : Statics} :
      Executes dispatcher statics session completion
        (⟨calls, .crashed crash⟩, last)
  | shaken : Executes dispatcher statics session (.handshake none)
      (⟨[.asyncReadSome .sslsocket 0 maxLength],
        .returned { session with data := .zeroed maxLength }⟩, statics)
  | notShaken {error : HandshakeError} :
      Executes dispatcher statics session (.handshake (some error))
        (⟨[], .deleted⟩, statics)
  | notReceived {offset length : Nat} {world : World Request} :
      Executes dispatcher statics session (.read offset length none world)
        (⟨[], .deleted⟩, statics)
  | append {offset length : Nat} {chunk text : Text} {world : World Request}
      {received : Session}
      (receives : session.receive offset length chunk = some received)
      (held : received.data.text? = some text)
      (unended : isEnded text = false) :
      Executes dispatcher statics session (.read offset length (some chunk) world)
        (⟨[.asyncReadSome received.stream text.length maxLength],
          .returned received⟩, statics)
  | refused {offset length : Nat} {chunk text : Text} {world : World Request}
      {received : Session}
      (receives : session.receive offset length chunk = some received)
      (held : received.data.text? = some text)
      (ended : isEnded text = true)
      (refuses : world.put text = none) :
      Executes dispatcher statics session (.read offset length (some chunk) world)
        (⟨[.parserPut text, .asyncWrite received.stream Session.badRequest],
          .returned { received with buffer := Session.badRequest }⟩, statics)
  | handled {offset length : Nat} {chunk text : Text} {world : World Request}
      {received : Session} {request : Request} {pointer : HandlerPtr}
      {handler : RequestHandler} {response : Response}
      (receives : session.receive offset length chunk = some received)
      (held : received.data.text? = some text)
      (ended : isEnded text = true)
      (accepts : world.put text = some request)
      (routed : dispatcher.getRequestHandler (world.target request) =
        some pointer)
      (object : dispatcher.objects[pointer]? = some handler)
      (returns : world.handleRequest handler statics request = some response) :
      Executes dispatcher statics session (.read offset length (some chunk) world)
        (⟨[.parserPut text, .handleRequest handler request,
            .asyncWrite received.stream response],
          .returned { received with buffer := response }⟩,
          statics.count (world.target request) response.result)
  | written : Executes dispatcher statics session (.write false)
      (⟨[.close session.stream],
        .returned { session with data := .zeroed maxLength }⟩, statics)
  | notWritten : Executes dispatcher statics session (.write true)
      (⟨[], .deleted⟩, statics)

theorem sendResponse_executes {dispatcher : Dispatcher} {statics : Statics}
    {session received : Session} {offset length : Nat} {chunk text : Text}
    (world : World Request)
    (receives : session.receive offset length chunk = some received)
    (held : received.data.text? = some text) (ended : isEnded text = true) :
    Executes dispatcher statics session (.read offset length (some chunk) world)
      (received.sendResponse dispatcher world statics) := by
  unfold Session.sendResponse
  rw [held]
  dsimp only
  cases accepts : world.put text with
  | none => exact .refused receives held ended accepts
  | some request =>
      dsimp only
      cases routed : dispatcher.getRequestHandler (world.target request) with
      | none => exact .crashed
      | some pointer =>
          dsimp only
          cases object : dispatcher.objects[pointer]? with
          | none => exact .crashed
          | some handler =>
              dsimp only
              cases returns : world.handleRequest handler statics request with
              | none => exact .crashed
              | some response =>
                  dsimp only
                  cases world.connected with
                  | false => exact .crashed
                  | true =>
                      exact .handled receives held ended accepts routed object
                        returns

theorem callback_executes {dispatcher : Dispatcher} {statics : Statics}
    {session : Session} {completion : Completion Request}
    {result : Effect Request × Statics}
    (called : completion.callback dispatcher statics session = some result) :
    Executes dispatcher statics session completion result := by
  cases completion with
  | handshake error =>
      cases called
      cases error with
      | none => exact .shaken
      | some error => cases error <;> exact .notShaken
  | write error =>
      cases called
      cases error
      · exact .written
      · exact .notWritten
  | read offset length received world =>
      cases received with
      | none =>
          cases called
          exact .notReceived
      | some chunk =>
          obtain ⟨received, receives, handled⟩ :=
            Option.map_eq_some_iff.mp called
          subst handled
          rw [Session.handleRead, if_neg Bool.false_ne_true,
            Session.endOfRequest]
          cases held : received.data.text? with
          | none => exact .crashed
          | some text =>
              rw [Option.map_some]
              cases ended : isEnded text with
              | true => exact sendResponse_executes world receives held ended
              | false =>
                  dsimp only
                  rw [Session.appendData, held]
                  exact .append receives held ended

theorem receive_version {session received : Session} {offset length : Nat}
    {chunk : Text}
    (receives : session.receive offset length chunk = some received) :
    received.version = session.version := by
  unfold Session.receive at receives
  split at receives
  next =>
    split at receives
    next => cases receives; rfl
    next => contradiction
  next => contradiction

theorem completes_executes {dispatcher : Dispatcher}
    {before after : Connection Request} {statics lastStatics : Statics}
    {completion : Completion Request}
    (completes : Completes dispatcher (before, statics) completion
      (after, lastStatics)) :
    ∃ effect, Executes dispatcher statics before.session completion
        (effect, lastStatics) ∧
      Performed { before with
        pending := before.pending.erase completion.operation } effect after := by
  obtain ⟨_, effect, called, performed⟩ := complete_iff.mp completes
  exact ⟨effect, callback_executes called, performed⟩

end HttpsServer.Serve
