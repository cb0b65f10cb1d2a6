import HttpsServer.Serve.Session

namespace HttpsServer.Serve

open HttpsServer.Data
open HttpsServer.Dispatch

/-! One session object with the asynchronous operations it has started. -/

inductive Operation where
  | handshake
  | read (offset length : Nat)
  | write
  deriving DecidableEq

def Call.operation? {Request : Type} : Call Request → Option Operation
  | .asyncHandshake => some .handshake
  | .asyncReadSome _ offset length => some (.read offset length)
  | .asyncWrite _ _ => some .write
  | .parserPut _ | .handleRequest _ _ | .close _ => none

/-- A session with its outstanding operations, the calls it has made so far, and
how often it has been started and deleted. -/
structure Connection (Request : Type) where
  session : Session
  pending : List Operation
  calls : List (Call Request)
  started : Nat
  deletions : Nat

/-- How an outstanding operation is reported back. -/
inductive Completion (Request : Type) where
  | handshake (error : Option HandshakeError)
  /-- The bytes that were received, or none when the read has failed. -/
  | read (offset length : Nat) (received : Option Text) (world : World Request)
  | write (error : Bool)

variable {Request : Type}

def Completion.operation : Completion Request → Operation
  | .handshake _ => .handshake
  | .read offset length _ _ => .read offset length
  | .write _ => .write

/-- The bytes of a read are put into its region. There is no session afterwards
when they do not all lie in `data_`. -/
def Session.receive (session : Session) (offset length : Nat) (chunk : Text) :
    Option Session :=
  if 0 < chunk.length ∧ chunk.length ≤ length then
    if fits : offset + chunk.length ≤ maxLength then
      some { session with data := session.data.store offset chunk fits }
    else none
  else none

/-- The callback that was bound to the operation. -/
def Completion.callback (dispatcher : Dispatcher) (statics : Statics)
    (session : Session) :
    Completion Request → Option (Effect Request × Statics)
  | .handshake error => some (session.handleHandshake error, statics)
  | .read _ _ none world =>
      some (session.handleRead dispatcher world statics true)
  | .read offset length (some chunk) world =>
      (session.receive offset length chunk).map fun session =>
        session.handleRead dispatcher world statics false
  | .write error => some (session.handleWrite error, statics)

theorem sendResponse_cases (dispatcher : Dispatcher) (world : World Request)
    (statics : Statics) (session : Session) :
    (∃ crash, (session.sendResponse dispatcher world statics).1.ending =
        .crashed crash ∧
      ∀ call ∈ (session.sendResponse dispatcher world statics).1.calls,
        call.operation? = none) ∨
    ∃ before response,
      (session.sendResponse dispatcher world statics).1 =
        ⟨before ++ [.asyncWrite session.stream response],
          .returned { session with buffer := response }⟩ ∧
      ∀ call ∈ before, call.operation? = none := by
  unfold Session.sendResponse
  cases session.data.text? with
  | none => exact .inl ⟨.unterminated, rfl, by simp⟩
  | some text =>
      dsimp only
      cases world.put text with
      | none =>
          exact .inr ⟨[.parserPut text], Session.badRequest, rfl,
            by simp [Call.operation?]⟩
      | some request =>
          dsimp only
          cases dispatcher.getRequestHandler (world.target request) with
          | none => exact .inl ⟨.nullHandler, rfl, by simp [Call.operation?]⟩
          | some pointer =>
              dsimp only
              cases dispatcher.objects[pointer]? with
              | none =>
                  exact .inl ⟨.danglingHandler, rfl, by simp [Call.operation?]⟩
              | some handler =>
                  dsimp only
                  cases world.handleRequest handler statics request with
                  | none =>
                      exact .inl ⟨.exception, rfl, by simp [Call.operation?]⟩
                  | some response =>
                      dsimp only
                      cases world.connected with
                      | false =>
                          exact .inl ⟨.exception, rfl,
                            by simp [Call.operation?]⟩
                      | true =>
                          exact .inr ⟨[.parserPut text,
                            .handleRequest handler request], response, rfl,
                            by simp [Call.operation?]⟩

/-- What a callback has done by the time it ends, for each completion. -/
inductive Follows (session : Session) :
    Completion Request → Effect Request → Prop
  | crashed {completion : Completion Request} {calls : List (Call Request)}
      {crash : Crash} : Follows session completion ⟨calls, .crashed crash⟩
  | shaken {stream : Stream} {after : Session} :
      Follows session (.handshake none)
        ⟨[.asyncReadSome stream 0 maxLength], .returned after⟩
  | notShaken {error : HandshakeError} :
      Follows session (.handshake (some error)) ⟨[], .deleted⟩
  | append {offset length start : Nat} {chunk : Text} {world : World Request}
      {stream : Stream} {after : Session} :
      Follows session (.read offset length (some chunk) world)
        ⟨[.asyncReadSome stream start maxLength], .returned after⟩
  | respond {offset length : Nat} {chunk : Text} {world : World Request}
      {stream : Stream} {received after : Session}
      {before : List (Call Request)} {response : Response}
      (receives : session.receive offset length chunk = some received)
      (ended : received.endOfRequest = some true)
      (idle : before.filterMap Call.operation? = []) :
      Follows session (.read offset length (some chunk) world)
        ⟨before ++ [.asyncWrite stream response], .returned after⟩
  | notReceived {offset length : Nat} {world : World Request} :
      Follows session (.read offset length none world) ⟨[], .deleted⟩
  | written {stream : Stream} {after : Session} :
      Follows session (.write false) ⟨[.close stream], .returned after⟩
  | notWritten : Follows session (.write true) ⟨[], .deleted⟩

theorem callback_follows {dispatcher : Dispatcher}
    {statics lastStatics : Statics} {session : Session}
    {completion : Completion Request} {effect : Effect Request}
    (called : completion.callback dispatcher statics session =
      some (effect, lastStatics)) : Follows session completion effect := by
  cases completion with
  | handshake error =>
      cases called
      match error with
      | none => exact .shaken
      | some .httpRequest => exact .notShaken
      | some .other => exact .notShaken
  | write error =>
      cases called
      cases error
      · exact .written
      · exact .notWritten
  | read offset length received world =>
      cases received with
      | none =>
          cases called
          exact .notReceived
      | some chunk =>
          obtain ⟨after, receives, handled⟩ := Option.map_eq_some_iff.mp called
          rw [Session.handleRead, if_neg Bool.false_ne_true] at handled
          cases ending : after.endOfRequest with
          | none =>
              rw [ending] at handled
              cases handled
              exact .crashed
          | some ended =>
              rw [ending] at handled
              cases ended with
              | false =>
                  dsimp only at handled
                  unfold Session.appendData at handled
                  split at handled
                  next => cases handled; exact .crashed
                  next => cases handled; exact .append
              | true =>
                  have effectEq := congrArg Prod.fst handled
                  dsimp only at effectEq
                  obtain ⟨calls, final⟩ := effect
                  rcases sendResponse_cases dispatcher world statics after with
                    ⟨crash, crashes, _⟩ | ⟨before, response, responds, idle⟩
                  · rw [effectEq] at crashes
                    cases crashes
                    exact .crashed
                  · rw [effectEq] at responds
                    cases responds
                    exact .respond receives ending
                      (List.filterMap_eq_nil_iff.mpr idle)

namespace Connection

def allocated (session : Session) : Connection Request where
  session := session
  pending := []
  calls := []
  started := 0
  deletions := 0

/-- A crash ends the process, and no connection is left. -/
def perform (connection : Connection Request) (effect : Effect Request) :
    Option (Connection Request) :=
  let pending := connection.pending ++ effect.calls.filterMap Call.operation?
  let calls := connection.calls ++ effect.calls
  match effect.ending with
  | .returned session => some { connection with session, pending, calls }
  | .deleted =>
      some { connection with
        pending, calls, deletions := connection.deletions + 1 }
  | .crashed _ => none

def start (connection : Connection Request) : Option (Connection Request) :=
  { connection with started := connection.started + 1 }.perform
    connection.session.start

def complete (dispatcher : Dispatcher) (statics : Statics)
    (connection : Connection Request) (completion : Completion Request) :
    Option (Connection Request × Statics) :=
  if completion.operation ∈ connection.pending then
    match completion.callback dispatcher statics connection.session with
    | none => none
    | some (effect, statics) =>
        let pending := connection.pending.erase completion.operation
        ({ connection with pending }.perform effect).map (·, statics)
  else none

theorem start_returns (session : Session) :
    ∃ connection : Connection Request,
      (allocated session).start = some connection := by
  rw [start, allocated, Session.start]
  cases session.version <;> exact ⟨_, rfl⟩

end Connection

def Completes (dispatcher : Dispatcher)
    (state : Connection Request × Statics) (completion : Completion Request)
    (next : Connection Request × Statics) : Prop :=
  state.1.complete dispatcher state.2 completion = some next

/-! What a completion can have done, once for all invariants. -/

/-- The connection after a callback that has not crashed. -/
inductive Performed (before : Connection Request) (effect : Effect Request) :
    Connection Request → Prop
  | returned {session : Session} (ending : effect.ending = .returned session) :
      Performed before effect
        { before with
          session
          pending := before.pending ++ effect.calls.filterMap Call.operation?
          calls := before.calls ++ effect.calls }
  | deleted (ending : effect.ending = .deleted) :
      Performed before effect
        { before with
          pending := before.pending ++ effect.calls.filterMap Call.operation?
          calls := before.calls ++ effect.calls
          deletions := before.deletions + 1 }

theorem Performed.calls {before after : Connection Request}
    {effect : Effect Request} (performed : Performed before effect after) :
    after.calls = before.calls ++ effect.calls := by
  cases performed <;> rfl

theorem Performed.returned_eq {before after : Connection Request}
    {calls : List (Call Request)} {session : Session}
    (performed : Performed before ⟨calls, .returned session⟩ after) :
    after = { before with
      session
      pending := before.pending ++ calls.filterMap Call.operation?
      calls := before.calls ++ calls } := by
  cases performed with
  | returned ending =>
      cases ending
      rfl
  | deleted ending => contradiction

theorem Performed.deleted_eq {before after : Connection Request}
    {calls : List (Call Request)}
    (performed : Performed before ⟨calls, .deleted⟩ after) :
    after = { before with
      pending := before.pending ++ calls.filterMap Call.operation?
      calls := before.calls ++ calls
      deletions := before.deletions + 1 } := by
  cases performed with
  | returned ending => contradiction
  | deleted ending => rfl

theorem perform_iff {before after : Connection Request}
    {effect : Effect Request} :
    before.perform effect = some after ↔ Performed before effect after := by
  unfold Connection.perform
  constructor
  · intro performed
    cases ending : effect.ending with
    | returned session =>
        rw [ending] at performed
        cases performed
        exact .returned ending
    | deleted =>
        rw [ending] at performed
        cases performed
        exact .deleted ending
    | crashed crash => rw [ending] at performed; contradiction
  · rintro (ending | ending) <;> rw [ending]

theorem complete_iff {dispatcher : Dispatcher} {statics lastStatics : Statics}
    {before after : Connection Request} {completion : Completion Request} :
    before.complete dispatcher statics completion = some (after, lastStatics) ↔
      completion.operation ∈ before.pending ∧
      ∃ effect, completion.callback dispatcher statics before.session =
          some (effect, lastStatics) ∧
        Performed { before with
          pending := before.pending.erase completion.operation } effect
          after := by
  unfold Connection.complete
  constructor
  · intro completed
    split at completed
    next outstanding =>
      refine ⟨outstanding, ?_⟩
      cases called : completion.callback dispatcher statics before.session with
      | none => rw [called] at completed; contradiction
      | some result =>
          obtain ⟨effect, newStatics⟩ := result
          rw [called] at completed
          obtain ⟨performed, performs, equal⟩ :=
            Option.map_eq_some_iff.mp completed
          cases equal
          exact ⟨effect, rfl, perform_iff.mp performs⟩
    next => contradiction
  · rintro ⟨outstanding, effect, called, performed⟩
    rw [if_pos outstanding, called]
    exact Option.map_eq_some_iff.mpr
      ⟨after, perform_iff.mpr performed, rfl⟩

end HttpsServer.Serve
