import HttpsServer.Serve.Connection

namespace HttpsServer.Serve

open Std
open HttpsServer.Data
open HttpsServer.Config
open HttpsServer.Dispatch

variable {Request : Type}

/-- A session pointer, as the number of the session among all those that the
server has allocated. -/
abbrev SessionPtr := Nat

/-- The server with every session it has allocated, the accepts that are
outstanding, and the threads that have not yet called `start`. -/
structure Server (Request : Type) where
  version : Version
  dispatcher : Dispatcher
  statics : Statics
  connections : List (Connection Request)
  accepting : List SessionPtr
  spawned : List SessionPtr

/-- The constructor leaves `data_` as the memory was. -/
def newSession (version : Version) (memory : CharArray maxLength) : Session where
  version := version
  data := memory
  buffer := ⟨200, []⟩

namespace Server

/-- A new session is allocated, and `async_accept` is called for it. -/
def startAccept (server : Server Request) (memory : CharArray maxLength) :
    Server Request :=
  let newConnection := .allocated (newSession server.version memory)
  { server with
    connections := server.connections ++ [newConnection]
    accepting := server.accepting ++ [server.connections.length] }

def handleAccept (server : Server Request) (session : SessionPtr) (error : Bool)
    (memory : CharArray maxLength) : Server Request :=
  if error then
    let connections := server.connections.modify session fun connection =>
      { connection with deletions := connection.deletions + 1 }
    { server with connections }.startAccept memory
  else
    let spawned := server.spawned ++ [session]
    { server with spawned }.startAccept memory

/-- The constructors that `main` uses: the one without a version is that for
http. -/
def newServer (version : Version) (statics : Statics)
    (handlerInfo : TreeMap Text Text compare) (memory : CharArray maxLength)
    (config : NginxConfig) :
    Except Fault (Server Request × TreeMap Text Text compare) := do
  let (dispatcher, handlerInfo) ← newDispatcher handlerInfo config
  let server := ⟨version, dispatcher, statics, [], [], []⟩
  .ok (startAccept server memory, handlerInfo)

end Server

/-- What the io_service reports, and the threads that get to run. -/
inductive Event (Request : Type) where
  | accept (session : SessionPtr) (error : Bool) (memory : CharArray maxLength)
  /-- The thread of `start_session`. -/
  | start (session : SessionPtr)
  | complete (session : SessionPtr) (completion : Completion Request)

namespace Server

/-- Nothing follows an event that is not outstanding or that ends the process. -/
def step (server : Server Request) : Event Request → Option (Server Request)
  | .accept session error memory =>
      if session ∈ server.accepting then
        let accepting := server.accepting.erase session
        some ({ server with accepting }.handleAccept session error memory)
      else none
  | .start session =>
      if session ∈ server.spawned then do
        let connection ← server.connections[session]?
        let connection ← connection.start
        some { server with
          connections := server.connections.set session connection
          spawned := server.spawned.erase session }
      else none
  | .complete session completion => do
      let connection ← server.connections[session]?
      let (connection, statics) ←
        connection.complete server.dispatcher server.statics completion
      some { server with
        statics
        connections := server.connections.set session connection }

end Server

def Steps (server : Server Request) (event : Event Request)
    (next : Server Request) : Prop :=
  server.step event = some next

theorem steps_accept {server next : Server Request} {session : SessionPtr}
    {error : Bool} {memory : CharArray maxLength}
    (step : Steps server (.accept session error memory) next) :
    session ∈ server.accepting ∧
      next = { server with
        accepting := server.accepting.erase session }.handleAccept session error
          memory := by
  by_cases outstanding : session ∈ server.accepting
  · rw [Steps, Server.step, if_pos outstanding] at step
    exact ⟨outstanding, (Option.some.inj step).symm⟩
  · rw [Steps, Server.step, if_neg outstanding] at step
    contradiction

theorem steps_start {server next : Server Request} {session : SessionPtr} :
    Steps server (.start session) next ↔
      session ∈ server.spawned ∧ ∃ before after,
        server.connections[session]? = some before ∧
        before.start = some after ∧
        next = { server with
          connections := server.connections.set session after
          spawned := server.spawned.erase session } := by
  rw [Steps, Server.step]
  constructor
  · intro step
    by_cases outstanding : session ∈ server.spawned
    · rw [if_pos outstanding] at step
      obtain ⟨before, found, step⟩ := Option.bind_eq_some_iff.mp step
      obtain ⟨after, started, step⟩ := Option.bind_eq_some_iff.mp step
      cases step
      exact ⟨outstanding, before, after, found, started, rfl⟩
    · rw [if_neg outstanding] at step
      contradiction
  · rintro ⟨outstanding, before, after, found, started, rfl⟩
    rw [if_pos outstanding]
    exact Option.bind_eq_some_iff.mpr ⟨before, found,
      Option.bind_eq_some_iff.mpr ⟨after, started, rfl⟩⟩

theorem steps_complete {server next : Server Request} {session : SessionPtr}
    {completion : Completion Request} :
    Steps server (.complete session completion) next ↔
      ∃ before after statics, server.connections[session]? = some before ∧
        Completes server.dispatcher (before, server.statics) completion
          (after, statics) ∧
        next = { server with
          statics
          connections := server.connections.set session after } := by
  constructor
  · intro step
    obtain ⟨before, found, step⟩ := Option.bind_eq_some_iff.mp step
    obtain ⟨⟨after, statics⟩, completed, step⟩ :=
      Option.bind_eq_some_iff.mp step
    cases step
    exact ⟨before, after, statics, found, completed, rfl⟩
  · rintro ⟨before, after, statics, found, completed, rfl⟩
    exact Option.bind_eq_some_iff.mpr ⟨before, found,
      Option.bind_eq_some_iff.mpr ⟨(after, statics), completed, rfl⟩⟩

end HttpsServer.Serve
