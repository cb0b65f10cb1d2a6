import HttpsServer.Serve.Transcript

namespace HttpsServer.Serve

open Std
open HttpsServer.Data
open HttpsServer.Config
open HttpsServer.Dispatch

variable {Request : Type}

/-! A session that is served to its end. -/

/-- What is called to answer the text, the answer, and the statics after it. -/
inductive Handles (dispatcher : Dispatcher) (world : World Request)
    (statics : Statics) (text : Text) :
    List (Call Request) → Response → Statics → Prop
  | refused (refuses : world.put text = none) :
      Handles dispatcher world statics text [.parserPut text]
        Session.badRequest statics
  | handled {request : Request} {pointer : HandlerPtr}
      {handler : RequestHandler} {response : Response}
      (accepts : world.put text = some request)
      (routed : dispatcher.getRequestHandler (world.target request) =
        some pointer)
      (object : dispatcher.objects[pointer]? = some handler)
      (returns : world.handleRequest handler statics request = some response)
      (connected : world.connected = true) :
      Handles dispatcher world statics text
        [.parserPut text, .handleRequest handler request] response
        (statics.count (world.target request) response.result)

theorem Handles.sendResponse {dispatcher : Dispatcher} {world : World Request}
    {statics lastStatics : Statics} {text : Text} {asked : List (Call Request)}
    {response : Response} {session : Session}
    (handles : Handles dispatcher world statics text asked response lastStatics)
    (held : session.data.text? = some text) :
    session.sendResponse dispatcher world statics =
      (⟨asked ++ [.asyncWrite session.stream response],
        .returned { session with buffer := response }⟩, lastStatics) := by
  rw [Session.sendResponse, held]
  dsimp only
  cases handles with
  | refused refuses =>
      rw [refuses]
      rfl
  | handled accepts routed object returns connected =>
      rw [accepts]
      dsimp only
      rw [routed]
      dsimp only
      rw [object]
      dsimp only
      rw [returns]
      dsimp only
      rw [if_pos connected]
      rfl

/-- A location leads the target and the handler declared there comes back with a
response, to a peer that is still there. -/
structure Responds (info : TreeMap Text Text compare) (config : NginxConfig)
    (objects : List RequestHandler) (world : World Request) (statics : Statics)
    (request : Request) : Prop where
  location : ∃ path pointer handler response,
    LongestMatch config (world.target request) path ∧
    HandlerDeclared info config.statements objects path pointer ∧
    objects[pointer]? = some handler ∧
    world.handleRequest handler statics request = some response
  connected : world.connected = true

/-- The text is handled exactly when each request that the parser makes of it is
responded to. -/
theorem handles_iff {info lastInfo : TreeMap Text Text compare}
    {config : NginxConfig} {dispatcher : Dispatcher}
    (constructed : newDispatcher info config = .ok (dispatcher, lastInfo))
    {world : World Request} {statics : Statics} {text : Text} :
    (∃ asked response lastStatics,
      Handles dispatcher world statics text asked response lastStatics) ↔
    ∀ request, world.put text = some request →
      Responds info config dispatcher.objects world statics request := by
  constructor
  · rintro ⟨asked, response, lastStatics, handles⟩ request accepts
    cases handles with
    | refused refuses => cases refuses.symm.trans accepts
    | handled also routed object returns connected =>
        cases accepts.symm.trans also
        obtain ⟨path, longest, declared⟩ := routed_longest constructed routed
        exact ⟨⟨path, _, _, _, longest, declared, object, returns⟩, connected⟩
  · intro responds
    cases accepts : world.put text with
    | none => exact ⟨_, _, _, .refused accepts⟩
    | some request =>
        obtain ⟨⟨path, pointer, handler, response, longest, declared, object,
          returns⟩, connected⟩ := responds request accepts
        obtain ⟨found, routed⟩ :=
          (getRequestHandler_isSome_iff constructed (world.target request)).mpr
            ⟨path, longest.candidate, longest.nonempty, longest.isPrefix⟩
        obtain ⟨other, otherLongest, otherDeclared⟩ :=
          routed_longest constructed routed
        obtain rfl := longest.unique otherLongest
        obtain rfl := declared.unique otherDeclared
        exact ⟨_, _, _, .handled accepts routed object returns connected⟩

theorem Handles.answers {info lastInfo : TreeMap Text Text compare}
    {config : NginxConfig} {dispatcher : Dispatcher}
    (constructed : newDispatcher info config = .ok (dispatcher, lastInfo))
    {world : World Request} {statics lastStatics : Statics} {text : Text}
    {asked : List (Call Request)} {response : Response}
    (handles : Handles dispatcher world statics text asked response
      lastStatics) :
    Answers info config dispatcher.objects world statics text asked
      response := by
  cases handles with
  | refused refuses => exact .refused refuses
  | handled accepts routed object returns connected =>
      obtain ⟨path, longest, declared⟩ := routed_longest constructed routed
      exact .handled accepts longest declared object returns

theorem Receiving.respond {dispatcher : Dispatcher} {world : World Request}
    {statics lastStatics : Statics} {connection : Connection Request}
    {already chunk : Text} {asked : List (Call Request)} {response : Response}
    (receiving : Receiving connection already) (nonempty : chunk ≠ [])
    (fits : Fits (already ++ chunk)) (ended : isEnded (already ++ chunk) = true)
    (handles : Handles dispatcher world statics (already ++ chunk) asked response
      lastStatics) :
    ∃ next, Completes dispatcher (connection, statics)
        (.read already.length maxLength (some chunk) world)
        (next, lastStatics) ∧
      next.pending = [.write] ∧
      next.session.version = connection.session.version ∧
      next.calls = connection.calls ++
        (asked ++ [.asyncWrite connection.session.stream response]) := by
  obtain ⟨clean, short⟩ := fits
  obtain ⟨after, holds, version, called⟩ :=
    receiving.callback dispatcher world statics nonempty clean short
  rw [if_pos ended, handles.sendResponse (holds.text? clean short)] at called
  have stream : after.stream = connection.session.stream := by
    rw [Session.stream_version, Session.stream_version, version]
  have erased : connection.pending.erase
      (.read already.length maxLength) = [] := by
    rw [receiving.pending, List.erase_cons_head]
  have idle : asked.filterMap Call.operation? = [] := by
    cases handles <;> rfl
  refine ⟨_, complete_iff.mpr ⟨?_, _, called, .returned rfl⟩, ?_, version, ?_⟩
  · rw [receiving.pending]
    exact List.mem_singleton_self _
  · dsimp only
    rw [operations_write idle]
    exact congrArg (· ++ _) erased
  · rw [stream]

theorem writing_closes {connection : Connection Request}
    (writing : connection.pending = [.write]) (dispatcher : Dispatcher)
    (statics : Statics) :
    ∃ next, Completes dispatcher (connection, statics) (.write false)
        (next, statics) ∧
      next.pending = [] ∧
      next.calls = connection.calls ++ [.close connection.session.stream] := by
  refine ⟨_, complete_iff.mpr ⟨?_, _, rfl, .returned rfl⟩, ?_, rfl⟩
  · rw [writing]
    exact List.mem_singleton_self _
  · change connection.pending.erase .write ++ [] = []
    rw [writing]
    rfl

/-- The completions of a session whose last read brings the empty line. -/
def servingCompletions (before : List (Text × World Request)) (chunk : Text)
    (world : World Request) : List (Completion Request) :=
  readCompletions [] before ++
    [.read (bytes before).length maxLength (some chunk) world, .write false]

theorem Opened.serve {dispatcher : Dispatcher} {version : Version}
    {connection : Connection Request}
    (opened : Opened dispatcher version connection) {statics : Statics}
    {before : List (Text × World Request)} {chunk : Text}
    {world : World Request} {asked : List (Call Request)} {response : Response}
    {lastStatics : Statics}
    (nonempty : ∀ read ∈ before ++ [(chunk, world)], read.1 ≠ [])
    (fits : Fits (bytes before ++ chunk))
    (unended : ∀ done rest, before = done ++ rest →
      isEnded (bytes done) = false)
    (ended : isEnded (bytes before ++ chunk) = true)
    (handles : Handles dispatcher world statics (bytes before ++ chunk) asked
      response lastStatics) :
    ∃ last, Run (Completes dispatcher) (connection, statics)
        (servingCompletions before chunk world) (last, lastStatics) ∧
      last.pending = [] ∧
      last.calls = connection.calls ++ appendCalls version.stream [] before ++
        asked ++ [.asyncWrite version.stream response,
          .close version.stream] := by
  obtain ⟨receiving, sameVersion⟩ := opened.receiving
  obtain ⟨reading, reads, stillReceiving, readingVersion, readingCalls⟩ :=
    receiving.run dispatcher statics
      (fun read member => nonempty read (List.mem_append_left _ member))
      fits.before.1 fits.before.2
      (fun done rest position _ => unended done rest position)
  have chunkNonempty : chunk ≠ [] :=
    nonempty (chunk, world) (List.mem_append_right _ (List.mem_singleton_self _))
  rw [List.nil_append] at stillReceiving
  obtain ⟨writing, responds, pending, writingVersion, writingCalls⟩ :=
    stillReceiving.respond chunkNonempty fits ended handles
  obtain ⟨closed, closes, idle, closedCalls⟩ :=
    writing_closes pending dispatcher lastStatics
  refine ⟨closed, reads.append (.cons responds (.single closes)), idle, ?_⟩
  rw [closedCalls, writingCalls, readingCalls, Session.stream_version,
    Session.stream_version, Session.stream_version, writingVersion,
    readingVersion, sameVersion]
  simp only [List.append_assoc, List.cons_append, List.nil_append]

/-! The same session among all others of the process. -/

/-- One server has made steps for one session: its other sessions are as before,
and so is the other server. -/
structure Continues (version : Version) (session : SessionPtr)
    (connection : Connection Request) (before after : Process Request) :
    Prop where
  dispatcher : (after.component version).dispatcher =
    (before.component version).dispatcher
  found : (after.component version).connections[session]? = some connection
  others : ∀ other : SessionPtr, other ≠ session →
    ∀ kept, (before.component version).connections[other]? = some kept →
      (after.component version).connections[other]? = some kept
  server : ∀ other ≠ version, after.component other = before.component other

theorem Continues.trans {version : Version} {session : SessionPtr}
    {middleConnection lastConnection : Connection Request}
    {before middle after : Process Request}
    (left : Continues version session middleConnection before middle)
    (right : Continues version session lastConnection middle after) :
    Continues version session lastConnection before after where
  dispatcher := right.dispatcher.trans left.dispatcher
  found := right.found
  others other different kept held :=
    right.others other different kept (left.others other different kept held)
  server other different :=
    (right.server other different).trans (left.server other different)

theorem Process.step_complete {process : Process Request} {version : Version}
    {session : SessionPtr} {connection next : Connection Request}
    {completion : Completion Request} {statics : Statics}
    (found : (process.component version).connections[session]? =
      some connection)
    (completes : Completes (process.component version).dispatcher
      (connection, process.shared) completion (next, statics)) :
    ∃ after, Process.Steps process (version, .complete session completion)
        after ∧ after.shared = statics ∧
      Continues version session next process after := by
  have step : Serve.Steps
      { process.component version with statics := process.shared }
      (.complete session completion) _ :=
    steps_complete.mpr ⟨connection, next, statics, found, completes, rfl⟩
  refine ⟨_, .turn ⟨step, rfl⟩, rfl, ?_, ?_, ?_, ?_⟩
  · dsimp only
    rw [Function.update_self]
  · dsimp only
    rw [Function.update_self, getElem?_set_found found, if_pos rfl]
  · intro other different kept held
    dsimp only
    rw [Function.update_self, getElem?_set_found found,
      if_neg (Ne.symm different)]
    exact held
  · intro other different
    exact Function.update_of_ne different _ _

/-- The callbacks of one session, run within the process. -/
theorem Process.run_completes {process : Process Request} {version : Version}
    {session : SessionPtr} {connection last : Connection Request}
    {completions : List (Completion Request)} {statics : Statics}
    (found : (process.component version).connections[session]? =
      some connection)
    (run : Run (Completes (process.component version).dispatcher)
      (connection, process.shared) completions (last, statics)) :
    ∃ after, Run Process.Steps process
        (completions.map fun completion =>
          (version, .complete session completion)) after ∧
      after.shared = statics ∧ Continues version session last process after := by
  induction completions generalizing process connection with
  | nil =>
      cases run
      exact ⟨process, .nil process, rfl,
        ⟨rfl, found, fun _ _ _ held => held, fun _ _ => rfl⟩⟩
  | cons completion completions induction =>
      cases run with
      | @cons _ middle _ _ _ head tail =>
          obtain ⟨middleConnection, middleStatics⟩ := middle
          obtain ⟨middle, step, shared, continues⟩ :=
            Process.step_complete found head
          rw [← shared, ← continues.dispatcher] at tail
          obtain ⟨after, rest, lastShared, restContinues⟩ :=
            induction continues.found tail
          exact ⟨after, .cons step rest, lastShared,
            continues.trans restContinues⟩

theorem Process.step_accept {process : Process Request} {version : Version}
    {session : SessionPtr} {connection : Connection Request}
    (accepting : session ∈ (process.component version).accepting)
    (found : (process.component version).connections[session]? =
      some connection) (memory : CharArray maxLength) :
    ∃ after, Process.Steps process (version, .accept session false memory)
        after ∧ after.shared = process.shared ∧
      session ∈ (after.component version).spawned ∧
      Continues version session connection process after := by
  have kept : ∀ {other : SessionPtr} {held : Connection Request}
      (more : List (Connection Request)),
      (process.component version).connections[other]? = some held →
      ((process.component version).connections ++ more)[other]? =
        some held := by
    intro other held more present
    obtain ⟨bound, _⟩ := List.getElem?_eq_some_iff.mp present
    rw [List.getElem?_append_left bound, present]
  have step : Serve.Steps
      { process.component version with statics := process.shared }
      (.accept session false memory) _ := if_pos accepting
  refine ⟨_, .turn ⟨step, rfl⟩, rfl, ?_, ?_, ?_, ?_, ?_⟩
  · dsimp only
    rw [Function.update_self]
    exact List.mem_append_right _ (List.mem_singleton_self _)
  · dsimp only
    rw [Function.update_self]
  · dsimp only
    rw [Function.update_self]
    exact kept _ found
  · intro other _ held present
    dsimp only
    rw [Function.update_self]
    exact kept _ present
  · intro other different
    exact Function.update_of_ne different _ _

theorem Process.step_start {process : Process Request} {version : Version}
    {session : SessionPtr} {connection started : Connection Request}
    (spawned : session ∈ (process.component version).spawned)
    (found : (process.component version).connections[session]? =
      some connection) (starts : connection.start = some started) :
    ∃ after, Process.Steps process (version, .start session) after ∧
      after.shared = process.shared ∧
      Continues version session started process after := by
  have step : Serve.Steps
      { process.component version with statics := process.shared }
      (.start session) _ :=
    steps_start.mpr ⟨spawned, connection, started, found, starts, rfl⟩
  refine ⟨_, .turn ⟨step, rfl⟩, rfl, ?_, ?_, ?_, ?_⟩
  · dsimp only
    rw [Function.update_self]
  · dsimp only
    rw [Function.update_self, getElem?_set_found found, if_pos rfl]
  · intro other different kept held
    dsimp only
    rw [Function.update_self, getElem?_set_found found,
      if_neg (Ne.symm different)]
    exact held
  · intro other different
    exact Function.update_of_ne different _ _

/-- The session that waits for a client is as the constructor has left it. -/
theorem Isolated.waiting_fresh {version : Version} {dispatcher : Dispatcher}
    {done : List (Event Request)} {server : Server Request}
    {phases : List Phase}
    (isolated : Isolated version dispatcher done server phases)
    {session : SessionPtr} {connection : Connection Request}
    (found : server.connections[session]? = some connection)
    (held : phases[session]? = some .waiting) : connection.Fresh version := by
  obtain ⟨fresh, isFresh, lived⟩ :=
    isolated.lived session connection .waiting found held
  obtain ⟨same, _⟩ := lived.unreached fun before event lives =>
    lives.moves.next_ne_waiting rfl
  cases same
  exact isFresh

def openingCompletions : Version → List (Completion Request)
  | .http => []
  | .https => [.handshake none]

theorem Connection.Fresh.open {version : Version} {connection : Connection Request}
    (fresh : connection.Fresh version) (dispatcher : Dispatcher)
    (statics : Statics) :
    ∃ started opened, connection.start = some started ∧
      Run (Completes dispatcher) (started, statics)
        (openingCompletions version) (opened, statics) ∧
      Opened dispatcher version opened ∧ opened.calls = asking version [] := by
  obtain ⟨memory, rfl⟩ := fresh
  cases version with
  | http =>
      have starts : (Connection.allocated (newSession .http memory) :
          Connection Request).start = some _ := rfl
      exact ⟨_, _, starts, .nil _, .http rfl starts, rfl⟩
  | https =>
      obtain ⟨started, starts, pending, calls⟩ :
          ∃ started : Connection Request,
            (Connection.allocated (newSession .https memory)).start =
              some started ∧
            started.pending = [.handshake] ∧
            started.calls = [.asyncHandshake] := ⟨_, rfl, rfl, rfl⟩
      obtain ⟨opened, shaken, openedCalls⟩ : ∃ opened,
          Completes dispatcher (started, statics) (.handshake none)
            (opened, statics) ∧
          opened.calls = started.calls ++
            [.asyncReadSome .sslsocket 0 maxLength] := by
        refine ⟨_, complete_iff.mpr ⟨?_, _, rfl, .returned rfl⟩, rfl⟩
        rw [pending]
        exact List.mem_singleton_self _
      refine ⟨started, opened, starts, .single shaken,
        .https rfl starts shaken, ?_⟩
      rw [openedCalls, calls]
      rfl

/-- The events of a session up to its first read. -/
def openingEvents (version : Version) (session : SessionPtr) :
    List (Version × Event Request) :=
  (version, .accept session false (.zeroed maxLength)) ::
    (version, .start session) ::
    (openingCompletions version).map fun completion =>
      (version, .complete session completion)

/-- The events of a session, from its accept to the end of its write. -/
def servingEvents (version : Version) (session : SessionPtr)
    (before : List (Text × World Request)) (chunk : Text)
    (world : World Request) : List (Version × Event Request) :=
  openingEvents version session ++
    (servingCompletions before chunk world).map fun completion =>
      (version, .complete session completion)

/-- The server waits for a client with this session. -/
structure Waits (version : Version) (dispatcher : Dispatcher)
    (session : SessionPtr) (process : Process Request) : Prop where
  dispatcher : (process.component version).dispatcher = dispatcher
  accepting : session ∈ (process.component version).accepting
  fresh : ∃ connection,
    (process.component version).connections[session]? = some connection ∧
    connection.Fresh version

theorem Process.opens {process : Process Request} {version : Version}
    {dispatcher : Dispatcher} {session : SessionPtr}
    (waits : Waits version dispatcher session process) :
    ∃ after opened, Run Process.Steps process (openingEvents version session)
        after ∧ after.shared = process.shared ∧
      Continues version session opened process after ∧
      Opened dispatcher version opened ∧ opened.calls = asking version [] := by
  obtain ⟨connection, found, fresh⟩ := waits.fresh
  obtain ⟨accepted, accepts, acceptedShared, spawned, acceptedContinues⟩ :=
    Process.step_accept waits.accepting found (.zeroed maxLength)
  obtain ⟨started, opened, starts, opens, isOpened, openedCalls⟩ :=
    fresh.open dispatcher process.shared
  obtain ⟨running, begins, runningShared, runningContinues⟩ :=
    Process.step_start spawned acceptedContinues.found starts
  have continues := acceptedContinues.trans runningContinues
  have shared := runningShared.trans acceptedShared
  have same := continues.dispatcher.trans waits.dispatcher
  rw [← shared, ← same] at opens
  obtain ⟨after, rest, afterShared, restContinues⟩ :=
    Process.run_completes continues.found opens
  exact ⟨after, opened, .cons accepts (.cons begins rest),
    afterShared.trans shared, continues.trans restContinues, isOpened,
    openedCalls⟩

theorem Process.serve {process : Process Request} {version : Version}
    {dispatcher : Dispatcher} {session : SessionPtr}
    (waits : Waits version dispatcher session process)
    {before : List (Text × World Request)} {chunk : Text}
    {world : World Request} {asked : List (Call Request)} {response : Response}
    {lastStatics : Statics}
    (nonempty : ∀ read ∈ before ++ [(chunk, world)], read.1 ≠ [])
    (fits : Fits (bytes before ++ chunk))
    (unended : ∀ done rest, before = done ++ rest →
      isEnded (bytes done) = false)
    (ended : isEnded (bytes before ++ chunk) = true)
    (handles : Handles dispatcher world process.shared (bytes before ++ chunk)
      asked response lastStatics) :
    ∃ after served, Run Process.Steps process
        (servingEvents version session before chunk world) after ∧
      Continues version session served process after ∧ served.pending = [] ∧
      served.calls = asking version [] ++
        appendCalls version.stream [] before ++ asked ++
        [.asyncWrite version.stream response, .close version.stream] ∧
      after.shared = lastStatics := by
  obtain ⟨middle, opened, opens, shared, continues, isOpened, openedCalls⟩ :=
    Process.opens waits
  obtain ⟨served, serves, idle, calls⟩ :=
    isOpened.serve nonempty fits unended ended handles
  rw [← shared, ← continues.dispatcher.trans waits.dispatcher] at serves
  obtain ⟨after, rest, lastShared, restContinues⟩ :=
    Process.run_completes continues.found serves
  refine ⟨after, served, opens.append rest, continues.trans restContinues, idle,
    ?_, lastShared⟩
  rw [calls, openedCalls]

/-- All of a request in one read. -/
theorem Process.serve_read {process : Process Request} {version : Version}
    {dispatcher : Dispatcher} {session : SessionPtr}
    (waits : Waits version dispatcher session process) {chunk : Text}
    {world : World Request} {asked : List (Call Request)} {response : Response}
    {lastStatics : Statics} (fits : Fits chunk) (ended : isEnded chunk = true)
    (handles : Handles dispatcher world process.shared chunk asked response
      lastStatics) :
    ∃ after served, Run Process.Steps process
        (servingEvents version session [] chunk world) after ∧
      Continues version session served process after ∧
      served.calls = asking version [] ++ asked ++
        [.asyncWrite version.stream response, .close version.stream] ∧
      after.shared = lastStatics := by
  have nonempty : ∀ read ∈ [] ++ [(chunk, world)], read.1 ≠ [] := by
    intro read member empty
    rw [List.mem_singleton.mp member] at empty
    rw [show chunk = [] from empty] at ended
    contradiction
  have unended : ∀ done rest, ([] : List (Text × World Request)) = done ++ rest →
      isEnded (bytes done) = false := by
    intro done rest position
    rw [(List.nil_eq_append_iff.mp position).1]
    rfl
  obtain ⟨after, served, serves, continues, _, calls, shared⟩ :=
    Process.serve waits nonempty fits unended ended handles
  rw [appendCalls, List.append_nil] at calls
  exact ⟨after, served, serves, continues, calls, shared⟩

/-- Both servers wait with their first session when they are constructed. -/
theorem Process.newProcess_waits {info middleInfo : TreeMap Text Text compare}
    {config : NginxConfig} {dispatcher : Dispatcher}
    (constructs : newDispatcher info config = .ok (dispatcher, middleInfo))
    (statics : Statics) (memory : Version → CharArray maxLength) :
    ∃ (first : Process Request) (lastInfo : TreeMap Text Text compare),
      newProcess statics info memory config = .ok (first, lastInfo) ∧
      first.shared = statics ∧
      ∀ version, Waits version dispatcher 0 first := by
  obtain ⟨lastInfo, constructed⟩ := newProcess_ok constructs statics memory
  exact ⟨_, lastInfo, constructed, rfl, fun version =>
    ⟨rfl, List.mem_singleton_self 0, _, rfl, memory version, rfl⟩⟩

/-- In every state that the two servers reach, each of them can serve one more
client to its end, whatever the other sessions are doing and however the bytes of
the request are split, when the handler of that request comes back. -/
theorem process_serves {statics : Statics}
    {info lastInfo : TreeMap Text Text compare}
    {memory : Version → CharArray maxLength} {config : NginxConfig}
    {first last : Process Request} {events : List (Version × Event Request)}
    (constructed : Process.newProcess statics info memory config =
      .ok (first, lastInfo))
    (run : Run Process.Steps first events last) (version : Version)
    {before : List (Text × World Request)} {chunk : Text}
    {world : World Request}
    (nonempty : ∀ read ∈ before ++ [(chunk, world)], read.1 ≠ [])
    (fits : Fits (bytes before ++ chunk))
    (unended : ∀ done rest, before = done ++ rest →
      isEnded (bytes done) = false)
    (ended : isEnded (bytes before ++ chunk) = true)
    (responds : ∀ request, world.put (bytes before ++ chunk) = some request →
      Responds info config (last.component version).dispatcher.objects world
        last.shared request) :
    ∃ session next connection asked response,
      Run Process.Steps last
        (servingEvents version session before chunk world) next ∧
      Continues version session connection last next ∧
      connection.pending = [] ∧
      Answers info config (last.component version).dispatcher.objects world
        last.shared (bytes before ++ chunk) asked response ∧
      connection.calls = asking version [] ++
        appendCalls version.stream [] before ++ asked ++
        [.asyncWrite version.stream response, .close version.stream] := by
  obtain ⟨dispatcher, _, constructs, each⟩ := isolated_process constructed run
  obtain ⟨phases, represents, isolated⟩ := each version
  obtain ⟨_, advances, safeRepresents⟩ :=
    represents_process constructed run version
  obtain ⟨session, connection, accepting, found, _⟩ :=
    (safeRepresents.safe_run advances).accepting
  have member : session ∈ (last.component version).accepting := by
    rw [accepting]
    exact List.mem_singleton_self _
  have fresh := isolated.waiting_fresh found
    ((mem_iff_of_count (represents.accepting session)).mp member)
  rw [isolated.constant.1] at responds ⊢
  obtain ⟨asked, response, lastStatics, handles⟩ :=
    (handles_iff constructs).mpr responds
  have waits : Waits version dispatcher session last :=
    ⟨isolated.constant.1, member, connection, found, fresh⟩
  obtain ⟨next, served, serves, continues, idle, calls, _⟩ :=
    Process.serve waits nonempty fits unended ended handles
  exact ⟨session, next, served, asked, response, serves, continues, idle,
    handles.answers constructs, calls⟩

theorem process_serves_root :
    ∃ (first next : Process Text) (info : TreeMap Text Text compare)
      (session : SessionPtr) (connection : Connection Text)
      (asked : List (Call Text)) (response : Response),
      Process.newProcess ⟨0, ∅⟩ ∅ (fun _ => .zeroed maxLength) (.mk []) =
        .ok (first, info) ∧
      Run Process.Steps first
        (servingEvents .https session [] rootRequest lineWorld) next ∧
      Answers ∅ (.mk []) (first.component .https).dispatcher.objects
        lineWorld first.shared rootRequest asked response ∧
      connection.calls = asking .https [] ++ asked ++
        [.asyncWrite .sslsocket response, .close .sslsocket] := by
  have constructed : Process.newProcess ⟨0, ∅⟩ ∅
      (fun _ => .zeroed maxLength) (.mk []) = .ok ((_ : Process Text), _) := rfl
  have nonempty : ∀ read ∈ ([] : List (Text × World Text)) ++
      [(rootRequest, lineWorld)], read.1 ≠ [] := by decide
  have fits : Fits (bytes ([] : List (Text × World Text)) ++ rootRequest) :=
    ⟨by decide, by decide⟩
  have unended : ∀ done rest, ([] : List (Text × World Text)) = done ++ rest →
      isEnded (bytes done) = false := by
    intro done rest position
    rw [(List.nil_eq_append_iff.mp position).1]
    rfl
  have accepted : lineWorld.put rootRequest = some "/a".toList := by decide
  have longest : LongestMatch (.mk []) "/a".toList "/".toList :=
    ⟨List.mem_cons_self, by decide, (root_prefix_iff _).mpr (by decide),
      fun other member _ => by rw [List.mem_singleton.mp member]⟩
  obtain ⟨session, next, connection, asked, response, serves, _, _,
      answers, calls⟩ :=
    process_serves constructed (.nil _) .https nonempty fits unended (by decide)
      (by
        intro request accepts
        obtain rfl := Option.some.inj (accepted.symm.trans accepts)
        exact ⟨⟨_, _, _, _, longest, .root rfl, rfl, rfl⟩, rfl⟩)
  rw [appendCalls, List.append_nil] at calls
  exact ⟨_, next, _, session, connection, asked, response, constructed, serves,
    answers, calls⟩

end HttpsServer.Serve
