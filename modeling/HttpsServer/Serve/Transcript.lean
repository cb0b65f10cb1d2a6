import HttpsServer.Dispatch.Routing
import HttpsServer.Serve.Delivery

namespace HttpsServer.Serve

open Std
open HttpsServer.Data
open HttpsServer.Config
open HttpsServer.Dispatch

variable {Request : Type}

/-! The calls of a session, phase by phase. -/

def Version.stream : Version → Stream
  | .http => .socket
  | .https => .sslsocket

theorem Session.stream_version (session : Session) :
    session.stream = session.version.stream := by
  rw [Session.stream]
  cases session.version <;> rfl

def opening : Version → List (Call Request)
  | .http => []
  | .https => [.asyncHandshake]

/-- The calls of a session that has asked for its bytes: first into the beginning
of `data_`, then wherever its text ended. -/
def asking (version : Version) (offsets : List Nat) : List (Call Request) :=
  opening version ++ (0 :: offsets).map fun offset =>
    .asyncReadSome version.stream offset maxLength

/-- Where the text in `data_` ends behind each of the chunks. -/
def textEnds (length : Nat) : List Text → List Nat
  | [] => []
  | chunk :: chunks =>
      (length + chunk.length) :: textEnds (length + chunk.length) chunks

theorem textEnds_snoc (length : Nat) (chunks : List Text) (chunk : Text) :
    textEnds length (chunks ++ [chunk]) =
      textEnds length chunks ++
        [length + chunks.flatten.length + chunk.length] := by
  induction chunks generalizing length with
  | nil => rfl
  | cons first chunks induction =>
      rw [List.cons_append, textEnds, textEnds, induction, List.flatten_cons,
        List.length_append, List.cons_append, Nat.add_assoc length]

def readEnds (events : List (Event Request)) : List Nat :=
  textEnds 0 (events.filterMap Event.chunk?)

theorem readEnds_snoc {done : List (Event Request)} {event : Event Request}
    {chunk : Text} (brings : event.chunk? = some chunk) :
    readEnds (done ++ [event]) =
      readEnds done ++ [(delivered (done ++ [event])).length] := by
  rw [readEnds, List.filterMap_append, List.filterMap_cons_some brings,
    List.filterMap_nil, textEnds_snoc, delivered_snoc, brings, Nat.zero_add,
    List.length_append]
  rfl

/-- What is called to answer the text, and the answer. -/
inductive Answers (info : TreeMap Text Text compare) (config : NginxConfig)
    (objects : List RequestHandler) (world : World Request) (statics : Statics)
    (text : Text) : List (Call Request) → Response → Prop
  | refused (refuses : world.put text = none) :
      Answers info config objects world statics text [.parserPut text]
        Session.badRequest
  | handled {request : Request} {path : Text} {pointer : HandlerPtr}
      {handler : RequestHandler} {response : Response}
      (accepts : world.put text = some request)
      (longest : LongestMatch config (world.target request) path)
      (declared : HandlerDeclared info config.statements objects path pointer)
      (object : objects[pointer]? = some handler)
      (returns : world.handleRequest handler statics request = some response) :
      Answers info config objects world statics text
        [.parserPut text, .handleRequest handler request] response

/-- The calls that a session has made, with its own events and its phase. As long as
the bytes of its reads fit, each read is asked for where they end, after one that
has brought no empty line, and the parser is given all of them. -/
inductive Transcript (info : TreeMap Text Text compare) (config : NginxConfig)
    (objects : List RequestHandler) (version : Version) :
    List (Event Request) → Phase → List (Call Request) → Prop
  | waiting : Transcript info config objects version [] .waiting []
  | spawned {session : SessionPtr} {memory : CharArray maxLength} :
      Transcript info config objects version [.accept session false memory]
        .spawned []
  | handshaking {done : List (Event Request)} (secure : version = .https)
      (unread : done.filterMap Event.chunk? = []) :
      Transcript info config objects version done .handshaking
        [.asyncHandshake]
  | reading {done : List (Event Request)} (offsets : List Nat)
      (asks : Fits (delivered done) →
        offsets = readEnds done ∧ isEnded (delivered done) = false) :
      Transcript info config objects version done .reading
        (asking version offsets)
  | writing {done : List (Event Request)} {session : SessionPtr}
      {offset length : Nat} {chunk text : Text} {world : World Request}
      {statics : Statics} {offsets : List Nat} {asked : List (Call Request)}
      {response : Response}
      (asks : Fits (delivered done ++ chunk) →
        offsets = readEnds done ∧ isEnded (delivered done) = false ∧
        text = delivered done ++ chunk)
      (ended : isEnded text = true)
      (answers : Answers info config objects world statics text asked response) :
      Transcript info config objects version
        (done ++ [.complete session (.read offset length (some chunk) world)])
        .writing
        (asking version offsets ++ asked ++
          [.asyncWrite version.stream response])
  | finished {done : List (Event Request)} {session : SessionPtr}
      {calls : List (Call Request)}
      (writing : Transcript info config objects version done .writing calls) :
      Transcript info config objects version
        (done ++ [.complete session (.write false)]) .finished
        (calls ++ [.close version.stream])
  | deleted {done : List (Event Request)} {event : Event Request}
      {phase : Phase} {calls : List (Call Request)}
      (before : Transcript info config objects version done phase calls)
      (running : phase ≠ .finished) (fails : event.label.2.failed = true) :
      Transcript info config objects version (done ++ [event]) .deleted calls

theorem routed_longest {info lastInfo : TreeMap Text Text compare}
    {config : NginxConfig} {dispatcher : Dispatcher}
    (constructed : newDispatcher info config = .ok (dispatcher, lastInfo))
    {uri : Text} {pointer : HandlerPtr}
    (routed : dispatcher.getRequestHandler uri = some pointer) :
    ∃ path, LongestMatch config uri path ∧
      HandlerDeclared info config.statements dispatcher.objects path pointer := by
  have contains := newDispatcher_contains constructed
  rcases getRequestHandler_cases dispatcher uri with
    ⟨path, found, result, nonempty, entry, isPrefix, maximal⟩ | ⟨result, _⟩
  · rw [result] at routed
    cases routed
    refine ⟨path, ⟨?_, nonempty, isPrefix, ?_⟩,
      newDispatcher_declared constructed entry⟩
    · exact (contains path).mp (contains_of_getElem? entry)
    · exact fun other candidate => maximal other ((contains other).mpr candidate)
  · rw [result] at routed
    contradiction

/-! Each event continues the transcript of its session. -/

section Continue

variable {info lastInfo : TreeMap Text Text compare} {config : NginxConfig}
variable {dispatcher : Dispatcher} {version : Version}

theorem Transcript.started {done : List (Event Request)}
    {session : SessionPtr} {before after : Connection Request} {phase : Phase}
    (transcript : Transcript info config dispatcher.objects version done
      .spawned before.calls)
    (sameVersion : before.session.version = version)
    (starts : before.start = some after) (inPhase : InPhase after phase) :
    after.session.version = version ∧
      Transcript info config dispatcher.objects version
        (done ++ [.start session]) phase after.calls := by
  generalize calls : before.calls = made at transcript
  cases transcript with
  | spawned =>
      have performed := perform_iff.mp starts
      rw [Session.start, sameVersion] at performed
      cases version with
      | http =>
          obtain rfl := performed.returned_eq
          obtain ⟨rfl, _⟩ := inPhase.outstanding
            (List.mem_append_right _ (List.mem_singleton_self _))
          refine ⟨rfl, ?_⟩
          dsimp only
          rw [calls]
          exact .reading [] fun _ => ⟨rfl, rfl⟩
      | https =>
          obtain rfl := performed.returned_eq
          obtain ⟨rfl, _⟩ := inPhase.outstanding
            (List.mem_append_right _ (List.mem_singleton_self _))
          refine ⟨sameVersion, ?_⟩
          dsimp only
          rw [calls]
          exact .handshaking rfl rfl

theorem Transcript.shaken {done : List (Event Request)} {event : Event Request}
    {calls : List (Call Request)} (silent : event.chunk? = none)
    (transcript : Transcript info config dispatcher.objects version done
      .handshaking calls) :
    version = .https ∧ Transcript info config dispatcher.objects version
      (done ++ [event]) .reading
      (calls ++ [.asyncReadSome .sslsocket 0 maxLength]) := by
  cases transcript with
  | handshaking secure unread =>
      subst secure
      have stillUnread : (done ++ [event]).filterMap Event.chunk? = [] := by
        rw [List.filterMap_append, unread, List.filterMap_cons_none silent]
        rfl
      refine ⟨rfl, .reading [] fun _ => ⟨?_, ?_⟩⟩
      · rw [readEnds, stillUnread]
        rfl
      · rw [delivered, stillUnread]
        rfl

theorem Transcript.append {done : List (Event Request)} {event : Event Request}
    {calls : List (Call Request)} {chunk text : Text}
    (brings : event.chunk? = some chunk)
    (whole : Fits (delivered done ++ chunk) → text = delivered done ++ chunk)
    (unended : isEnded text = false)
    (transcript : Transcript info config dispatcher.objects version done
      .reading calls) :
    Transcript info config dispatcher.objects version (done ++ [event])
      .reading
      (calls ++ [.asyncReadSome version.stream text.length maxLength]) := by
  cases transcript with
  | reading offsets asks =>
      have longer : asking version (offsets ++ [text.length]) =
          (asking version offsets : List (Call Request)) ++
            [.asyncReadSome version.stream text.length maxLength] := by
        rw [asking, asking, List.append_assoc, ← List.cons_append,
          List.map_append]
        rfl
      rw [← longer]
      refine .reading _ fun fits => ?_
      rw [delivered_snoc, brings] at fits
      rw [readEnds_snoc brings, delivered_snoc, brings, (asks fits.before).1,
        whole fits]
      exact ⟨rfl, whole fits ▸ unended⟩

theorem Transcript.respond {done : List (Event Request)} {session : SessionPtr}
    {offset length : Nat} {chunk text : Text} {world : World Request}
    {statics : Statics} {calls asked : List (Call Request)}
    {response : Response}
    (whole : Fits (delivered done ++ chunk) → text = delivered done ++ chunk)
    (ended : isEnded text = true)
    (answers : Answers info config dispatcher.objects world statics text asked
      response)
    (transcript : Transcript info config dispatcher.objects version done
      .reading calls) :
    Transcript info config dispatcher.objects version
      (done ++ [.complete session (.read offset length (some chunk) world)])
      .writing (calls ++ (asked ++ [.asyncWrite version.stream response])) := by
  cases transcript with
  | reading offsets asks =>
      rw [← List.append_assoc]
      refine .writing (fun fits => ?_) ended answers
      exact ⟨(asks fits.before).1, (asks fits.before).2, whole fits⟩

theorem Transcript.failed {done : List (Event Request)} {event : Event Request}
    {phase next : Phase} {calls : List (Call Request)}
    (transcript : Transcript info config dispatcher.objects version done phase
      calls)
    (moves : Moves phase event.label.2 next)
    (fails : event.label.2.failed = true) :
    Transcript info config dispatcher.objects version (done ++ [event]) next
      calls := by
  obtain rfl := moves.deleted_iff.mpr fails
  exact .deleted transcript moves.not_finished fails

theorem received_whole {done : List (Event Request)}
    {connection : Connection Request} {offset length : Nat} {chunk text : Text}
    {received : Session}
    (delivers : Fits (delivered done) → Delivers done connection .reading)
    (outstanding : .read offset length ∈ connection.pending)
    (receives : connection.session.receive offset length chunk = some received)
    (held : received.data.text? = some text)
    (fits : Fits (delivered done ++ chunk)) :
    text = delivered done ++ chunk := by
  obtain ⟨receiving, _⟩ := (delivers fits.before).reading rfl
  exact (receiving.receives outstanding receives held fits).2

theorem Transcript.completed
    (constructed : newDispatcher info config = .ok (dispatcher, lastInfo))
    {done : List (Event Request)} {session : SessionPtr}
    {before after : Connection Request} {phase next : Phase}
    {completion : Completion Request} {statics lastStatics : Statics}
    (transcript : Transcript info config dispatcher.objects version done phase
      before.calls)
    (delivers : Fits (delivered done) → Delivers done before phase)
    (sameVersion : before.session.version = version)
    (completes : Completes dispatcher (before, statics) completion
      (after, lastStatics))
    (moves : Moves phase completion.signal next) (inPhase : InPhase after next) :
    after.session.version = version ∧
      Transcript info config dispatcher.objects version
        (done ++ [.complete session completion]) next after.calls := by
  have outstanding := (complete_iff.mp completes).1
  obtain ⟨effect, executes, performed⟩ := completes_executes completes
  cases executes with
  | crashed => cases performed <;> contradiction
  | shaken =>
      obtain rfl := performed.returned_eq
      cases moves with
      | shaken => exact ⟨sameVersion, (transcript.shaken rfl).2⟩
  | notShaken =>
      obtain rfl := performed.deleted_eq
      dsimp only
      rw [List.append_nil]
      exact ⟨sameVersion, transcript.failed moves rfl⟩
  | notReceived =>
      obtain rfl := performed.deleted_eq
      dsimp only
      rw [List.append_nil]
      exact ⟨sameVersion, transcript.failed moves rfl⟩
  | notWritten =>
      obtain rfl := performed.deleted_eq
      dsimp only
      rw [List.append_nil]
      exact ⟨sameVersion, transcript.failed moves rfl⟩
  | written =>
      obtain rfl := performed.returned_eq
      obtain rfl := moves.finished_iff.mpr rfl
      cases moves with
      | written =>
          refine ⟨sameVersion, ?_⟩
          dsimp only
          rw [Session.stream_version, sameVersion]
          exact .finished transcript
  | append receives held unended =>
      obtain rfl := performed.returned_eq
      obtain ⟨rfl, _⟩ := inPhase.outstanding
        (List.mem_append_right _ (List.mem_singleton_self _))
      have received := (receive_version receives).trans sameVersion
      cases moves with
      | append =>
          refine ⟨received, ?_⟩
          rw [Session.stream_version, received]
          exact transcript.append rfl
            (received_whole delivers outstanding receives held) unended
  | refused receives held ended refuses =>
      obtain rfl := performed.returned_eq
      obtain ⟨rfl, _⟩ := inPhase.outstanding
        (List.mem_append_right _ (List.mem_singleton_self _))
      have received := (receive_version receives).trans sameVersion
      cases moves with
      | respond =>
          have answers : Answers info config dispatcher.objects _ statics _ _ _ :=
            .refused refuses
          refine ⟨received, ?_⟩
          rw [Session.stream_version, received]
          exact transcript.respond
            (received_whole delivers outstanding receives held) ended answers
  | handled receives held ended accepts routed object returns =>
      obtain rfl := performed.returned_eq
      obtain ⟨rfl, _⟩ := inPhase.outstanding
        (List.mem_append_right _ (List.mem_singleton_self _))
      have received := (receive_version receives).trans sameVersion
      obtain ⟨path, longest, declared⟩ := routed_longest constructed routed
      cases moves with
      | respond =>
          refine ⟨received, ?_⟩
          rw [Session.stream_version, received]
          exact transcript.respond
            (received_whole delivers outstanding receives held) ended
            (.handled accepts longest declared object returns)

theorem Transcript.lives
    (constructed : newDispatcher info config = .ok (dispatcher, lastInfo))
    {done : List (Event Request)} {event : Event Request}
    {before after : Connection Request × Phase}
    (transcript : Transcript info config dispatcher.objects version done
      before.2 before.1.calls)
    (delivers : Fits (delivered done) → Delivers done before.1 before.2)
    (sameVersion : before.1.session.version = version)
    (lives : Lives dispatcher before event after) :
    after.1.session.version = version ∧
      Transcript info config dispatcher.objects version (done ++ [event])
        after.2 after.1.calls := by
  obtain ⟨before, phase⟩ := before
  obtain ⟨after, next⟩ := after
  obtain ⟨undergoes, moves, inPhase⟩ := lives
  cases undergoes with
  | accepted =>
      cases moves with
      | accepted =>
          generalize before.calls = calls at transcript ⊢
          cases transcript
          exact ⟨sameVersion, .spawned⟩
  | refused => exact ⟨sameVersion, transcript.failed moves rfl⟩
  | started starts =>
      have spawned : phase = .spawned := by cases moves <;> rfl
      subst spawned
      exact transcript.started sameVersion starts inPhase
  | completed completes =>
      exact transcript.completed constructed delivers sameVersion completes
        moves inPhase

theorem Transcript.run
    (constructed : newDispatcher info config = .ok (dispatcher, lastInfo))
    {fresh connection : Connection Request} {events : List (Event Request)}
    {phase : Phase} (isFresh : fresh.Fresh version)
    (run : Run (Lives dispatcher) (fresh, .waiting) events
      (connection, phase)) :
    Transcript info config dispatcher.objects version events phase
      connection.calls := by
  have delivers := isFresh.delivers
  obtain ⟨memory, rfl⟩ := isFresh
  have final := run.preserves_trace
    (fun done state => (state.1.session.version = version ∧
      Transcript info config dispatcher.objects version done state.2
        state.1.calls) ∧
      (Fits (delivered done) → Delivers done state.1 state.2))
    (fun lives holds => ⟨holds.1.2.lives constructed holds.2 holds.1.1 lives,
      lives.delivers holds.2⟩)
    ⟨⟨rfl, .waiting⟩, fun _ => delivers⟩
  exact final.1.2

end Continue

/-- A response that has been written answers a text that a read of the session has
completed: all of its bytes, as long as they fit. -/
theorem Transcript.answered {info : TreeMap Text Text compare}
    {config : NginxConfig} {objects : List RequestHandler} {version : Version}
    {done : List (Event Request)} {phase : Phase} {calls : List (Call Request)}
    (transcript : Transcript info config objects version done phase calls)
    {stream : Stream} {response : Response}
    (wrote : .asyncWrite stream response ∈ calls) :
    ∃ before session offset length chunk text world after statics asked,
      done = before ++
        .complete session (.read offset length (some chunk) world) :: after ∧
      (Fits (delivered before ++ chunk) → text = delivered before ++ chunk) ∧
      isEnded text = true ∧
      Answers info config objects world statics text asked response ∧
      stream = version.stream := by
  have silent : ∀ offsets, .asyncWrite stream response ∉
      (asking version offsets : List (Call Request)) := by
    intro offsets member
    cases version <;> simp [asking, opening] at member
  induction transcript with
  | waiting | spawned => contradiction
  | handshaking => simp at wrote
  | reading offsets => exact absurd wrote (silent offsets)
  | @writing done session offset length chunk text world statics offsets asked
      other asks ended answers =>
      refine ⟨done, session, offset, length, chunk, text, world, [], statics,
        asked, rfl, fun fits => (asks fits).2.2, ended, ?_⟩
      rw [List.append_assoc] at wrote
      rcases List.mem_append.mp wrote with reads | wrote
      · exact absurd reads (silent offsets)
      · rcases List.mem_append.mp wrote with asks | wrote
        · cases answers <;> simp at asks
        · cases List.mem_singleton.mp wrote
          exact ⟨answers, rfl⟩
  | finished writing induction =>
      rcases List.mem_append.mp wrote with wrote | closes
      · obtain ⟨before, session, offset, length, chunk, text, world, after,
          statics, asked, rfl, rest⟩ := induction wrote
        exact ⟨before, session, offset, length, chunk, text, world, _, statics,
          asked, List.append_assoc .., rest⟩
      · cases List.mem_singleton.mp closes
  | deleted earlier running fails induction =>
      obtain ⟨before, session, offset, length, chunk, text, world, after,
        statics, asked, rfl, rest⟩ := induction wrote
      exact ⟨before, session, offset, length, chunk, text, world, _, statics,
        asked, List.append_assoc .., rest⟩

/-- However the callbacks of the two servers are interleaved, each session has
made the calls of its phase and no others: it shakes hands over https, reads until
an empty line has come, asks the parser and then the handler that the config
declares for the target, writes one answer, and closes its own socket. -/
theorem process_transcript {statics : Statics}
    {info lastInfo : TreeMap Text Text compare}
    {memory : Version → CharArray maxLength} {config : NginxConfig}
    {first last : Process Request} {events : List (Version × Event Request)}
    (constructed : Process.newProcess statics info memory config =
      .ok (first, lastInfo))
    (run : Run Process.Steps first events last) :
    ∃ dispatcher middleInfo,
      newDispatcher info config = .ok (dispatcher, middleInfo) ∧
      ∀ (version : Version) (session : SessionPtr)
        (connection : Connection Request),
        (last.component version).connections[session]? = some connection →
        ∃ phase, InPhase connection phase ∧
          Transcript info config dispatcher.objects version
            (sessionEvents session (own version events)) phase
            connection.calls := by
  obtain ⟨dispatcher, middleInfo, constructs, each⟩ :=
    isolated_process constructed run
  refine ⟨dispatcher, middleInfo, constructs, ?_⟩
  intro version session connection found
  obtain ⟨phases, represents, isolated⟩ := each version
  obtain ⟨phase, held, inPhase⟩ := represents.phase found
  obtain ⟨fresh, isFresh, lived⟩ :=
    isolated.lived session connection phase found held
  exact ⟨phase, inPhase, .run constructs isFresh lived⟩

theorem process_transcript_interleaved :
    ∃ (first last : Process Text) (info : TreeMap Text Text compare)
      (dispatcher : Dispatcher) (connection : Connection Text) (phase : Phase),
      Process.newProcess ⟨0, ∅⟩ ∅ (fun _ => .zeroed maxLength) (.mk []) =
        .ok (first, info) ∧
      Run Process.Steps first interleavedEvents last ∧
      (last.component .http).connections[0]? = some connection ∧
      Transcript ∅ (.mk []) dispatcher.objects .http
        (sessionEvents 0 (own .http interleavedEvents)) phase
        connection.calls := by
  obtain ⟨first, last, info, constructed, run, connection, found⟩ :=
    interleaved_run
  obtain ⟨dispatcher, _, _, transcripts⟩ := process_transcript constructed run
  obtain ⟨phase, _, transcript⟩ := transcripts .http 0 connection found
  exact ⟨first, last, info, dispatcher, connection, phase, constructed, run,
    found, transcript⟩

end HttpsServer.Serve
