import HttpsServer.Data.Run
import HttpsServer.Serve.Connection
import HttpsServer.Serve.Target

namespace HttpsServer.Serve

open HttpsServer.Data
open HttpsServer.Dispatch

variable {Request : Type}

/-! The header block of a request, as far as its first empty line. -/

theorem isEnded_iff (text : Text) :
    isEnded text = true ↔
      "\r\n\r\n".toList <:+: text ∨ "\n\n".toList <:+: text := by
  rw [isEnded, Bool.or_eq_true, Text.find_isSome, Text.find_isSome]

/-- The shortest prefix that ends a request, or all of the text. -/
def headerBlock (text : Text) : Text :=
  match (List.range (text.length + 1)).find? fun count =>
      isEnded (text.take count) with
  | some count => text.take count
  | none => text

theorem headerBlock_append {text : Text} (more : Text)
    (ended : isEnded text = true) :
    headerBlock (text ++ more) = headerBlock text := by
  have whole : isEnded (text.take text.length) = true := by
    rwa [List.take_length]
  cases first : (List.range (text.length + 1)).find? fun count =>
      isEnded (text.take count) with
  | none =>
      have none_ended := List.find?_eq_none.mp first text.length
        (List.mem_range.mpr (Nat.lt_succ_self _))
      exact absurd whole none_ended
  | some count =>
      obtain ⟨countEnded, bound, earlier⟩ := List.find?_range_eq_some.mp first
      have countBound : count ≤ text.length :=
        Nat.le_of_lt_succ (List.mem_range.mp bound)
      have firstInAll :
          ((List.range ((text ++ more).length + 1)).find? fun count =>
            isEnded ((text ++ more).take count)) = some count := by
        apply List.find?_range_eq_some.mpr
        refine ⟨?_, ?_, ?_⟩
        · rwa [List.take_append_of_le_length countBound]
        · rw [List.mem_range, List.length_append]
          omega
        · intro other less
          rw [List.take_append_of_le_length (by omega)]
          exact earlier other less
      rw [headerBlock, headerBlock, first, firstInAll]
      exact List.take_append_of_le_length countBound

/-! What the callbacks do with the text that `data_` holds. -/

theorem appendData_holds {session : Session} {received : Text}
    (holds : session.data.Holds received) (clean : nul ∉ received)
    (short : received.length < maxLength) :
    session.appendData = (⟨[.asyncReadSome session.stream received.length
      maxLength], .returned session⟩ : Effect Request) := by
  rw [Session.appendData, holds.text? clean short]

theorem handleRead_holds {session : Session} {received : Text}
    (dispatcher : Dispatcher) (world : World Request) (statics : Statics)
    (holds : session.data.Holds received) (clean : nul ∉ received)
    (short : received.length < maxLength) :
    session.handleRead dispatcher world statics false =
      if isEnded received = true then
        session.sendResponse dispatcher world statics
      else (session.appendData, statics) := by
  have ending : session.endOfRequest = some (isEnded received) := by
    rw [Session.endOfRequest, holds.text? clean short]
    rfl
  rw [Session.handleRead, if_neg Bool.false_ne_true, ending]
  cases isEnded received <;> rfl

theorem sendResponse_calls_head? {session : Session} {text : Text}
    (dispatcher : Dispatcher) (world : World Request) (statics : Statics)
    (received : session.data.text? = some text) :
    (session.sendResponse dispatcher world statics).1.calls.head? =
      some (.parserPut text) := by
  unfold Session.sendResponse
  rw [received]
  dsimp only
  repeat' split
  all_goals rfl

theorem receive_holds {session : Session} {received chunk : Text}
    (holds : session.data.Holds received) (nonempty : chunk ≠ [])
    (fits : received.length + chunk.length ≤ maxLength) :
    ∃ after, session.receive received.length maxLength chunk = some after ∧
      after.data.Holds (received ++ chunk) ∧ after.version = session.version := by
  have length : 0 < chunk.length ∧ chunk.length ≤ maxLength :=
    ⟨List.length_pos_iff.mpr nonempty, by omega⟩
  refine ⟨{ session with data := session.data.store received.length chunk fits },
    ?_, holds.store fits, rfl⟩
  rw [Session.receive, if_pos length, dif_pos fits]

/-! A connection that waits for a read, with all it has received in `data_`. -/

structure Receiving (connection : Connection Request) (received : Text) :
    Prop where
  holds : connection.session.data.Holds received
  pending : connection.pending = [.read received.length maxLength]

/-- A connection that has issued its first read: over http once it is started,
over https once the handshake has succeeded as well. -/
inductive Opened (dispatcher : Dispatcher) :
    Version → Connection Request → Prop
  | http {session : Session} {connection : Connection Request}
      (version : session.version = .http)
      (started : (Connection.allocated session).start = some connection) :
      Opened dispatcher .http connection
  | https {session : Session} {handshaking connection : Connection Request}
      {statics lastStatics : Statics} (version : session.version = .https)
      (started : (Connection.allocated session).start = some handshaking)
      (shaken : handshaking.complete dispatcher statics (.handshake none) =
        some (connection, lastStatics)) :
      Opened dispatcher .https connection

theorem Opened.receiving {dispatcher : Dispatcher} {version : Version}
    {connection : Connection Request} (opened : Opened dispatcher version connection) :
    Receiving connection [] ∧ connection.session.version = version := by
  cases opened with
  | http version started =>
      rw [Connection.start, Connection.allocated, Session.start,
        version] at started
      cases started
      exact ⟨⟨CharArray.holds_zeroed, rfl⟩, rfl⟩
  | https version started shaken =>
      rw [Connection.start, Connection.allocated, Session.start,
        version] at started
      cases started
      cases shaken
      exact ⟨⟨CharArray.holds_zeroed, rfl⟩, version⟩

theorem Receiving.callback {connection : Connection Request}
    {received chunk : Text} (receiving : Receiving connection received)
    (dispatcher : Dispatcher) (world : World Request) (statics : Statics)
    (nonempty : chunk ≠ []) (clean : nul ∉ received ++ chunk)
    (short : (received ++ chunk).length < maxLength) :
    ∃ after : Session, after.data.Holds (received ++ chunk) ∧
      after.version = connection.session.version ∧
      Completion.callback dispatcher statics connection.session
          (.read received.length maxLength (some chunk) world) =
        some (if isEnded (received ++ chunk) = true then
          after.sendResponse dispatcher world statics
        else (after.appendData, statics)) := by
  have fits : received.length + chunk.length ≤ maxLength := by
    rw [List.length_append] at short
    omega
  obtain ⟨after, store, holds, version⟩ :=
    receive_holds receiving.holds nonempty fits
  refine ⟨after, holds, version, ?_⟩
  rw [Completion.callback, store, Option.map_some,
    handleRead_holds dispatcher world statics holds clean short]

theorem Receiving.append {connection : Connection Request}
    {received chunk : Text} (receiving : Receiving connection received)
    (dispatcher : Dispatcher) (world : World Request) (statics : Statics)
    (nonempty : chunk ≠ []) (clean : nul ∉ received ++ chunk)
    (short : (received ++ chunk).length < maxLength)
    (unended : isEnded (received ++ chunk) = false) :
    ∃ next, Completes dispatcher (connection, statics)
        (.read received.length maxLength (some chunk) world) (next, statics) ∧
      Receiving next (received ++ chunk) ∧
      next.session.version = connection.session.version ∧
      next.calls = connection.calls ++ [.asyncReadSome connection.session.stream
        (received ++ chunk).length maxLength] := by
  obtain ⟨after, holds, version, called⟩ :=
    receiving.callback dispatcher world statics nonempty clean short
  rw [unended, if_neg Bool.false_ne_true,
    appendData_holds holds clean short] at called
  have stream : after.stream = connection.session.stream := by
    rw [Session.stream, Session.stream, version]
  have erased : connection.pending.erase
      (.read received.length maxLength) = [] := by
    rw [receiving.pending, List.erase_cons_head]
  refine ⟨_, complete_iff.mpr ⟨?_, _, called, .returned rfl⟩, ⟨holds, ?_⟩,
    version, ?_⟩
  · rw [receiving.pending]
    exact List.mem_singleton_self _
  · exact congrArg (· ++ _) erased
  · rw [stream]

/-! Any number of reads, each with the world that its callback would use. -/

def bytes (reads : List (Text × World Request)) : Text :=
  (reads.map Prod.fst).flatten

def readCompletions (received : Text) :
    List (Text × World Request) → List (Completion Request)
  | [] => []
  | (chunk, world) :: rest =>
      .read received.length maxLength (some chunk) world ::
        readCompletions (received ++ chunk) rest

/-- One read issued by `append_data` for each read that has completed. -/
def appendCalls (stream : Stream) (received : Text) :
    List (Text × World Request) → List (Call Request)
  | [] => []
  | (chunk, _) :: rest =>
      .asyncReadSome stream (received ++ chunk).length maxLength ::
        appendCalls stream (received ++ chunk) rest

theorem Receiving.run {connection : Connection Request} {received : Text}
    (receiving : Receiving connection received) (dispatcher : Dispatcher)
    (statics : Statics) {reads : List (Text × World Request)}
    (nonempty : ∀ read ∈ reads, read.1 ≠ [])
    (clean : nul ∉ received ++ bytes reads)
    (short : (received ++ bytes reads).length < maxLength)
    (unended : ∀ done rest, reads = done ++ rest → done ≠ [] →
      isEnded (received ++ bytes done) = false) :
    ∃ last, Run (Completes dispatcher) (connection, statics)
        (readCompletions received reads) (last, statics) ∧
      Receiving last (received ++ bytes reads) ∧
      last.session.version = connection.session.version ∧
      last.calls = connection.calls ++
        appendCalls connection.session.stream received reads := by
  induction reads generalizing connection received with
  | nil =>
      refine ⟨connection, .nil _, ?_, rfl, (List.append_nil _).symm⟩
      rwa [bytes, List.map_nil, List.flatten_nil, List.append_nil]
  | cons read rest induction =>
      obtain ⟨chunk, world⟩ := read
      have split : received ++ bytes ((chunk, world) :: rest) =
          received ++ chunk ++ bytes rest := by
        rw [bytes, List.map_cons, List.flatten_cons, List.append_assoc]
        rfl
      rw [split] at clean short ⊢
      have headUnended := unended [(chunk, world)] rest rfl nofun
      rw [bytes, List.map_singleton, List.flatten_singleton] at headUnended
      have headClean : nul ∉ received ++ chunk := fun member =>
        clean (List.mem_append_left _ member)
      have headShort : (received ++ chunk).length < maxLength := by
        rw [List.length_append] at short
        omega
      have headNonempty : chunk ≠ [] :=
        nonempty (chunk, world) List.mem_cons_self
      obtain ⟨next, head, nextReceiving, version, calls⟩ :=
        receiving.append dispatcher world statics headNonempty headClean
          headShort headUnended
      obtain ⟨last, tail, lastReceiving, lastVersion, lastCalls⟩ := by
        refine induction nextReceiving ?_ clean short ?_
        · exact fun read member => nonempty read (List.mem_cons_of_mem _ member)
        · intro done more position _
          have whole := unended ((chunk, world) :: done) more
            (by rw [position, List.cons_append]) nofun
          rwa [bytes, List.map_cons, List.flatten_cons,
            ← List.append_assoc] at whole
      refine ⟨last, .cons head tail, lastReceiving, lastVersion.trans version, ?_⟩
      have stream : next.session.stream = connection.session.stream := by
        rw [Session.stream, Session.stream, version]
      rw [lastCalls, calls, stream, List.append_assoc]
      rfl

/-- However the bytes are split, the callback of a read calls `append_data` until
the first read after which they contain an empty line. It then calls
`send_response`, which gives all of them to the parser; the header block in them
is that of the whole stream. -/
theorem reads_until_ended {dispatcher : Dispatcher} {version : Version}
    {connection : Connection Request}
    (opened : Opened dispatcher version connection) (statics : Statics)
    {before : List (Text × World Request)} {chunk : Text}
    (world : World Request)
    (nonempty : ∀ read ∈ before ++ [(chunk, world)], read.1 ≠ [])
    (clean : nul ∉ bytes before ++ chunk)
    (short : (bytes before ++ chunk).length < maxLength)
    (unended : ∀ done rest, before = done ++ rest →
      isEnded (bytes done) = false) :
    ∃ (last : Connection Request) (after : Session),
      Run (Completes dispatcher) (connection, statics)
        (readCompletions [] before) (last, statics) ∧
      last.calls = connection.calls ++
        appendCalls connection.session.stream [] before ∧
      last.pending = [.read (bytes before).length maxLength] ∧
      Completion.callback dispatcher statics last.session
          (.read (bytes before).length maxLength (some chunk) world) =
        some (if isEnded (bytes before ++ chunk) = true then
          after.sendResponse dispatcher world statics
        else (after.appendData, statics)) ∧
      (after.sendResponse dispatcher world statics).1.calls.head? =
        some (.parserPut (bytes before ++ chunk)) ∧
      (isEnded (bytes before ++ chunk) = true → ∀ stream,
        bytes before ++ chunk <+: stream →
        headerBlock (bytes before ++ chunk) = headerBlock stream) := by
  have beforeClean : nul ∉ [] ++ bytes before := fun member =>
    clean (List.mem_append_left _ member)
  have beforeShort : ([] ++ bytes before).length < maxLength := by
    rw [List.length_append] at short
    rw [List.nil_append]
    omega
  obtain ⟨last, run, receiving, _, calls⟩ :=
    opened.receiving.1.run dispatcher statics
      (fun read member => nonempty read (List.mem_append_left _ member))
      beforeClean beforeShort
      (fun done rest position _ => unended done rest position)
  rw [List.nil_append] at receiving
  have chunkNonempty : chunk ≠ [] :=
    nonempty (chunk, world) (List.mem_append_right _ (List.mem_singleton_self _))
  obtain ⟨after, holds, _, called⟩ :=
    receiving.callback dispatcher world statics chunkNonempty clean short
  refine ⟨last, after, run, calls, receiving.pending, called,
    sendResponse_calls_head? dispatcher world statics (holds.text? clean short),
    ?_⟩
  rintro ended stream ⟨more, rfl⟩
  exact (headerBlock_append more ended).symm

/-- The empty line of a request lies across its two reads. -/
theorem reads_until_ended_across :
    ∃ (connection last : Connection Text) (after : Session),
      Run (Completes ⟨[], ∅, 0⟩) (connection, ⟨0, ∅⟩)
        (readCompletions [] [("GET /a HTTP/1.1\r\n\r".toList, lineWorld)])
        (last, ⟨0, ∅⟩) ∧
      Completion.callback ⟨[], ∅, 0⟩ ⟨0, ∅⟩ last.session
          (.read 18 maxLength (some "\n".toList) lineWorld) =
        some (after.sendResponse ⟨[], ∅, 0⟩ lineWorld ⟨0, ∅⟩) ∧
      (after.sendResponse ⟨[], ∅, 0⟩ lineWorld ⟨0, ∅⟩).1.calls.head? =
        some (.parserPut rootRequest) := by
  obtain ⟨connection, started⟩ : ∃ connection : Connection Text,
      (Connection.allocated (receivedSession [] (by decide))).start =
        some connection := Connection.start_returns _
  have opened : Opened ⟨[], ∅, 0⟩ .http connection := .http rfl started
  have nonempty : ∀ read ∈ [("GET /a HTTP/1.1\r\n\r".toList, lineWorld)] ++
      [("\n".toList, lineWorld)], read.1 ≠ [] := by decide
  have unended : ∀ done rest,
      [("GET /a HTTP/1.1\r\n\r".toList, lineWorld)] = done ++ rest →
      isEnded (bytes done) = false := by
    intro done rest position
    match done, position with
    | [], _ => decide
    | [_], position =>
        cases position
        decide
  obtain ⟨last, after, run, _, _, called, parsed, _⟩ :=
    reads_until_ended opened ⟨0, ∅⟩ lineWorld nonempty (by decide) (by decide)
      unended
  exact ⟨connection, last, after, run, called, parsed⟩

end HttpsServer.Serve
