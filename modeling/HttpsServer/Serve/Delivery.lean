import HttpsServer.Serve.History
import HttpsServer.Serve.Reading

namespace HttpsServer.Serve

open Std
open HttpsServer.Data
open HttpsServer.Config
open HttpsServer.Dispatch

variable {Request : Type}

/-! The bytes that a session receives, and what its parser is given of them. -/

def Event.chunk? : Event Request → Option Text
  | .complete _ (.read _ _ received _) => received
  | .complete _ (.handshake _) | .complete _ (.write _) => none
  | .accept _ _ _ | .start _ => none

def delivered (events : List (Event Request)) : Text :=
  (events.filterMap Event.chunk?).flatten

def Call.parsed? : Call Request → Option Text
  | .parserPut text => some text
  | _ => none

/-- The texts that the parser has been given. -/
def Connection.parsed (connection : Connection Request) : List Text :=
  connection.calls.filterMap Call.parsed?

/-- The bytes fit into `data_`, and none of them ends the text there. -/
def Fits (text : Text) : Prop :=
  nul ∉ text ∧ text.length < maxLength

theorem Fits.before {left right : Text} (fits : Fits (left ++ right)) :
    Fits left := by
  refine ⟨fun member => fits.1 (List.mem_append_left _ member), ?_⟩
  have short := fits.2
  rw [List.length_append] at short
  exact Nat.lt_of_le_of_lt (Nat.le_add_right _ _) short

theorem delivered_snoc (done : List (Event Request)) (event : Event Request) :
    delivered (done ++ [event]) =
      delivered done ++ event.chunk?.getD [] := by
  rw [delivered, List.filterMap_append, List.flatten_append, delivered]
  congr 1
  cases chunk : event.chunk? <;> simp [chunk]

/-- The parser has been given the bytes as soon as they held an empty line, and
nothing else. -/
structure Delivers (done : List (Event Request))
    (connection : Connection Request) (phase : Phase) : Prop where
  parsed : connection.parsed =
    if isEnded (delivered done) = true then [delivered done] else []
  first : ∀ before, before <+: done → delivered before ≠ delivered done →
    isEnded (delivered before) = false
  reading : phase = .reading →
    Receiving connection (delivered done) ∧ isEnded (delivered done) = false
  earlier : phase = .waiting ∨ phase = .spawned ∨ phase = .handshaking →
    delivered done = []

theorem prefix_snoc {Item : Type} {before done : List Item} {item : Item}
    (isPrefix : before <+: done ++ [item]) :
    before = done ++ [item] ∨ before <+: done :=
  (List.prefix_concat_iff).mp isPrefix

/-- An event that brings no bytes. -/
theorem Delivers.silent {done : List (Event Request)} {event : Event Request}
    {before after : Connection Request} {phase next : Phase}
    (delivers : Delivers done before phase) (silent : event.chunk? = none)
    (parsed : after.parsed = before.parsed)
    (reading : next = .reading → Receiving after [] ∧ delivered done = [])
    (earlier : next = .waiting ∨ next = .spawned ∨ next = .handshaking →
      delivered done = []) : Delivers (done ++ [event]) after next := by
  have same : delivered (done ++ [event]) = delivered done := by
    rw [delivered_snoc, silent]
    exact List.append_nil _
  refine ⟨?_, ?_, ?_, ?_⟩
  · rw [parsed, same]
    exact delivers.parsed
  · intro part isPrefix different
    rw [same] at different
    rcases prefix_snoc isPrefix with rfl | isPrefix
    · exact absurd same different
    · exact delivers.first part isPrefix different
  · intro reads
    obtain ⟨receiving, empty⟩ := reading reads
    rw [same, empty]
    exact ⟨receiving, by decide⟩
  · intro early
    rw [same]
    exact earlier early

/-- A read that brings more bytes. -/
theorem Delivers.received {done : List (Event Request)} {event : Event Request}
    {before after : Connection Request} {next : Phase}
    (delivers : Delivers done before .reading) (text : Text)
    (whole : delivered (done ++ [event]) = text)
    (parsed : after.parsed =
      before.parsed ++ if isEnded text = true then [text] else [])
    (reading : next = .reading → Receiving after text ∧ isEnded text = false)
    (later : next = .reading ∨ next = .writing) :
    Delivers (done ++ [event]) after next := by
  obtain ⟨_, unended⟩ := delivers.reading rfl
  refine ⟨?_, ?_, ?_, ?_⟩
  · rw [parsed, delivers.parsed, unended, if_neg Bool.false_ne_true, whole]
    rfl
  · intro part isPrefix different
    rcases prefix_snoc isPrefix with rfl | isPrefix
    · exact absurd rfl different
    · by_cases same : delivered part = delivered done
      · rw [same]
        exact unended
      · exact delivers.first part isPrefix same
  · rw [whole]
    exact reading
  · rintro early
    rcases later with rfl | rfl <;> simp at early

/-! One event of a session. -/

theorem Receiving.receives {connection : Connection Request}
    {already chunk text : Text} {offset length : Nat} {received : Session}
    (receiving : Receiving connection already)
    (outstanding : Operation.read offset length ∈ connection.pending)
    (receives : connection.session.receive offset length chunk = some received)
    (held : received.data.text? = some text) (fits : Fits (already ++ chunk)) :
    received.data.Holds (already ++ chunk) ∧ text = already ++ chunk := by
  obtain ⟨clean, short⟩ := fits
  rw [receiving.pending, List.mem_singleton] at outstanding
  cases outstanding
  have nonempty : chunk ≠ [] := by
    rintro rfl
    rw [Session.receive, if_neg (fun both => Nat.lt_irrefl 0 both.1)] at receives
    contradiction
  have room : already.length + chunk.length ≤ maxLength := by
    rw [List.length_append] at short
    exact Nat.le_of_lt short
  obtain ⟨after, stored, holds, _⟩ :=
    receive_holds receiving.holds nonempty room
  rw [stored] at receives
  cases receives
  rw [holds.text? clean short] at held
  exact ⟨holds, (Option.some.inj held).symm⟩

theorem parsed_append {before after : Connection Request}
    {calls : List (Call Request)} (appended : after.calls = before.calls ++ calls) :
    after.parsed = before.parsed ++ calls.filterMap Call.parsed? := by
  rw [Connection.parsed, appended, List.filterMap_append, Connection.parsed]

theorem Delivers.started {done : List (Event Request)} {session : SessionPtr}
    {before after : Connection Request} {next : Phase}
    (delivers : Delivers done before .spawned)
    (starts : before.start = some after) (inPhase : InPhase after next) :
    Delivers (done ++ [.start session]) after next := by
  have empty := delivers.earlier (.inr (.inl rfl))
  have performed := perform_iff.mp starts
  rw [Session.start] at performed
  cases version : before.session.version with
  | http =>
      rw [version] at performed
      obtain rfl := performed.returned_eq
      have pending := (inPhase.outstanding
        (List.mem_append_right _ (List.mem_singleton_self _))).2.1
      refine delivers.silent rfl ?_
        (fun _ => ⟨⟨CharArray.holds_zeroed, pending⟩, empty⟩) fun _ => empty
      exact (parsed_append rfl).trans (List.append_nil _)
  | https =>
      rw [version] at performed
      obtain rfl := performed.returned_eq
      obtain ⟨rfl, _⟩ := inPhase.outstanding
        (List.mem_append_right _ (List.mem_singleton_self _))
      refine delivers.silent rfl ?_ (fun reads => by contradiction)
        fun _ => empty
      exact (parsed_append rfl).trans (List.append_nil _)

theorem Delivers.respond {done : List (Event Request)} {session : SessionPtr}
    {offset length : Nat} {chunk text : Text} {world : World Request}
    {before after : Connection Request} {calls : List (Call Request)}
    (delivers : Delivers done before .reading)
    (whole : text = delivered done ++ chunk) (ended : isEnded text = true)
    (appended : after.calls = before.calls ++ calls)
    (parses : calls.filterMap Call.parsed? = [text]) :
    Delivers
      (done ++ [.complete session (.read offset length (some chunk) world)])
      after .writing := by
  refine delivers.received text ?_ ?_ nofun (.inr rfl)
  · rw [delivered_snoc, whole]
    rfl
  · rw [ended, if_pos rfl, parsed_append appended, parses]

theorem Delivers.completed {done : List (Event Request)} {session : SessionPtr}
    {before after : Connection Request} {phase next : Phase}
    {completion : Completion Request} {dispatcher : Dispatcher}
    {statics lastStatics : Statics} (delivers : Delivers done before phase)
    (fits : Fits (delivered (done ++ [.complete session completion])))
    (completes : Completes dispatcher (before, statics) completion
      (after, lastStatics))
    (moves : Moves phase completion.signal next) (inPhase : InPhase after next) :
    Delivers (done ++ [.complete session completion]) after next := by
  have outstanding := (complete_iff.mp completes).1
  obtain ⟨effect, executes, performed⟩ := completes_executes completes
  have silent : next = .deleted ∨ next = .finished →
      (Event.complete session completion).chunk? = none →
      effect.calls.filterMap Call.parsed? = [] →
      Delivers (done ++ [.complete session completion]) after next := by
    intro final chunk unparsed
    refine delivers.silent chunk ?_ ?_ ?_
    · rw [parsed_append performed.calls, unparsed]
      exact List.append_nil _
    · rintro rfl
      rcases final with final | final <;> contradiction
    · rintro early
      rcases final with rfl | rfl <;> simp at early
  rw [delivered_snoc] at fits
  cases executes with
  | crashed => cases performed <;> contradiction
  | notShaken => exact silent (.inl (moves.deleted_iff.mpr rfl)) rfl rfl
  | notReceived => exact silent (.inl (moves.deleted_iff.mpr rfl)) rfl rfl
  | notWritten => exact silent (.inl (moves.deleted_iff.mpr rfl)) rfl rfl
  | written => exact silent (.inr (moves.finished_iff.mpr rfl)) rfl rfl
  | shaken =>
      obtain rfl := performed.returned_eq
      have pending := (inPhase.outstanding
        (List.mem_append_right _ (List.mem_singleton_self _))).2.1
      cases moves with
      | shaken =>
          have empty := delivers.earlier (.inr (.inr rfl))
          refine delivers.silent rfl ?_
            (fun _ => ⟨⟨CharArray.holds_zeroed, pending⟩, empty⟩) fun _ => empty
          exact (parsed_append rfl).trans (List.append_nil _)
  | append receives held unended =>
      obtain rfl := performed.returned_eq
      obtain ⟨rfl, pending, _⟩ := inPhase.outstanding
        (List.mem_append_right _ (List.mem_singleton_self _))
      cases moves with
      | append =>
          obtain ⟨holds, whole⟩ := (delivers.reading rfl).1.receives outstanding
            receives held fits
          rw [← whole] at holds
          refine delivers.received _ ((delivered_snoc _ _).trans whole.symm) ?_
            (fun _ => ⟨⟨holds, pending⟩, unended⟩) (.inl rfl)
          rw [unended, if_neg Bool.false_ne_true]
          exact parsed_append performed.calls
  | refused receives held ended refuses =>
      obtain rfl := performed.returned_eq
      obtain ⟨rfl, _⟩ := inPhase.outstanding
        (List.mem_append_right _ (List.mem_singleton_self _))
      cases moves with
      | respond =>
          obtain ⟨_, whole⟩ := (delivers.reading rfl).1.receives outstanding
            receives held fits
          exact delivers.respond whole ended rfl rfl
  | handled receives held ended accepts routed object returns =>
      obtain rfl := performed.returned_eq
      obtain ⟨rfl, _⟩ := inPhase.outstanding
        (List.mem_append_right _ (List.mem_singleton_self _))
      cases moves with
      | respond =>
          obtain ⟨_, whole⟩ := (delivers.reading rfl).1.receives outstanding
            receives held fits
          exact delivers.respond whole ended rfl rfl

theorem Lives.delivers {dispatcher : Dispatcher} {done : List (Event Request)}
    {event : Event Request} {before after : Connection Request × Phase}
    (lives : Lives dispatcher before event after)
    (delivers : Fits (delivered done) → Delivers done before.1 before.2)
    (fits : Fits (delivered (done ++ [event]))) :
    Delivers (done ++ [event]) after.1 after.2 := by
  have earlier : Fits (delivered done) := by
    rw [delivered_snoc] at fits
    exact fits.before
  obtain ⟨before, phase⟩ := before
  obtain ⟨after, next⟩ := after
  obtain ⟨undergoes, moves, inPhase⟩ := lives
  replace delivers := delivers earlier
  cases undergoes with
  | accepted =>
      cases moves with
      | accepted =>
          exact delivers.silent rfl rfl nofun
            fun _ => delivers.earlier (.inl rfl)
  | refused =>
      obtain rfl := moves.deleted_iff.mpr rfl
      exact delivers.silent rfl rfl nofun fun early => by simp at early
  | started starts =>
      have spawned : phase = .spawned := by cases moves <;> rfl
      subst spawned
      exact delivers.started starts inPhase
  | completed completes =>
      exact delivers.completed fits completes moves inPhase

theorem Connection.Fresh.delivers {version : Version}
    {connection : Connection Request} (fresh : connection.Fresh version) :
    Delivers [] connection .waiting := by
  obtain ⟨memory, rfl⟩ := fresh
  refine ⟨rfl, ?_, nofun, fun _ => rfl⟩
  intro before isPrefix different
  rw [List.prefix_nil.mp isPrefix] at different
  exact absurd rfl different

theorem delivers_process {statics : Statics}
    {info lastInfo : TreeMap Text Text compare}
    {memory : Version → CharArray maxLength} {config : NginxConfig}
    {first last : Process Request} {events : List (Version × Event Request)}
    (constructed : Process.newProcess statics info memory config =
      .ok (first, lastInfo))
    (run : Run Process.Steps first events last) {version : Version}
    {session : SessionPtr} {connection : Connection Request}
    (found : (last.component version).connections[session]? = some connection)
    (fits : Fits (delivered (sessionEvents session (own version events)))) :
    ∃ phase, InPhase connection phase ∧
      Delivers (sessionEvents session (own version events)) connection
        phase := by
  obtain ⟨_, _, _, each⟩ := isolated_process constructed run
  obtain ⟨phases, represents, isolated⟩ := each version
  obtain ⟨phase, held, inPhase⟩ := represents.phase found
  obtain ⟨fresh, isFresh, lived⟩ :=
    isolated.lived session connection phase found held
  have delivers := lived.preserves_trace
    (fun done state => Fits (delivered done) → Delivers done state.1 state.2)
    (fun lives => lives.delivers) (fun _ => isFresh.delivers) fits
  exact ⟨phase, inPhase, delivers⟩

/-- However the callbacks of the two servers are interleaved and however the bytes
of a session are split, its parser is given all of them, and only them, exactly
when an empty line has come, and was not given those of an earlier read. -/
theorem process_delivery {statics : Statics}
    {info lastInfo : TreeMap Text Text compare}
    {memory : Version → CharArray maxLength} {config : NginxConfig}
    {first last : Process Request} {events : List (Version × Event Request)}
    (constructed : Process.newProcess statics info memory config =
      .ok (first, lastInfo))
    (run : Run Process.Steps first events last) (version : Version)
    {session : SessionPtr} {connection : Connection Request}
    (found : (last.component version).connections[session]? = some connection)
    (fits : Fits (delivered (sessionEvents session (own version events)))) :
    let received := sessionEvents session (own version events)
    connection.parsed =
      (if isEnded (delivered received) = true then [delivered received]
      else []) ∧
    ∀ before, before <+: received → delivered before ≠ delivered received →
      isEnded (delivered before) = false := by
  obtain ⟨_, _, delivers⟩ := delivers_process constructed run found fits
  exact ⟨delivers.parsed, delivers.first⟩

/-- The events of both servers, with a malformed request that comes in two reads
answered over http while a handshake fails. -/
def interleavedEvents : List (Version × Event Text) :=
  [(.http, .accept 0 false (.zeroed maxLength)),
    (.https, .accept 0 false (.zeroed maxLength)), (.http, .start 0),
    (.https, .start 0),
    (.http, .complete 0
      (.read 0 maxLength (some "\n".toList) refusingWorld)),
    (.https, .complete 0 (.handshake (some .httpRequest))),
    (.http, .complete 0
      (.read 1 maxLength (some "\n".toList) refusingWorld)),
    (.http, .complete 0 (.write false))]

theorem interleaved_run :
    ∃ (first last : Process Text) (info : TreeMap Text Text compare),
      Process.newProcess ⟨0, ∅⟩ ∅ (fun _ => .zeroed maxLength) (.mk []) =
        .ok (first, info) ∧
      Run Process.Steps first interleavedEvents last ∧
      ∃ connection, (last.component .http).connections[0]? = some connection := by
  obtain ⟨connection, started⟩ : ∃ connection : Connection Text,
      (Connection.allocated (newSession .http (.zeroed maxLength))).start =
        some connection := Connection.start_returns _
  have opened : Opened ⟨[], ∅, 0⟩ .http connection := .http rfl started
  have constructed : Process.newProcess ⟨0, ∅⟩ ∅
      (fun _ => .zeroed maxLength) (.mk []) = .ok ((_ : Process Text), _) := rfl
  obtain ⟨reading, first, receiving, _⟩ :=
    opened.receiving.1.append _ refusingWorld ⟨0, ∅⟩
      (show "\n".toList ≠ [] by decide) (by decide) (by decide) (by decide)
  obtain ⟨writing, closed, second, writes⟩ :=
    receiving.answered _ ⟨0, ∅⟩ (show "\n".toList ≠ [] by decide) rfl
  exact ⟨_, _, _, constructed,
    .cons (.turn ⟨rfl, rfl⟩) (.cons (.turn ⟨rfl, rfl⟩)
      (.cons (.turn ⟨steps_start.mpr
        ⟨by decide, _, connection, rfl, started, rfl⟩, rfl⟩)
      (.cons (.turn ⟨rfl, rfl⟩)
      (.cons (.turn ⟨steps_complete.mpr
        ⟨connection, reading, _, rfl, first, rfl⟩, rfl⟩)
      (.cons (.turn ⟨rfl, rfl⟩)
      (.cons (.turn ⟨steps_complete.mpr
        ⟨reading, writing, _, rfl, second, rfl⟩, rfl⟩)
      (.single (.turn ⟨steps_complete.mpr
        ⟨writing, closed, _, rfl, writes, rfl⟩, rfl⟩)))))))),
    closed, rfl⟩

theorem process_delivery_interleaved :
    ∃ (first last : Process Text) (info : TreeMap Text Text compare)
      (connection : Connection Text),
      Process.newProcess ⟨0, ∅⟩ ∅ (fun _ => .zeroed maxLength) (.mk []) =
        .ok (first, info) ∧
      Run Process.Steps first interleavedEvents last ∧
      (last.component .http).connections[0]? = some connection ∧
      connection.parsed = ["\n\n".toList] := by
  obtain ⟨first, last, info, constructed, run, connection, found⟩ :=
    interleaved_run
  have bytes : delivered (sessionEvents 0 (own .http interleavedEvents)) =
      "\n\n".toList := rfl
  have fits : Fits
      (delivered (sessionEvents 0 (own .http interleavedEvents))) := by
    rw [bytes]
    exact ⟨by decide, by decide⟩
  have given := (process_delivery constructed run .http found fits).1
  rw [bytes] at given
  exact ⟨first, last, info, connection, constructed, run, found, given⟩

end HttpsServer.Serve
