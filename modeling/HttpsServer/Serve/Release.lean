import HttpsServer.Serve.Ownership
import HttpsServer.Serve.Reading

namespace HttpsServer.Serve

open Std
open HttpsServer.Data
open HttpsServer.Config
open HttpsServer.Dispatch

variable {Request : Type}

/-! Which sessions stay allocated once nothing will call them back. -/

/-- Every session that has been accepted, or refused, and that nothing will call
back has been deleted. -/
def Released (server : Server Request) : Prop :=
  ∀ (session : SessionPtr) (connection : Connection Request),
    server.connections[session]? = some connection →
    session ∉ server.accepting →
    server.outstanding session connection = 0 → 0 < connection.deletions

theorem Represents.released_iff {server : Server Request}
    {phases : List Phase} (represents : Represents server phases) :
    Released server ↔ .finished ∉ phases := by
  constructor
  · intro released finished
    obtain ⟨session, held⟩ := List.mem_iff_getElem?.mp finished
    obtain ⟨bound, _⟩ := List.getElem?_eq_some_iff.mp held
    rw [represents.length] at bound
    have found := List.getElem?_eq_getElem bound
    have inPhase := represents.inPhase _ _ _ found held
    have notAccepting : session ∉ server.accepting := by
      rw [mem_iff_of_count (represents.accepting session), held]
      nofun
    have positive := released session _ found notAccepting
      (represents.outstanding held inPhase)
    rw [inPhase.deletions] at positive
    contradiction
  · intro notFinished session connection found _ outstanding
    obtain ⟨phase, held, inPhase⟩ := represents.phase found
    rw [represents.outstanding held inPhase] at outstanding
    rw [inPhase.deletions]
    cases phase with
    | deleted => decide
    | finished => exact absurd (List.mem_of_getElem? held) notFinished
    | waiting | spawned | handshaking | reading | writing => contradiction

def Event.isWritten : Event Request → Bool
  | .complete _ (.write false) => true
  | _ => false

theorem Event.isWritten_iff (event : Event Request) :
    event.label.2 = .written false ↔ event.isWritten = true := by
  cases event with
  | accept | start => exact ⟨nofun, nofun⟩
  | complete session completion =>
      cases completion with
      | handshake | read => exact ⟨nofun, nofun⟩
      | write error => cases error <;> simp [label, Completion.signal, isWritten]

theorem finished_not_mem_events {events : List (Event Request)}
    {phases : List Phase}
    (advances : Run Advances [.waiting] (events.map Event.label) phases) :
    .finished ∉ phases ↔ ∀ event ∈ events, event.isWritten = false := by
  rw [finished_not_mem_iff advances (by decide), List.forall_mem_map]
  refine forall_congr' fun event => imp_congr_right fun _ => ?_
  rw [ne_eq, event.isWritten_iff, Bool.not_eq_true]

/-- All sessions that are done have been released exactly when no write of the
run has succeeded: `handle_write` closes the socket then and keeps the session. -/
theorem run_released_iff {version : Version} {statics : Statics}
    {info lastInfo : TreeMap Text Text compare}
    {memory : CharArray maxLength} {config : NginxConfig}
    {first last : Server Request} {events : List (Event Request)}
    (constructed : Server.newServer version statics info memory config =
      .ok (first, lastInfo))
    (run : Run Steps first events last) :
    Released last ↔ ∀ event ∈ events, event.isWritten = false := by
  obtain ⟨phases, advances, represents⟩ := represents_run constructed run
  rw [represents.released_iff, finished_not_mem_events advances]

theorem released_refused :
    ∃ (first last : Server Text) (info : TreeMap Text Text compare),
      Server.newServer .http ⟨0, ∅⟩ ∅ (.zeroed maxLength) (.mk []) =
        .ok (first, info) ∧
      Run Steps first [.accept 0 true (.zeroed maxLength)] last ∧
      Released last := by
  obtain ⟨first, last, info, constructed, run⟩ :
      ∃ (first last : Server Text) (info : TreeMap Text Text compare),
        Server.newServer .http ⟨0, ∅⟩ ∅ (.zeroed maxLength) (.mk []) =
          .ok (first, info) ∧
        Run Steps first [.accept 0 true (.zeroed maxLength)] last :=
    ⟨_, _, _, rfl, .single rfl⟩
  refine ⟨first, last, info, constructed, run,
    (run_released_iff constructed run).mpr ?_⟩
  intro event member
  rw [List.mem_singleton.mp member]
  rfl

/-! A server that answers a malformed request. -/

/-- The parser sets its error code. -/
def refusingWorld : World Text where
  put _ := none
  target := id
  handleRequest _ _ _ := none
  connected := true

def answeredEvents : List (Event Text) :=
  [.accept 0 false (.zeroed maxLength), .start 0,
    .complete 0 (.read 0 maxLength (some "\n\n".toList) refusingWorld),
    .complete 0 (.write false)]

theorem Receiving.answered {connection : Connection Text} {already chunk : Text}
    (receiving : Receiving connection already) (dispatcher : Dispatcher)
    (statics : Statics) (nonempty : chunk ≠ [])
    (whole : already ++ chunk = "\n\n".toList) :
    ∃ writing closed,
      Completes dispatcher (connection, statics)
        (.read already.length maxLength (some chunk) refusingWorld)
        (writing, statics) ∧
      Completes dispatcher (writing, statics) (.write false)
        (closed, statics) := by
  obtain ⟨after, holds, _, called⟩ :=
    receiving.callback dispatcher refusingWorld statics nonempty
      (by rw [whole]; decide) (by rw [whole]; decide)
  rw [whole] at holds called
  have ended : isEnded "\n\n".toList = true := by decide
  have text := holds.text? (by decide) (by decide)
  rw [if_pos ended, Session.sendResponse, text] at called
  have idle : connection.pending.erase (.read already.length maxLength) = [] := by
    rw [receiving.pending, List.erase_cons_head]
  refine ⟨_, _, complete_iff.mpr ⟨?_, _, called, .returned rfl⟩,
    complete_iff.mpr ⟨?_, _, rfl, .returned rfl⟩⟩
  · rw [receiving.pending]
    exact List.mem_singleton_self _
  · change Operation.write ∈
      connection.pending.erase (.read already.length maxLength) ++ _
    rw [idle]
    exact List.mem_singleton_self _

theorem answered_run :
    ∃ (first last : Server Text) (info : TreeMap Text Text compare),
      Server.newServer .http ⟨0, ∅⟩ ∅ (.zeroed maxLength) (.mk []) =
        .ok (first, info) ∧
      Run Steps first answeredEvents last := by
  obtain ⟨connection, started⟩ : ∃ connection : Connection Text,
      (Connection.allocated (newSession .http (.zeroed maxLength))).start =
        some connection := Connection.start_returns _
  have opened : Opened ⟨[], ∅, 0⟩ .http connection := .http rfl started
  have constructed : Server.newServer .http ⟨0, ∅⟩ ∅ (.zeroed maxLength)
      (.mk []) = .ok ((_ : Server Text), _) := rfl
  obtain ⟨writing, closed, reads, writes⟩ :=
    opened.receiving.1.answered _ ⟨0, ∅⟩ (List.cons_ne_nil _ _) rfl
  exact ⟨_, _, _, constructed, .cons rfl
    (.cons (steps_start.mpr ⟨by decide, _, connection, rfl, started, rfl⟩)
      (.cons (steps_complete.mpr ⟨connection, writing, _, rfl, reads, rfl⟩)
        (.single (steps_complete.mpr ⟨writing, closed, _, rfl, writes, rfl⟩))))⟩

/-- Its response is written, and the session stays. -/
theorem not_released_answered :
    ∃ (first last : Server Text) (info : TreeMap Text Text compare),
      Server.newServer .http ⟨0, ∅⟩ ∅ (.zeroed maxLength) (.mk []) =
        .ok (first, info) ∧
      Run Steps first answeredEvents last ∧ ¬ Released last := by
  obtain ⟨first, last, info, constructed, run⟩ := answered_run
  refine ⟨first, last, info, constructed, run, ?_⟩
  obtain ⟨phases, advances, represents⟩ := represents_run constructed run
  rw [represents.released_iff, finished_not_mem_events advances]
  intro unwritten
  have written := unwritten (.complete 0 (.write false)) (by
    simp [answeredEvents])
  contradiction

end HttpsServer.Serve
