import HttpsServer.Serve.Isolation
import HttpsServer.Serve.Release

namespace HttpsServer.Serve

open Std
open HttpsServer.Data
open HttpsServer.Config
open HttpsServer.Dispatch

variable {Request : Type}

/-! How many sessions a server has in all, has deleted, and has left behind. -/

/-- What is reported is an error. -/
def Signal.failed : Signal → Bool
  | .started => false
  | .accepted error | .shaken error | .received error | .written error => error

def Signal.isAccepted : Signal → Bool
  | .accepted _ => true
  | _ => false

theorem Moves.deleted_iff {phase next : Phase} {signal : Signal}
    (move : Moves phase signal next) :
    next = .deleted ↔ signal.failed = true := by
  cases move <;> simp [Signal.failed]

theorem Moves.not_deleted {phase next : Phase} {signal : Signal}
    (move : Moves phase signal next) : phase ≠ .deleted := by
  cases move <;> decide

theorem count_set {phases : List Phase} {session : Nat} {phase next target : Phase}
    (held : phases[session]? = some phase) (notBefore : phase ≠ target) :
    (phases.set session next).count target =
      phases.count target + if next = target then 1 else 0 := by
  obtain ⟨bound, same⟩ := List.getElem?_eq_some_iff.mp held
  rw [List.count_set bound, same, if_neg (by simpa using notBefore), Nat.sub_zero]
  simp only [beq_iff_eq]

/-- A phase that no session leaves is entered once for each signal that leads to
it. -/
theorem Advances.count_final {target : Phase} {arrives : Signal → Bool}
    (final : ∀ {phase signal next}, Moves phase signal next → phase ≠ target)
    (arrives_iff : ∀ {phase signal next}, Moves phase signal next →
      (next = target ↔ arrives signal = true))
    {before after : List Phase} {label : Nat × Signal}
    (step : Advances before label after) :
    after.count target =
      before.count target + if arrives label.2 = true then 1 else 0 := by
  have notWaiting : Phase.waiting ≠ target := final .accepted
  cases step with
  | accept found move =>
      rw [List.count_append, count_set found notWaiting,
        List.count_singleton, if_neg (fun same => notWaiting (eq_of_beq same)),
        Nat.add_zero, if_congr (arrives_iff move) rfl rfl]
  | move found later move =>
      rw [count_set found (final move), if_congr (arrives_iff move) rfl rfl]

theorem Advances.length {before after : List Phase} {label : Nat × Signal}
    (step : Advances before label after) :
    after.length =
      before.length + if label.2.isAccepted = true then 1 else 0 := by
  cases step with
  | accept found move =>
      rw [List.length_append, List.length_set]
      rfl
  | move found later move =>
      rw [List.length_set]
      cases move with
      | accepted | notAccepted => contradiction
      | _ => rfl

/-! The sessions of a server, by their phases. -/

def Server.number (server : Server Request)
    (which : SessionPtr → Connection Request → Bool) : Nat :=
  server.connections.zipIdx.countP fun entry => which entry.2 entry.1

/-- Sessions that are deleted. -/
def Server.deleted (server : Server Request) : Nat :=
  server.number fun _ connection => 0 < connection.deletions

/-- Sessions that an accept, a thread or an operation will still call back. -/
def Server.owned (server : Server Request) : Nat :=
  server.number fun session connection =>
    0 < server.outstanding session connection

/-- Sessions that nothing will call back, and that are not deleted. -/
def Server.leaked (server : Server Request) : Nat :=
  server.number fun session connection =>
    connection.deletions = 0 ∧ server.outstanding session connection = 0

theorem Represents.number {server : Server Request} {phases : List Phase}
    (represents : Represents server phases)
    {which : SessionPtr → Connection Request → Bool} {counted : Phase → Bool}
    (each : ∀ (session : SessionPtr) (connection : Connection Request)
      (phase : Phase), phases[session]? = some phase →
      InPhase connection phase → which session connection = counted phase) :
    server.number which = phases.countP counted := by
  have same : server.connections.zipIdx.map (fun entry =>
      which entry.2 entry.1) = phases.map counted := by
    apply List.ext_getElem
    · simp [represents.length]
    · intro session left right
      rw [List.length_map] at left right
      rw [List.getElem_map, List.getElem_map, List.getElem_zipIdx]
      rw [List.length_zipIdx] at left
      have held := List.getElem?_eq_getElem right
      have found := List.getElem?_eq_getElem left
      rw [Nat.zero_add]
      exact each session _ _ held (represents.inPhase _ _ _ found held)
  have counts := congrArg (List.countP id) same
  rw [List.countP_map, List.countP_map] at counts
  exact counts

theorem phases_length (phases : List Phase) :
    phases.countP (0 < ·.outstanding) + phases.count .finished +
      phases.count .deleted = phases.length := by
  induction phases with
  | nil => rfl
  | cons phase phases induction =>
      rw [List.countP_cons, List.count_cons, List.count_cons, List.length_cons,
        ← induction]
      cases phase <;> simp [Phase.outstanding] <;> omega

/-! The census along a run. -/

def Event.isAccept (event : Event Request) : Bool :=
  event.label.2.isAccepted

def Event.isFailure (event : Event Request) : Bool :=
  event.label.2.failed

/-- What its own events say of a session: it is deleted for an error, left behind
when its write has succeeded, and called back otherwise. -/
structure Settles (server : Server Request) (session : SessionPtr)
    (connection : Connection Request) (done : List (Event Request)) : Prop where
  deleted : connection.deletions = done.countP Event.isFailure
  once : connection.deletions ≤ 1
  leaked : connection.deletions = 0 ∧
      server.outstanding session connection = 0 ↔
    ∃ event ∈ done, event.isWritten = true
  owned : 0 < server.outstanding session connection ↔
    ∀ event ∈ done, event.isFailure = false ∧ event.isWritten = false

/-- What the events of a server say of its sessions, of each and in all. -/
structure Census (server : Server Request) (events : List (Event Request)) :
    Prop where
  each : ∀ (session : SessionPtr) (connection : Connection Request),
    server.connections[session]? = some connection →
    Settles server session connection (sessionEvents session events)
  allocated : server.connections.length = 1 + events.countP Event.isAccept
  deleted : server.deleted = events.countP Event.isFailure
  leaked : server.leaked = events.countP Event.isWritten
  owned : server.owned + server.leaked + server.deleted =
    server.connections.length

theorem Event.isWritten_of_moves {event : Event Request} {phase next : Phase}
    (move : Moves phase event.label.2 next) :
    next = .finished ↔ event.isWritten = true :=
  move.finished_iff.trans event.isWritten_iff

/-- A session enters a phase that it never leaves with one of its events. -/
theorem Lives.count_final {target : Phase} (arrives : Event Request → Bool)
    (final : ∀ {phase signal next}, Moves phase signal next → phase ≠ target)
    (arrives_iff : ∀ {phase next} {event : Event Request},
      Moves phase event.label.2 next → (next = target ↔ arrives event = true))
    {dispatcher : Dispatcher} {first last : Connection Request × Phase}
    {done : List (Event Request)}
    (run : Run (Lives dispatcher) first done last) (initial : first.2 ≠ target) :
    done.countP arrives = if last.2 = target then 1 else 0 := by
  have count := run.counts (fun state => if state.2 = target then 1 else 0)
    arrives (by
      intro before event after lives
      rw [if_neg (final lives.moves), Nat.zero_add]
      exact if_congr (arrives_iff lives.moves) rfl rfl)
  rw [if_neg initial, Nat.zero_add] at count
  exact count.symm

theorem exists_iff_of_countP {Item : Type} {items : List Item}
    {wanted : Item → Bool} {property : Prop} [Decidable property]
    (count : items.countP wanted = if property then 1 else 0) :
    (∃ item ∈ items, wanted item = true) ↔ property := by
  rw [← List.countP_pos_iff, count]
  split <;> simp [*]

theorem Represents.settles {version : Version} {dispatcher : Dispatcher}
    {server : Server Request} {phases : List Phase}
    {events : List (Event Request)} (represents : Represents server phases)
    (isolated : Isolated version dispatcher events server phases)
    {session : SessionPtr} {connection : Connection Request}
    (found : server.connections[session]? = some connection) :
    Settles server session connection (sessionEvents session events) := by
  obtain ⟨phase, held, inPhase⟩ := represents.phase found
  obtain ⟨_, _, lived⟩ := isolated.lived session connection phase found held
  have failures := Lives.count_final Event.isFailure Moves.not_deleted
    (fun move => move.deleted_iff) lived nofun
  have writes := Lives.count_final Event.isWritten Moves.not_finished
    Event.isWritten_of_moves lived nofun
  have fails : (∃ event ∈ sessionEvents session events,
      event.isFailure = true) ↔ phase = .deleted :=
    exists_iff_of_countP failures
  have written : (∃ event ∈ sessionEvents session events,
      event.isWritten = true) ↔ phase = .finished := exists_iff_of_countP writes
  have deletions := inPhase.deletions
  have outstanding := represents.outstanding held inPhase
  refine ⟨deletions.trans failures.symm, ?_, ?_, ?_⟩
  · rw [deletions]
    split <;> decide
  · rw [deletions, outstanding, written]
    cases phase <;> decide
  · have running : (∀ event ∈ sessionEvents session events,
        event.isFailure = false ∧ event.isWritten = false) ↔
        phase ≠ .deleted ∧ phase ≠ .finished := by
      rw [Ne, Ne, ← fails, ← written]
      simp only [not_exists, not_and, Bool.not_eq_true, forall_and]
    rw [outstanding, running]
    cases phase <;> decide

theorem Represents.census {server : Server Request} {phases : List Phase}
    {events : List (Event Request)} (represents : Represents server phases)
    (advances : Run Advances [.waiting] (events.map Event.label) phases)
    (each : ∀ (session : SessionPtr) (connection : Connection Request),
      server.connections[session]? = some connection →
      Settles server session connection (sessionEvents session events)) :
    Census server events := by
  have owned : server.owned = phases.countP (0 < ·.outstanding) :=
    represents.number fun session connection phase held inPhase => by
      rw [represents.outstanding held inPhase]
  have deleted : server.deleted = phases.count .deleted :=
    represents.number fun session connection phase held inPhase => by
      rw [inPhase.deletions]
      cases phase <;> rfl
  have leaked : server.leaked = phases.count .finished :=
    represents.number fun session connection phase held inPhase => by
      rw [inPhase.deletions, represents.outstanding held inPhase]
      cases phase <;> rfl
  refine ⟨each, ?_, ?_, ?_, ?_⟩
  · have length := advances.counts List.length
      (fun label => label.2.isAccepted) Advances.length
    rw [← represents.length, length, List.countP_map]
    rfl
  · have count := advances.counts (List.count .deleted)
      (fun label => label.2.failed)
      (Advances.count_final Moves.not_deleted Moves.deleted_iff)
    rw [deleted, count, List.countP_map]
    exact Nat.zero_add _
  · have written_iff : ∀ {phase signal next}, Moves phase signal next →
        (next = .finished ↔ decide (signal = .written false) = true) :=
      fun move => move.finished_iff.trans decide_eq_true_iff.symm
    have count := advances.counts (List.count .finished)
      (fun label => label.2 = .written false)
      (Advances.count_final Moves.not_finished written_iff)
    rw [leaked, count, List.countP_map]
    refine (Nat.zero_add _).trans (List.countP_congr fun event _ => ?_)
    exact decide_eq_true_iff.trans event.isWritten_iff
  · rw [owned, leaked, deleted, phases_length, represents.length]

/-- However the callbacks of the two servers are interleaved, each server has one
session for each accept and the one it waits with. It has deleted those with an
event that failed, each once, and left behind those whose response was written. -/
theorem process_census {statics : Statics}
    {info lastInfo : TreeMap Text Text compare}
    {memory : Version → CharArray maxLength} {config : NginxConfig}
    {first last : Process Request} {events : List (Version × Event Request)}
    (constructed : Process.newProcess statics info memory config =
      .ok (first, lastInfo))
    (run : Run Process.Steps first events last) (version : Version) :
    Safe (last.component version) ∧
      Census (last.component version) (own version events) := by
  obtain ⟨phases, advances, represents⟩ :=
    represents_process constructed run version
  obtain ⟨_, _, _, isolates⟩ := isolated_process constructed run
  obtain ⟨_, isolatedRepresents, isolated⟩ := isolates version
  exact ⟨represents.safe_run advances, represents.census advances
    fun _ _ found => isolatedRepresents.settles isolated found⟩

theorem process_census_refused :
    ∃ (first last : Process Text) (info : TreeMap Text Text compare)
      (connection : Connection Text),
      Process.newProcess ⟨0, ∅⟩ ∅ (fun _ => .zeroed maxLength) (.mk []) =
        .ok (first, info) ∧
      Run Process.Steps first [(.https, .accept 0 false (.zeroed maxLength)),
        (.http, .accept 0 true (.zeroed maxLength)), (.https, .start 0),
        (.https, .complete 0 (.handshake (some .httpRequest)))] last ∧
      (last.component .http).deleted = 1 ∧
      (last.component .https).connections[0]? = some connection ∧
      connection.deletions = 1 := by
  obtain ⟨first, last, info, connection, constructed, run, found⟩ :
      ∃ (first last : Process Text) (info : TreeMap Text Text compare)
        (connection : Connection Text),
        Process.newProcess ⟨0, ∅⟩ ∅ (fun _ => .zeroed maxLength) (.mk []) =
          .ok (first, info) ∧
        Run Process.Steps first [(.https, .accept 0 false (.zeroed maxLength)),
          (.http, .accept 0 true (.zeroed maxLength)), (.https, .start 0),
          (.https, .complete 0 (.handshake (some .httpRequest)))] last ∧
        (last.component .https).connections[0]? = some connection :=
    ⟨_, _, _, _, rfl, .cons (.turn ⟨rfl, rfl⟩) (.cons (.turn ⟨rfl, rfl⟩)
      (.cons (.turn ⟨rfl, rfl⟩) (.single (.turn ⟨rfl, rfl⟩)))), rfl⟩
  exact ⟨first, last, info, connection, constructed, run,
    (process_census constructed run .http).2.deleted, found,
    ((process_census constructed run .https).2.each 0 connection found).deleted⟩

end HttpsServer.Serve
