import Mathlib.Data.List.Basic
import HttpsServer.Serve.Lifecycle
import HttpsServer.Serve.Server

namespace HttpsServer.Serve

open Std
open HttpsServer.Data
open HttpsServer.Config
open HttpsServer.Dispatch

variable {Request : Type}

/-! The phase of a connection, from what it counts. -/

def Connection.writes (connection : Connection Request) : Nat :=
  (connection.calls.filterMap Call.operation?).count .write

def InPhase (connection : Connection Request) : Phase → Prop
  | .waiting | .spawned =>
      connection.pending = [] ∧ connection.started = 0 ∧
        connection.deletions = 0 ∧ connection.writes = 0
  | .handshaking =>
      connection.pending = [.handshake] ∧ connection.deletions = 0 ∧
        connection.writes = 0
  | .reading =>
      (∃ offset length, connection.pending = [.read offset length]) ∧
        connection.deletions = 0 ∧ connection.writes = 0
  | .writing =>
      connection.pending = [.write] ∧ connection.deletions = 0 ∧
        connection.writes = 1
  | .finished =>
      connection.pending = [] ∧ connection.deletions = 0 ∧
        connection.writes = 1
  | .deleted =>
      connection.pending = [] ∧ connection.deletions = 1 ∧
        connection.writes ≤ 1

def Operation.phase : Operation → Phase
  | .handshake => .handshaking
  | .read _ _ => .reading
  | .write => .writing

theorem Operation.phase_running (operation : Operation) :
    operation.phase ≠ .waiting ∧ operation.phase ≠ .spawned := by
  cases operation <;> exact ⟨nofun, nofun⟩

def Completion.signal : Completion Request → Signal
  | .handshake error => .shaken error.isSome
  | .read _ _ received _ => .received received.isNone
  | .write error => .written error

theorem InPhase.outstanding {connection : Connection Request} {phase : Phase}
    (inPhase : InPhase connection phase) {operation : Operation}
    (outstanding : operation ∈ connection.pending) :
    phase = operation.phase ∧ connection.pending = [operation] ∧
      connection.deletions = 0 ∧
      connection.writes = if operation = .write then 1 else 0 := by
  cases phase with
  | waiting | spawned | finished | deleted =>
      rw [inPhase.1] at outstanding
      contradiction
  | handshaking =>
      obtain ⟨pending, deletions, writes⟩ := inPhase
      rw [pending, List.mem_singleton] at outstanding
      subst outstanding
      exact ⟨rfl, pending, deletions, writes⟩
  | reading =>
      obtain ⟨⟨offset, length, pending⟩, deletions, writes⟩ := inPhase
      rw [pending, List.mem_singleton] at outstanding
      subst outstanding
      exact ⟨rfl, pending, deletions, writes⟩
  | writing =>
      obtain ⟨pending, deletions, writes⟩ := inPhase
      rw [pending, List.mem_singleton] at outstanding
      subst outstanding
      exact ⟨rfl, pending, deletions, writes⟩

theorem writes_append {connection after : Connection Request}
    {calls : List (Call Request)} (appended : after.calls =
      connection.calls ++ calls) :
    after.writes = connection.writes +
      (calls.filterMap Call.operation?).count .write := by
  rw [Connection.writes, appended, List.filterMap_append, List.count_append]
  rfl

theorem operations_write {before : List (Call Request)} {stream : Stream}
    {response : Response} (idle : before.filterMap Call.operation? = []) :
    (before ++ [Call.asyncWrite stream response]).filterMap Call.operation? =
      [.write] := by
  rw [List.filterMap_append, idle]
  rfl

theorem InPhase.complete {dispatcher : Dispatcher}
    {before after : Connection Request} {statics lastStatics : Statics}
    {completion : Completion Request} {phase : Phase}
    (inPhase : InPhase before phase)
    (step : Completes dispatcher (before, statics) completion
      (after, lastStatics)) :
    ∃ next, Moves phase completion.signal next ∧ InPhase after next := by
  obtain ⟨outstanding, effect, called, performed⟩ := complete_iff.mp step
  obtain ⟨rfl, pending, deletions, writes⟩ := inPhase.outstanding outstanding
  have erased : before.pending.erase completion.operation = [] := by
    rw [pending, List.erase_cons_head]
  have written : after.writes = before.writes +
      (effect.calls.filterMap Call.operation?).count .write :=
    writes_append performed.calls
  rw [erased] at performed
  have follows := callback_follows called
  cases follows with
  | crashed => cases performed <;> contradiction
  | shaken =>
      obtain rfl := performed.returned_eq
      exact ⟨.reading, .shaken, ⟨0, maxLength, rfl⟩, deletions,
        written.trans writes⟩
  | notShaken =>
      obtain rfl := performed.deleted_eq
      exact ⟨.deleted, .notShaken, rfl, congrArg (· + 1) deletions,
        Nat.le_trans (Nat.le_of_eq (written.trans writes)) (Nat.zero_le 1)⟩
  | append =>
      obtain rfl := performed.returned_eq
      exact ⟨.reading, .append, ⟨_, maxLength, rfl⟩, deletions,
        written.trans writes⟩
  | respond receives ended idle =>
      obtain rfl := performed.returned_eq
      refine ⟨.writing, .respond, operations_write idle, deletions, ?_⟩
      rw [written, operations_write idle, writes]
      rfl
  | notReceived =>
      obtain rfl := performed.deleted_eq
      exact ⟨.deleted, .notReceived, rfl, congrArg (· + 1) deletions,
        Nat.le_trans (Nat.le_of_eq (written.trans writes)) (Nat.zero_le 1)⟩
  | written =>
      obtain rfl := performed.returned_eq
      exact ⟨.finished, .written, rfl, deletions, written.trans writes⟩
  | notWritten =>
      obtain rfl := performed.deleted_eq
      exact ⟨.deleted, .notWritten, rfl, congrArg (· + 1) deletions,
        Nat.le_of_eq (written.trans writes)⟩

theorem InPhase.start {before after : Connection Request}
    (inPhase : InPhase before .spawned) (started : before.start = some after) :
    ∃ next, Moves .spawned .started next ∧ InPhase after next := by
  obtain ⟨pending, _, deletions, writes⟩ := inPhase
  have performed := perform_iff.mp started
  have written := writes_append performed.calls
  rw [pending] at performed
  unfold Session.start at performed written
  cases version : before.session.version with
  | https =>
      rw [version] at performed written
      obtain rfl := performed.returned_eq
      exact ⟨.handshaking, .handshake, rfl, deletions, written.trans writes⟩
  | http =>
      rw [version] at performed written
      obtain rfl := performed.returned_eq
      exact ⟨.reading, .read, ⟨0, maxLength, rfl⟩, deletions,
        written.trans writes⟩

/-! The server refines the lifecycle of its sessions. -/

/-- How often a session occurs in a list that holds those of one phase. -/
def inCount (phases : List Phase) (phase : Phase) (session : SessionPtr) : Nat :=
  if phases[session]? = some phase then 1 else 0

structure Represents (server : Server Request) (phases : List Phase) :
    Prop where
  length : phases.length = server.connections.length
  inPhase : ∀ (session : SessionPtr) (connection : Connection Request)
    (phase : Phase), server.connections[session]? = some connection →
    phases[session]? = some phase → InPhase connection phase
  accepting : ∀ session : SessionPtr,
    server.accepting.count session = inCount phases .waiting session
  spawned : ∀ session : SessionPtr,
    server.spawned.count session = inCount phases .spawned session

theorem inCount_set {phases : List Phase} {session : SessionPtr} {phase : Phase}
    (held : phases[session]? = some phase) (next target : Phase)
    (other : SessionPtr) :
    inCount (phases.set session next) target other =
      if session = other then if next = target then 1 else 0
      else inCount phases target other := by
  rw [inCount, inCount, getElem?_set_found held]
  split
  next => simp
  next => rfl

theorem inCount_append (phases : List Phase) (next target : Phase)
    (other : SessionPtr) :
    inCount (phases ++ [next]) target other =
      if other = phases.length then if next = target then 1 else 0
      else inCount phases target other := by
  rw [inCount, inCount, getElem?_append_singleton]
  split
  next => simp
  next => rfl

theorem inCount_length (phases : List Phase) (phase : Phase) :
    inCount phases phase phases.length = 0 := by
  rw [inCount, List.getElem?_eq_none (Nat.le_refl _)]
  rfl

theorem inCount_set_other {phases : List Phase} {session : SessionPtr}
    {phase next target : Phase} (held : phases[session]? = some phase)
    (notBefore : phase ≠ target) (notAfter : next ≠ target)
    (other : SessionPtr) :
    inCount (phases.set session next) target other =
      inCount phases target other := by
  rw [inCount_set held]
  split
  next same =>
    subst same
    rw [inCount, held, if_neg]
    exact fun equal => notBefore (Option.some.inj equal)
  next => rfl

theorem inCount_set_leave {phases : List Phase} {session : SessionPtr}
    {next target : Phase} (held : phases[session]? = some target)
    (notAfter : next ≠ target) (other : SessionPtr) :
    inCount (phases.set session next) target other =
      inCount phases target other - if session = other then 1 else 0 := by
  rw [inCount_set held]
  split
  next same =>
    subst same
    rw [inCount, if_pos held]
  next => rfl

theorem inCount_set_enter {phases : List Phase} {session : SessionPtr}
    {phase target : Phase} (held : phases[session]? = some phase)
    (notBefore : phase ≠ target) (other : SessionPtr) :
    inCount (phases.set session target) target other =
      inCount phases target other + if session = other then 1 else 0 := by
  rw [inCount_set held]
  split
  next same =>
    subst same
    rw [if_pos rfl, inCount, held, if_neg]
    exact fun equal => notBefore (Option.some.inj equal)
  next => rfl

theorem count_erase_session (list : List SessionPtr)
    (session other : SessionPtr) :
    (list.erase session).count other =
      list.count other - if session = other then 1 else 0 := by
  rw [List.count_erase]
  simp [beq_iff_eq]

theorem count_append_session (list : List SessionPtr)
    (session other : SessionPtr) :
    (list ++ [session]).count other =
      list.count other + if session = other then 1 else 0 := by
  rw [List.count_append, List.count_singleton]
  simp [beq_iff_eq]

theorem mem_iff_of_count {phases : List Phase} {phase : Phase}
    {session : SessionPtr} {list : List SessionPtr}
    (count : list.count session = inCount phases phase session) :
    session ∈ list ↔ phases[session]? = some phase := by
  rw [← List.count_pos_iff, count, inCount]
  split <;> simp [*]

theorem Represents.phase {server : Server Request} {phases : List Phase}
    (represents : Represents server phases) {session : SessionPtr}
    {connection : Connection Request}
    (found : server.connections[session]? = some connection) :
    ∃ phase, phases[session]? = some phase ∧ InPhase connection phase := by
  obtain ⟨bound, _⟩ := List.getElem?_eq_some_iff.mp found
  rw [← represents.length] at bound
  have held := List.getElem?_eq_getElem bound
  exact ⟨_, held, represents.inPhase _ _ _ found held⟩

/-- Where one session changes its phase and the others keep their connections. -/
theorem Represents.changed {server : Server Request} {phases : List Phase}
    (represents : Represents server phases) {session : SessionPtr}
    {connections : List (Connection Request)} {phase next : Phase}
    (held : phases[session]? = some phase)
    (here : ∀ connection, connections[session]? = some connection →
      InPhase connection next)
    (elsewhere : ∀ other : SessionPtr, session ≠ other →
      connections[other]? = server.connections[other]?) :
    ∀ (other : SessionPtr) (connection : Connection Request)
      (otherPhase : Phase), connections[other]? = some connection →
      (phases.set session next)[other]? = some otherPhase →
      InPhase connection otherPhase := by
  intro other connection otherPhase found otherHeld
  rw [getElem?_set_found held] at otherHeld
  split at otherHeld
  next same =>
    subst same
    cases otherHeld
    exact here connection found
  next different =>
    rw [elsewhere other different] at found
    exact represents.inPhase other connection otherPhase found otherHeld

theorem Represents.set {server : Server Request} {phases : List Phase}
    (represents : Represents server phases) {session : SessionPtr}
    {before after : Connection Request} {phase next : Phase}
    (found : server.connections[session]? = some before)
    (held : phases[session]? = some phase) (inPhase : InPhase after next) :
    ∀ (other : SessionPtr) (connection : Connection Request)
      (otherPhase : Phase),
      (server.connections.set session after)[other]? = some connection →
      (phases.set session next)[other]? = some otherPhase →
      InPhase connection otherPhase := by
  refine represents.changed held ?_ fun other different =>
    List.getElem?_set_ne different
  intro connection now
  rw [getElem?_set_found found, if_pos rfl] at now
  cases now
  exact inPhase

def Event.label : Event Request → SessionPtr × Signal
  | .accept session error _ => (session, .accepted error)
  | .start session => (session, .started)
  | .complete session completion => (session, completion.signal)

theorem represents_complete {server next : Server Request}
    {phases : List Phase} {session : SessionPtr}
    {completion : Completion Request}
    (represents : Represents server phases)
    (step : Steps server (.complete session completion) next) :
    ∃ after, Advances phases (session, completion.signal) after ∧
      Represents next after := by
  obtain ⟨before, after, statics, found, completed, rfl⟩ :=
    steps_complete.mp step
  obtain ⟨phase, held, inPhase⟩ := represents.phase found
  obtain ⟨nextPhase, move, nextInPhase⟩ := inPhase.complete completed
  have running := (inPhase.outstanding (complete_iff.mp completed).1).1
  obtain ⟨notWaiting, notSpawned⟩ := running ▸ completion.operation.phase_running
  refine ⟨phases.set session nextPhase, .move held notWaiting move, ?_,
    represents.set found held nextInPhase, ?_, ?_⟩
  · rw [List.length_set, List.length_set, represents.length]
  · intro other
    rw [inCount_set_other held notWaiting move.next_ne_waiting]
    exact represents.accepting other
  · intro other
    rw [inCount_set_other held notSpawned (move.next_ne_spawned notWaiting)]
    exact represents.spawned other

theorem represents_start {server next : Server Request}
    {phases : List Phase} {session : SessionPtr}
    (represents : Represents server phases)
    (step : Steps server (.start session) next) :
    ∃ after, Advances phases (session, .started) after ∧
      Represents next after := by
  obtain ⟨outstanding, before, after, found, started, rfl⟩ := steps_start.mp step
  have held := (mem_iff_of_count (represents.spawned session)).mp outstanding
  have inPhase := represents.inPhase _ _ _ found held
  obtain ⟨nextPhase, move, nextInPhase⟩ := inPhase.start started
  have notWaiting : Phase.spawned ≠ .waiting := by decide
  refine ⟨phases.set session nextPhase, .move held notWaiting move, ?_,
    represents.set found held nextInPhase, ?_, ?_⟩
  · rw [List.length_set, List.length_set, represents.length]
  · intro other
    rw [inCount_set_other held notWaiting move.next_ne_waiting]
    exact represents.accepting other
  · intro other
    rw [inCount_set_leave held (move.next_ne_spawned notWaiting),
      count_erase_session, represents.spawned other]

theorem Represents.startAccept {server : Server Request} {phases : List Phase}
    (represents : Represents server phases) (memory : CharArray maxLength) :
    Represents (server.startAccept memory) (phases ++ [.waiting]) := by
  refine ⟨?_, ?_, ?_, ?_⟩
  · change (phases ++ [Phase.waiting]).length =
      (server.connections ++ [_]).length
    rw [List.length_append, List.length_append, represents.length]
    rfl
  · intro session connection phase found held
    rw [getElem?_append_singleton] at held
    change (server.connections ++ [_])[session]? = some connection at found
    by_cases new : session = phases.length
    · rw [new, represents.length, List.getElem?_concat_length] at found
      rw [if_pos new] at held
      cases found
      cases held
      exact ⟨rfl, rfl, rfl, rfl⟩
    · rw [if_neg new] at held
      obtain ⟨bound, _⟩ := List.getElem?_eq_some_iff.mp held
      rw [List.getElem?_append_left (represents.length ▸ bound)] at found
      exact represents.inPhase session connection phase found held
  · intro session
    change (server.accepting ++ [server.connections.length]).count session = _
    rw [count_append_session, represents.accepting, inCount_append,
      ← represents.length]
    by_cases new : session = phases.length
    · rw [new, if_pos rfl, if_pos rfl, if_pos rfl, inCount_length]
    · rw [if_neg new, if_neg (Ne.symm new), Nat.add_zero]
  · intro session
    change server.spawned.count session = _
    rw [represents.spawned, inCount_append]
    by_cases new : session = phases.length
    · rw [new, if_pos rfl, inCount_length]
      rfl
    · rw [if_neg new]

theorem represents_accept {server next : Server Request}
    {phases : List Phase} {session : SessionPtr} {error : Bool}
    {memory : CharArray maxLength} (represents : Represents server phases)
    (step : Steps server (.accept session error memory) next) :
    ∃ after, Advances phases (session, .accepted error) after ∧
      Represents next after := by
  obtain ⟨outstanding, rfl⟩ := steps_accept step
  have held := (mem_iff_of_count (represents.accepting session)).mp outstanding
  have notSpawned : Phase.waiting ≠ .spawned := by decide
  cases error with
  | false =>
      have notWaiting : Phase.spawned ≠ .waiting := by decide
      refine ⟨_, .accept held .accepted, .startAccept ⟨?_, ?_, ?_, ?_⟩ memory⟩
      · rw [List.length_set, represents.length]
      · refine represents.changed held ?_ fun other _ => rfl
        intro connection found
        exact represents.inPhase session connection .waiting found held
      · intro other
        rw [count_erase_session, inCount_set_leave held notWaiting,
          represents.accepting other]
      · intro other
        rw [count_append_session, inCount_set_enter held notSpawned,
          represents.spawned other]
  | true =>
      have notWaiting : Phase.deleted ≠ .waiting := by decide
      refine ⟨_, .accept held .notAccepted,
        .startAccept ⟨?_, ?_, ?_, ?_⟩ memory⟩
      · rw [List.length_set, List.length_modify, represents.length]
      · refine represents.changed held ?_ fun other =>
          List.getElem?_modify_ne _ server.connections
        intro connection found
        rw [List.getElem?_modify_eq] at found
        obtain ⟨before, beforeFound, rfl⟩ := Option.map_eq_some_iff.mp found
        obtain ⟨pending, _, deletions, writes⟩ :=
          represents.inPhase session before .waiting beforeFound held
        exact ⟨pending, congrArg (· + 1) deletions,
          Nat.le_trans (Nat.le_of_eq writes) (Nat.zero_le 1)⟩
      · intro other
        rw [count_erase_session, inCount_set_leave held notWaiting,
          represents.accepting other]
      · intro other
        rw [inCount_set_other held notSpawned (by decide)]
        exact represents.spawned other

theorem represents_step {server next : Server Request}
    {event : Event Request} {phases : List Phase}
    (step : Steps server event next) (represents : Represents server phases) :
    ∃ after, Advances phases event.label after ∧ Represents next after := by
  cases event with
  | accept session error memory => exact represents_accept represents step
  | start session => exact represents_start represents step
  | complete session completion => exact represents_complete represents step

theorem represents_newServer {version : Version} {statics : Statics}
    {info lastInfo : TreeMap Text Text compare}
    {memory : CharArray maxLength} {config : NginxConfig}
    {server : Server Request}
    (constructed : Server.newServer version statics info memory config =
      .ok (server, lastInfo)) : Represents server [.waiting] := by
  rw [Server.newServer] at constructed
  cases made : newDispatcher info config with
  | error fault => rw [made] at constructed; contradiction
  | ok result =>
      rw [made] at constructed
      cases constructed
      have empty : Represents (⟨version, result.1, statics, [], [], []⟩ :
          Server Request) [] := ⟨rfl, nofun, fun _ => rfl, fun _ => rfl⟩
      exact empty.startAccept memory

theorem represents_run {version : Version} {statics : Statics}
    {info lastInfo : TreeMap Text Text compare}
    {memory : CharArray maxLength} {config : NginxConfig}
    {first last : Server Request} {events : List (Event Request)}
    (constructed : Server.newServer version statics info memory config =
      .ok (first, lastInfo))
    (run : Run Steps first events last) :
    ∃ phases, Run Advances [.waiting] (events.map Event.label) phases ∧
      Represents last phases :=
  run.simulate Represents Event.label represents_step
    (represents_newServer constructed)

/-! What the phases say of a server: nothing is used after it is deleted. -/

/-- The accepts, threads and operations that will still call back a session. -/
def Server.outstanding (server : Server Request) (session : SessionPtr)
    (connection : Connection Request) : Nat :=
  connection.pending.length + server.accepting.count session +
    server.spawned.count session

structure Safe (server : Server Request) : Prop where
  outstanding : ∀ (session : SessionPtr) (connection : Connection Request),
    server.connections[session]? = some connection →
    server.outstanding session connection ≤ 1
  deleted : ∀ (session : SessionPtr) (connection : Connection Request),
    server.connections[session]? = some connection →
    0 < connection.deletions → connection.deletions = 1 ∧
      server.outstanding session connection = 0
  written : ∀ connection ∈ server.connections, connection.writes ≤ 1
  accepting : ∃ (session : SessionPtr) (connection : Connection Request),
    server.accepting = [session] ∧
    server.connections[session]? = some connection ∧
    connection.started = 0 ∧ connection.deletions = 0

/-- A write is started only for a read after which the request is complete. -/
def WritesAfterRead (server : Server Request) (event : Event Request)
    (next : Server Request) : Prop :=
  ∀ (session : SessionPtr) (after : Connection Request),
    next.connections[session]? = some after →
    0 < after.writes →
    (∃ before, server.connections[session]? = some before ∧
      before.writes = after.writes) ∨
    ∃ before offset length chunk world received,
      server.connections[session]? = some before ∧
      event = .complete session (.read offset length (some chunk) world) ∧
      before.session.receive offset length chunk = some received ∧
      received.endOfRequest = some true

def Phase.outstanding : Phase → Nat
  | .finished | .deleted => 0
  | .waiting | .spawned | .handshaking | .reading | .writing => 1

theorem Represents.outstanding {server : Server Request} {phases : List Phase}
    (represents : Represents server phases) {session : SessionPtr}
    {connection : Connection Request} {phase : Phase}
    (held : phases[session]? = some phase)
    (inPhase : InPhase connection phase) :
    server.outstanding session connection = phase.outstanding := by
  rw [Server.outstanding, represents.accepting, represents.spawned, inCount,
    inCount, held]
  cases phase with
  | reading =>
      obtain ⟨⟨offset, length, pending⟩, _⟩ := inPhase
      rw [pending]
      rfl
  | _ =>
      rw [inPhase.1]
      rfl

theorem InPhase.deletions {connection : Connection Request} {phase : Phase}
    (inPhase : InPhase connection phase) :
    connection.deletions = if phase = .deleted then 1 else 0 := by
  cases phase with
  | waiting | spawned => exact inPhase.2.2.1
  | handshaking | reading | writing | finished | deleted => exact inPhase.2.1

theorem InPhase.writes {connection : Connection Request} {phase : Phase}
    (inPhase : InPhase connection phase) : connection.writes ≤ 1 := by
  cases phase with
  | waiting | spawned => exact Nat.le_trans (Nat.le_of_eq inPhase.2.2.2) (by decide)
  | deleted => exact inPhase.2.2
  | handshaking | reading =>
      exact Nat.le_trans (Nat.le_of_eq inPhase.2.2) (by decide)
  | writing | finished => exact Nat.le_of_eq inPhase.2.2

theorem Represents.accepting_eq {server : Server Request}
    {phases : List Phase} (represents : Represents server phases)
    {session : SessionPtr} (waits : LastWaits phases)
    (last : session + 1 = phases.length) : server.accepting = [session] := by
  apply List.perm_singleton.mp
  apply List.perm_iff_count.mpr
  intro other
  rw [represents.accepting, inCount, List.count_singleton]
  by_cases same : session = other
  · subst same
    rw [if_pos ((waits session).mpr last), if_pos (beq_self_eq_true session)]
  · have notWaiting : ¬ phases[other]? = some .waiting := by
      rw [waits other, ← last]
      exact fun equal => same (Nat.succ.inj equal).symm
    rw [if_neg notWaiting, if_neg (by simpa using same)]

theorem Represents.safe {server : Server Request} {phases : List Phase}
    (represents : Represents server phases) (waits : LastWaits phases)
    (nonempty : phases ≠ []) : Safe server := by
  refine ⟨?_, ?_, ?_, ?_⟩
  · intro session connection found
    obtain ⟨phase, held, inPhase⟩ := represents.phase found
    rw [represents.outstanding held inPhase]
    cases phase <;> decide
  · intro session connection found deletions
    obtain ⟨phase, held, inPhase⟩ := represents.phase found
    rw [represents.outstanding held inPhase]
    rw [inPhase.deletions] at deletions ⊢
    split at deletions
    next isDeleted =>
      subst isDeleted
      exact ⟨rfl, rfl⟩
    next => contradiction
  · intro connection member
    obtain ⟨session, found⟩ := List.mem_iff_getElem?.mp member
    obtain ⟨phase, _, inPhase⟩ := represents.phase found
    exact inPhase.writes
  · have positive := List.length_pos_iff.mpr nonempty
    have last : phases.length - 1 + 1 = phases.length := by omega
    have held := (waits _).mpr last
    have bound : phases.length - 1 < server.connections.length := by
      rw [← represents.length]
      omega
    have found := List.getElem?_eq_getElem bound
    obtain ⟨_, started, deletions, _⟩ := represents.inPhase _ _ _ found held
    exact ⟨_, _, represents.accepting_eq waits last, found, started, deletions⟩

theorem writes_completes {dispatcher : Dispatcher}
    {before after : Connection Request} {statics lastStatics : Statics}
    {completion : Completion Request}
    (step : Completes dispatcher (before, statics) completion
      (after, lastStatics)) :
    before.writes = after.writes ∨
      ∃ offset length chunk world received,
        completion = .read offset length (some chunk) world ∧
        before.session.receive offset length chunk = some received ∧
        received.endOfRequest = some true := by
  obtain ⟨_, effect, called, performed⟩ := complete_iff.mp step
  have written : after.writes = before.writes +
      (effect.calls.filterMap Call.operation?).count .write :=
    writes_append performed.calls
  have follows := callback_follows called
  cases follows with
  | respond receives ended _ => exact .inr ⟨_, _, _, _, _, rfl, receives, ended⟩
  | crashed => cases performed <;> contradiction
  | shaken | notShaken | append | notReceived | written | notWritten =>
      exact .inl written.symm

theorem startAccept_getElem? {server : Server Request}
    {memory : CharArray maxLength} {session : SessionPtr}
    {after : Connection Request}
    (found : (server.startAccept memory).connections[session]? = some after) :
    server.connections[session]? = some after ∨ after.calls = [] := by
  change (server.connections ++ [_])[session]? = some after at found
  rw [List.getElem?_append] at found
  split at found
  next => exact .inl found
  next =>
    have member := List.mem_of_getElem? found
    rw [List.mem_singleton] at member
    subst member
    exact .inr rfl

/-- No callback of a session runs in an accept. -/
theorem handleAccept_getElem? {server : Server Request} {accepted : SessionPtr}
    {error : Bool} {memory : CharArray maxLength} {session : SessionPtr}
    {after : Connection Request}
    (found : (server.handleAccept accepted error memory).connections[session]? =
      some after) :
    (∃ before, server.connections[session]? = some before ∧
      before.calls = after.calls) ∨ after.calls = [] := by
  cases error with
  | false =>
      rcases startAccept_getElem? found with kept | new
      · exact .inl ⟨after, kept, rfl⟩
      · exact .inr new
  | true =>
      rcases startAccept_getElem? found with kept | new
      · rw [List.getElem?_modify] at kept
        obtain ⟨before, beforeFound, rfl⟩ := Option.map_eq_some_iff.mp kept
        refine .inl ⟨before, beforeFound, ?_⟩
        split <;> rfl
      · exact .inr new

theorem writesAfterRead_step {server next : Server Request}
    {event : Event Request} {phases : List Phase}
    (represents : Represents server phases)
    (step : Steps server event next) : WritesAfterRead server event next := by
  intro session after found positive
  cases event with
  | accept accepted error memory =>
      obtain ⟨_, rfl⟩ := steps_accept step
      rcases handleAccept_getElem? found with ⟨before, beforeFound, calls⟩ | calls
      · refine .inl ⟨before, beforeFound, ?_⟩
        rw [Connection.writes, calls, Connection.writes]
      · rw [Connection.writes, calls] at positive
        contradiction
  | start started =>
      obtain ⟨outstanding, before, began, beforeFound, starts, rfl⟩ :=
        steps_start.mp step
      rw [getElem?_set_found beforeFound] at found
      split at found
      next same =>
        subst same
        cases found
        have held :=
          (mem_iff_of_count (represents.spawned started)).mp outstanding
        have inPhase := represents.inPhase _ _ _ beforeFound held
        obtain ⟨phase, move, nextInPhase⟩ := inPhase.start starts
        have unwritten : after.writes = 0 := by
          cases move <;> exact nextInPhase.2.2
        omega
      next => exact .inl ⟨after, found, rfl⟩
  | complete completed completion =>
      obtain ⟨before, changed, statics, beforeFound, completes, rfl⟩ :=
        steps_complete.mp step
      rw [getElem?_set_found beforeFound] at found
      split at found
      next same =>
        subst same
        cases found
        rcases writes_completes completes with
          kept | ⟨offset, length, chunk, world, received, rfl, receives, ended⟩
        · exact .inl ⟨before, beforeFound, kept⟩
        · exact .inr ⟨before, offset, length, chunk, world, received,
            beforeFound, rfl, receives, ended⟩
      next => exact .inl ⟨after, found, rfl⟩

/-- In every state that a run of the server reaches, whatever completes in
whatever order, each session has one owner at most, and none once it is deleted;
the next step starts a write only for a complete request. -/
theorem run_safe {version : Version} {statics : Statics}
    {info lastInfo : TreeMap Text Text compare}
    {memory : CharArray maxLength} {config : NginxConfig}
    {first last : Server Request} {events : List (Event Request)}
    (constructed : Server.newServer version statics info memory config =
      .ok (first, lastInfo))
    (run : Run Steps first events last) :
    Safe last ∧ ∀ event next, Steps last event next →
      WritesAfterRead last event next := by
  obtain ⟨phases, advances, represents⟩ := represents_run constructed run
  have initial : LastWaits [.waiting] := by
    intro session
    cases session <;> simp
  have waits : LastWaits phases :=
    advances.preserves (fun step => step.lastWaits) initial
  have nonempty : phases ≠ [] :=
    advances.preserves (fun step _ => step.nonempty) (List.cons_ne_nil _ _)
  exact ⟨represents.safe waits nonempty, fun event next step =>
    writesAfterRead_step represents step⟩

theorem run_safe_notShaken :
    ∃ (first last : Server Text) (info : TreeMap Text Text compare),
      Server.newServer .https ⟨0, ∅⟩ ∅ (.zeroed maxLength) (.mk []) =
        .ok (first, info) ∧
      Run Steps first [.accept 0 false (.zeroed maxLength), .start 0,
        .complete 0 (.handshake (some .httpRequest))] last ∧ Safe last := by
  obtain ⟨first, last, info, constructed, run⟩ :
      ∃ (first last : Server Text) (info : TreeMap Text Text compare),
        Server.newServer .https ⟨0, ∅⟩ ∅ (.zeroed maxLength) (.mk []) =
          .ok (first, info) ∧
        Run Steps first [.accept 0 false (.zeroed maxLength), .start 0,
          .complete 0 (.handshake (some .httpRequest))] last :=
    ⟨_, _, _, rfl, .cons rfl (.cons rfl (.single rfl))⟩
  exact ⟨first, last, info, constructed, run, (run_safe constructed run).1⟩

end HttpsServer.Serve
