import HttpsServer.Serve.Process

namespace HttpsServer.Serve

open Std
open HttpsServer.Data
open HttpsServer.Config
open HttpsServer.Dispatch

variable {Request : Type}

/-! One session of a server, apart from the others. -/

def Event.session : Event Request → SessionPtr
  | .accept session _ _ | .start session | .complete session _ => session

/-- What happens to a session, whatever the others have made of the statics by
then. -/
inductive Undergoes (dispatcher : Dispatcher) :
    Connection Request → Event Request → Connection Request → Prop
  | accepted {connection : Connection Request} {session : SessionPtr}
      {memory : CharArray maxLength} :
      Undergoes dispatcher connection (.accept session false memory) connection
  | refused {connection : Connection Request} {session : SessionPtr}
      {memory : CharArray maxLength} :
      Undergoes dispatcher connection (.accept session true memory)
        { connection with deletions := connection.deletions + 1 }
  | started {before after : Connection Request} {session : SessionPtr}
      (starts : before.start = some after) :
      Undergoes dispatcher before (.start session) after
  | completed {before after : Connection Request} {session : SessionPtr}
      {completion : Completion Request} {statics lastStatics : Statics}
      (completes : Completes dispatcher (before, statics) completion
        (after, lastStatics)) :
      Undergoes dispatcher before (.complete session completion) after

/-- The session as the constructor leaves it. -/
def Connection.Fresh (version : Version) (connection : Connection Request) :
    Prop :=
  ∃ memory, connection = .allocated (newSession version memory)

/-- Where a session of the server after a step comes from. -/
def Origin (server : Server Request) (event : Event Request)
    (session : SessionPtr) (connection : Connection Request) : Prop :=
  (∃ before, server.connections[session]? = some before ∧
    if event.session = session then
      Undergoes server.dispatcher before event connection
    else connection = before) ∨
  session = server.connections.length ∧ connection.Fresh server.version

theorem startAccept_found {server : Server Request}
    {memory : CharArray maxLength} {session : SessionPtr}
    {connection : Connection Request}
    (found : (server.startAccept memory).connections[session]? =
      some connection) :
    server.connections[session]? = some connection ∨
      session = server.connections.length ∧ connection.Fresh server.version := by
  change (server.connections ++ [_])[session]? = some connection at found
  rw [List.getElem?_append] at found
  split at found
  next => exact .inl found
  next bound =>
    obtain ⟨index, same⟩ := List.getElem?_eq_some_iff.mp found
    have last : session = server.connections.length :=
      Nat.le_antisymm (Nat.sub_eq_zero_iff_le.mp (Nat.lt_one_iff.mp index))
        (Nat.le_of_not_lt bound)
    refine .inr ⟨last, memory, ?_⟩
    rw [← same, List.getElem_singleton]

theorem set_origin {server : Server Request} (event : Event Request)
    {before after : Connection Request}
    (found : server.connections[event.session]? = some before)
    (undergoes : Undergoes server.dispatcher before event after)
    {session : SessionPtr} {connection : Connection Request}
    (now : (server.connections.set event.session after)[session]? =
      some connection) : Origin server event session connection := by
  rw [getElem?_set_found found] at now
  split at now
  next same =>
    cases now
    subst same
    exact .inl ⟨before, found, by rwa [if_pos rfl]⟩
  next other => exact .inl ⟨connection, now, by rw [if_neg other]⟩

theorem handleAccept_origin (server : Server Request) {accepted : SessionPtr}
    {error : Bool} {memory : CharArray maxLength} {session : SessionPtr}
    {connection : Connection Request}
    (found : (server.handleAccept accepted error memory).connections[session]? =
      some connection) :
    Origin server (.accept accepted error memory) session connection := by
  cases error with
  | false =>
      rcases startAccept_found found with kept | new
      · refine .inl ⟨connection, kept, ?_⟩
        split
        · exact .accepted
        · rfl
      · exact .inr new
  | true =>
      rcases startAccept_found found with kept | new
      · rw [List.getElem?_modify] at kept
        obtain ⟨before, beforeFound, modified⟩ := Option.map_eq_some_iff.mp kept
        refine .inl ⟨before, beforeFound, ?_⟩
        change if accepted = session then _ else _
        split at modified
        next same =>
          rw [if_pos same, ← modified]
          exact .refused
        next other =>
          rw [if_neg other, ← modified]
      · rw [List.length_modify] at new
        exact .inr new

theorem steps_origin {server next : Server Request} {event : Event Request}
    (step : Steps server event next) {session : SessionPtr}
    {connection : Connection Request}
    (found : next.connections[session]? = some connection) :
    Origin server event session connection := by
  cases event with
  | accept accepted error memory =>
      obtain ⟨_, rfl⟩ := steps_accept step
      exact handleAccept_origin
        { server with accepting := server.accepting.erase accepted } found
  | start started =>
      obtain ⟨_, before, after, beforeFound, starts, rfl⟩ := steps_start.mp step
      exact set_origin (.start started) beforeFound (.started starts) found
  | complete completed completion =>
      obtain ⟨before, after, statics, beforeFound, completes, rfl⟩ :=
        steps_complete.mp step
      exact set_origin (.complete completed completion) beforeFound
        (.completed completes) found

theorem steps_constant {server next : Server Request} {event : Event Request}
    (step : Steps server event next) :
    next.dispatcher = server.dispatcher ∧ next.version = server.version := by
  cases event with
  | accept accepted error memory =>
      obtain ⟨_, rfl⟩ := steps_accept step
      cases error <;> exact ⟨rfl, rfl⟩
  | start started =>
      obtain ⟨_, _, _, _, _, rfl⟩ := steps_start.mp step
      exact ⟨rfl, rfl⟩
  | complete completed completion =>
      obtain ⟨_, _, _, _, _, rfl⟩ := steps_complete.mp step
      exact ⟨rfl, rfl⟩

theorem Advances.bound {before after : List Phase} {label : Nat × Signal}
    (step : Advances before label after) :
    label.1 < before.length ∧ before.length ≤ after.length := by
  cases step with
  | accept found move =>
      obtain ⟨bound, _⟩ := List.getElem?_eq_some_iff.mp found
      refine ⟨bound, ?_⟩
      rw [List.length_append, List.length_set]
      exact Nat.le_add_right _ _
  | move found later move =>
      obtain ⟨bound, _⟩ := List.getElem?_eq_some_iff.mp found
      exact ⟨bound, Nat.le_of_eq (List.length_set ..).symm⟩

theorem Event.label_session (event : Event Request) :
    event.label.1 = event.session := by
  cases event <;> rfl

theorem Advances.origin {before after : List Phase} {label : Nat × Signal}
    (step : Advances before label after) {session : Nat} {phase : Phase}
    (held : after[session]? = some phase) :
    (∃ earlier, before[session]? = some earlier ∧
      if label.1 = session then Moves earlier label.2 phase
      else phase = earlier) ∨
    session = before.length ∧ phase = .waiting := by
  have set_held : ∀ {moved : Nat} {signal : Signal} {earlier next : Phase},
      before[moved]? = some earlier → Moves earlier signal next →
      (before.set moved next)[session]? = some phase →
      ∃ earlier, before[session]? = some earlier ∧
        if moved = session then Moves earlier signal phase
        else phase = earlier := by
    intro moved signal earlier next found move now
    rw [getElem?_set_found found] at now
    split at now
    next same =>
      cases now
      subst same
      exact ⟨earlier, found, by rwa [if_pos rfl]⟩
    next other => exact ⟨phase, now, by rw [if_neg other]⟩
  cases step with
  | accept found move =>
      rw [getElem?_append_singleton, List.length_set] at held
      split at held
      next last =>
        cases held
        exact .inr ⟨last, rfl⟩
      next => exact .inl (set_held found move held)
  | move found later move => exact .inl (set_held found move held)

def sessionEvents (session : SessionPtr) (events : List (Event Request)) :
    List (Event Request) :=
  events.filter (·.session = session)

theorem sessionEvents_snoc (session : SessionPtr) (done : List (Event Request))
    (event : Event Request) :
    sessionEvents session (done ++ [event]) = sessionEvents session done ++
      if event.session = session then [event] else [] := by
  rw [sessionEvents, List.filter_append, sessionEvents, List.filter_singleton]
  by_cases same : event.session = session
  · simp [same]
  · simp [same]

/-- One event in the life of a session, with its phase. -/
structure Lives (dispatcher : Dispatcher) (before : Connection Request × Phase)
    (event : Event Request) (after : Connection Request × Phase) : Prop where
  undergoes : Undergoes dispatcher before.1 event after.1
  moves : Moves before.2 event.label.2 after.2
  inPhase : InPhase after.1 after.2

/-- Each session has been through its own events and no others. -/
structure Isolated (version : Version) (dispatcher : Dispatcher)
    (done : List (Event Request)) (server : Server Request)
    (phases : List Phase) : Prop where
  constant : server.dispatcher = dispatcher ∧ server.version = version
  allocated : ∀ event ∈ done, event.session < server.connections.length
  lived : ∀ (session : SessionPtr) (connection : Connection Request)
    (phase : Phase), server.connections[session]? = some connection →
    phases[session]? = some phase →
    ∃ fresh, Connection.Fresh version fresh ∧
      Run (Lives dispatcher) (fresh, .waiting) (sessionEvents session done)
        (connection, phase)

theorem Isolated.amid {version : Version} {dispatcher : Dispatcher}
    {done : List (Event Request)} {server next : Server Request}
    {event : Event Request} {phases after : List Phase}
    (isolated : Isolated version dispatcher done server phases)
    (represents : Represents server phases)
    (advances : Advances phases event.label after)
    (nextRepresents : Represents next after)
    (amid : Together.Amid Server.Turn server event next) :
    Isolated version dispatcher (done ++ [event]) next after := by
  obtain ⟨statics, last, step, _⟩ := amid
  obtain ⟨bound, grows⟩ := advances.bound
  rw [event.label_session, represents.length] at bound
  rw [represents.length, nextRepresents.length] at grows
  obtain ⟨sameDispatcher, sameVersion⟩ := steps_constant step
  have earlier : ∀ before ∈ done ++ [event],
      before.session < server.connections.length := by
    intro before member
    rcases List.mem_append.mp member with listed | new
    · exact isolated.allocated before listed
    · rw [List.mem_singleton.mp new]
      exact bound
  refine ⟨⟨sameDispatcher.trans isolated.constant.1,
    sameVersion.trans isolated.constant.2⟩, fun before member =>
      Nat.lt_of_lt_of_le (earlier before member) grows, ?_⟩
  intro session connection phase found held
  have inPhase := nextRepresents.inPhase session connection phase found held
  rcases steps_origin step found with ⟨before, beforeFound, came⟩ | ⟨new, fresh⟩
  · have notNew : session ≠ phases.length := by
      obtain ⟨below, _⟩ := List.getElem?_eq_some_iff.mp beforeFound
      rw [represents.length]
      exact Nat.ne_of_lt below
    obtain ⟨beforePhase, beforeHeld, moved⟩ :=
      (advances.origin held).resolve_right fun last => notNew last.1
    obtain ⟨fresh, isFresh, run⟩ :=
      isolated.lived session before beforePhase beforeFound beforeHeld
    refine ⟨fresh, isFresh, ?_⟩
    rw [event.label_session] at moved
    rw [isolated.constant.1] at came
    rw [sessionEvents_snoc]
    by_cases same : event.session = session
    · rw [if_pos same] at came moved ⊢
      exact run.snoc ⟨came, moved, inPhase⟩
    · rw [if_neg same] at came moved ⊢
      rw [List.append_nil, came, moved]
      exact run
  · have none_yet : sessionEvents session (done ++ [event]) = [] := by
      apply List.filter_eq_nil_iff.mpr
      intro other member same
      have below := earlier other member
      rw [of_decide_eq_true same, new] at below
      exact Nat.lt_irrefl _ below
    have waiting : phase = .waiting := by
      rcases advances.origin held with ⟨_, beforeHeld, _⟩ | ⟨_, waits⟩
      · obtain ⟨below, _⟩ := List.getElem?_eq_some_iff.mp beforeHeld
        rw [represents.length, new] at below
        exact absurd below (Nat.lt_irrefl _)
      · exact waits
    rw [isolated.constant.2] at fresh
    rw [none_yet, waiting]
    exact ⟨connection, fresh, .nil _⟩

theorem isolated_newServer {version : Version} {statics : Statics}
    {info lastInfo : TreeMap Text Text compare}
    {memory : CharArray maxLength} {config : NginxConfig}
    {server : Server Request}
    (constructed : Server.newServer version statics info memory config =
      .ok (server, lastInfo)) :
    ∃ dispatcher, newDispatcher info config = .ok (dispatcher, lastInfo) ∧
      Isolated version dispatcher [] server [.waiting] := by
  obtain ⟨⟨dispatcher, made⟩, constructs, built⟩ := Fold.bind_ok constructed
  cases built
  refine ⟨dispatcher, constructs, ⟨rfl, rfl⟩, nofun, ?_⟩
  intro session connection phase found held
  obtain ⟨bound, rfl⟩ := List.getElem?_eq_some_iff.mp found
  have first : session = 0 := Nat.lt_one_iff.mp bound
  subst first
  cases held
  exact ⟨_, ⟨memory, rfl⟩, .nil _⟩

theorem isolated_version {version : Version} {statics : Statics}
    {info lastInfo : TreeMap Text Text compare}
    {memory : CharArray maxLength} {config : NginxConfig}
    {first last : Server Request} {events : List (Event Request)}
    (constructed : Server.newServer version statics info memory config =
      .ok (first, lastInfo))
    (run : Run (Together.Amid Server.Turn) first events last) :
    ∃ dispatcher phases, newDispatcher info config = .ok (dispatcher, lastInfo) ∧
      Represents last phases ∧
      Isolated version dispatcher events last phases := by
  obtain ⟨dispatcher, constructs, isolated⟩ := isolated_newServer constructed
  have kept : ∀ {done : List (Event Request)} {server : Server Request}
      {event : Event Request} {next : Server Request},
      Together.Amid Server.Turn server event next →
      (∃ phases, Represents server phases ∧
        Isolated version dispatcher done server phases) →
      ∃ phases, Represents next phases ∧
        Isolated version dispatcher (done ++ [event]) next phases := by
    rintro done server event next amid ⟨phases, represents, isolated⟩
    obtain ⟨nextPhases, advances, nextRepresents⟩ :=
      represents_amid amid represents
    exact ⟨nextPhases, nextRepresents,
      isolated.amid represents advances nextRepresents amid⟩
  obtain ⟨phases, represents, final⟩ :=
    run.preserves_trace
      (fun done server => ∃ phases, Represents server phases ∧
        Isolated version dispatcher done server phases)
      kept ⟨[.waiting], represents_newServer constructed, isolated⟩
  exact ⟨dispatcher, phases, constructs, represents, final⟩

/-- However the callbacks of the two servers are interleaved, a session has been
through exactly its own events, with the dispatcher that both servers have. -/
theorem isolated_process {statics : Statics}
    {info lastInfo : TreeMap Text Text compare}
    {memory : Version → CharArray maxLength} {config : NginxConfig}
    {first last : Process Request} {events : List (Version × Event Request)}
    (constructed : Process.newProcess statics info memory config =
      .ok (first, lastInfo))
    (run : Run Process.Steps first events last) :
    ∃ dispatcher middleInfo,
      newDispatcher info config = .ok (dispatcher, middleInfo) ∧
      ∀ version, ∃ phases, Represents (last.component version) phases ∧
        Isolated version dispatcher (own version events)
          (last.component version) phases := by
  have each : ∀ version, ∃ dispatcher middleInfo phases,
      newDispatcher info config = .ok (dispatcher, middleInfo) ∧
      Represents (last.component version) phases ∧
      Isolated version dispatcher (own version events)
        (last.component version) phases := by
    intro version
    obtain ⟨_, before, after, made⟩ :=
      Process.newProcess_server constructed version
    obtain ⟨dispatcher, phases, constructs, represents, isolated⟩ :=
      isolated_version made (Together.project run version)
    obtain ⟨middleInfo, constructs⟩ := newDispatcher_agree constructs info
    exact ⟨dispatcher, middleInfo, phases, constructs, represents, isolated⟩
  obtain ⟨dispatcher, middleInfo, _, constructs, _⟩ := each .http
  refine ⟨dispatcher, middleInfo, constructs, fun version => ?_⟩
  obtain ⟨other, _, phases, otherConstructs, represents, isolated⟩ := each version
  rw [constructs] at otherConstructs
  cases otherConstructs
  exact ⟨phases, represents, isolated⟩

end HttpsServer.Serve
