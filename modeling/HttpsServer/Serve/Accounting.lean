import HttpsServer.Data.Grouping
import HttpsServer.Serve.Serving

namespace HttpsServer.Serve

open Std
open HttpsServer.Data
open HttpsServer.Data.Grouping
open HttpsServer.Config
open HttpsServer.Dispatch

variable {Request : Type}

/-! What the static counters say of the sessions of both servers. -/

/-- The requests that a handler has answered, with their targets and status
codes. -/
def answered (target : Request → Text) : List (Call Request) → List (Text × Nat)
  | .handleRequest _ request :: .asyncWrite _ response :: calls =>
      (target request, response.result) :: answered target calls
  | _ :: calls => answered target calls
  | [] => []

def Server.answers (server : Server Request) (target : Request → Text) :
    List (Text × Nat) :=
  server.connections.flatMap fun connection => answered target connection.calls

/-- A target function of its own, and no targets but those that are allowed; the
empty one never comes to a handler. -/
def Event.Uses (target : Request → Text) (allowed : Text → Prop) :
    Event Request → Prop
  | .complete _ (.read _ _ _ world) =>
      world.target = target ∧ ∀ text request, world.put text = some request →
        target request ≠ [] → allowed (target request)
  | .complete _ (.handshake _) | .complete _ (.write _) => True
  | .accept _ _ _ | .start _ => True

/-- The statics have counted these requests, in some order. -/
def Logged (allowed : Text → Prop) (statics : Statics)
    (total : Multiset (Text × Nat)) : Prop :=
  ∃ requests : List (Text × Nat), (requests : Multiset (Text × Nat)) = total ∧
    statics.requestCount = requests.length ∧
    Groups statics.handledRequests requests ∧
    ∀ request ∈ requests, allowed request.1

theorem Logged.count {allowed : Text → Prop} {statics : Statics}
    {total : Multiset (Text × Nat)} (logged : Logged allowed statics total)
    {uri : Text} (isAllowed : allowed uri) (result : Nat) :
    Logged allowed (statics.count uri result) (total + {(uri, result)}) := by
  obtain ⟨requests, rfl, count, grouped, targets⟩ := logged
  refine ⟨requests ++ [(uri, result)], ?_, ?_, grouped.insert (uri, result), ?_⟩
  · rw [← Multiset.coe_add]
    rfl
  · rw [List.length_append]
    exact congrArg (· + 1) count
  · intro request member
    rcases List.mem_append.mp member with before | new
    · exact targets request before
    · rw [List.mem_singleton.mp new]
      exact isAllowed

/-! The answers of a session grow by those of each callback. -/

theorem answered_append (target : Request → Text)
    {calls more : List (Call Request)}
    (apart : ∀ stream response, more.head? ≠ some (.asyncWrite stream response)) :
    answered target (calls ++ more) =
      answered target calls ++ answered target more := by
  induction calls using answered.induct with
  | case1 handler request stream response calls induction =>
      rw [List.cons_append, List.cons_append, answered, answered, induction,
        List.cons_append]
  | case2 call calls other induction =>
      rw [List.cons_append, answered, answered, induction]
      · exact other
      · intro handler request stream response rest same follows
        cases calls with
        | nil =>
            rw [List.nil_append] at follows
            exact apart stream response (congrArg List.head? follows)
        | cons next calls =>
            rw [List.cons_append] at follows
            exact other handler request stream response calls same
              (congrArg (· :: calls) (List.cons.inj follows).1)
  | case3 => rfl

theorem Connection.start_answered (target : Request → Text)
    {before after : Connection Request} (starts : before.start = some after) :
    answered target after.calls = answered target before.calls := by
  have performed := perform_iff.mp starts
  rw [performed.calls, Session.start]
  cases before.session.version with
  | http =>
      rw [answered_append target]
      · exact List.append_nil _
      · simp
  | https =>
      rw [answered_append target]
      · exact List.append_nil _
      · simp

theorem routed_nonempty {dispatcher : Dispatcher} {uri : Text}
    {pointer : HandlerPtr}
    (routed : dispatcher.getRequestHandler uri = some pointer) : uri ≠ [] := by
  rintro rfl
  rcases getRequestHandler_cases dispatcher [] with
    ⟨path, _, _, nonempty, _, leading, _⟩ | ⟨result, _⟩
  · exact nonempty (List.prefix_nil.mp (leading.trans (popSlashes_leading [])))
  · rw [result] at routed
    contradiction

/-- A callback counts a request exactly when it answers one with a handler. -/
theorem completes_logged {dispatcher : Dispatcher} {target : Request → Text}
    {allowed : Text → Prop} {before after : Connection Request}
    {statics lastStatics : Statics} {session : SessionPtr}
    {completion : Completion Request}
    (completes : Completes dispatcher (before, statics) completion
      (after, lastStatics))
    (uses : (Event.complete session completion).Uses target allowed) :
    ∃ more, answered target after.calls = answered target before.calls ++ more ∧
      ∀ total, Logged allowed statics total →
        Logged allowed lastStatics (total + more) := by
  obtain ⟨effect, executes, performed⟩ := completes_executes completes
  rw [performed.calls]
  dsimp only
  have unanswered : (∀ stream response,
        effect.calls.head? ≠ some (.asyncWrite stream response)) →
      answered target effect.calls = [] → lastStatics = statics →
      ∃ more, answered target (before.calls ++ effect.calls) =
          answered target before.calls ++ more ∧
        ∀ total, Logged allowed statics total →
          Logged allowed lastStatics (total + more) := by
    rintro apart none_answered rfl
    refine ⟨[], ?_, fun total logged => ?_⟩
    · rw [answered_append target apart, none_answered]
    · rwa [Multiset.coe_nil, add_zero]
  cases executes with
  | crashed => cases performed <;> contradiction
  | shaken => exact unanswered nofun rfl rfl
  | notShaken => exact unanswered nofun rfl rfl
  | notReceived => exact unanswered nofun rfl rfl
  | append => exact unanswered nofun rfl rfl
  | refused => exact unanswered nofun rfl rfl
  | written => exact unanswered nofun rfl rfl
  | notWritten => exact unanswered nofun rfl rfl
  | @handled offset length chunk text world received request pointer handler
      response receives held ended accepts routed object returns =>
      obtain ⟨rfl, every⟩ := uses
      refine ⟨[(world.target request, response.result)], ?_,
        fun total logged => ?_⟩
      · rw [answered_append world.target]
        · rfl
        · nofun
      · rw [Multiset.coe_singleton]
        exact logged.count
          (every text request accepts (routed_nonempty routed)) response.result

/-! The answers of a server, and of the process. -/

def Server.contribution (target : Request → Text) (server : Server Request) :
    Multiset (Text × Nat) :=
  (server.connections.map fun connection =>
    (answered target connection.calls : Multiset (Text × Nat))).sum

theorem Server.contribution_answers (target : Request → Text)
    (server : Server Request) :
    server.contribution target = (server.answers target : Multiset _) := by
  rw [contribution, answers]
  induction server.connections with
  | nil => rfl
  | cons connection connections induction =>
      rw [List.map_cons, List.sum_cons, induction, List.flatMap_cons,
        Multiset.coe_add]

theorem map_modify {Item Part : Type} {part : Item → Part} {change : Item → Item}
    (same : ∀ item, part (change item) = part item) (items : List Item)
    (index : Nat) : (items.modify index change).map part = items.map part := by
  apply List.ext_getElem?
  intro other
  rw [List.getElem?_map, List.getElem?_map, List.getElem?_modify]
  split
  next => cases items[other]? <;> simp [same]
  next => cases items[other]? <;> rfl

theorem contribution_startAccept (target : Request → Text)
    (server : Server Request) (memory : CharArray maxLength) :
    (server.startAccept memory).contribution target =
      server.contribution target := by
  change ((server.connections ++ [_]).map _).sum = _
  rw [List.map_append, List.sum_append]
  exact add_zero _

theorem contribution_handleAccept (target : Request → Text)
    (server : Server Request) (session : SessionPtr) (error : Bool)
    (memory : CharArray maxLength) :
    (server.handleAccept session error memory).contribution target =
      server.contribution target := by
  cases error with
  | false => exact contribution_startAccept target _ memory
  | true =>
      refine (contribution_startAccept target _ memory).trans ?_
      rw [Server.contribution, Server.contribution]
      dsimp only
      rw [map_modify]
      exact fun _ => rfl

theorem turn_logged {target : Request → Text} {allowed : Text → Prop}
    {before after : Server Request} {event : Event Request}
    {statics lastStatics : Statics}
    (turn : Server.Turn (before, statics) event (after, lastStatics))
    (uses : event.Uses target allowed) :
    ∃ more, after.contribution target = before.contribution target + more ∧
      ∀ total, Logged allowed statics total →
        Logged allowed lastStatics (total + more) := by
  obtain ⟨step, same⟩ := turn
  dsimp only at step same
  subst same
  cases event with
  | accept session error memory =>
      obtain ⟨_, rfl⟩ := steps_accept step
      refine ⟨0, ?_, fun total logged => ?_⟩
      · rw [contribution_handleAccept, add_zero]
        rfl
      · rw [add_zero]
        cases error <;> exact logged
  | start session =>
      obtain ⟨_, connection, started, found, starts, rfl⟩ := steps_start.mp step
      refine ⟨0, sum_set _ found ?_, fun total logged => ?_⟩
      · rw [Connection.start_answered target starts, add_zero]
      · rwa [add_zero]
  | complete session completion =>
      obtain ⟨connection, completed, last, found, completes, rfl⟩ :=
        steps_complete.mp step
      obtain ⟨more, grows, adds⟩ := completes_logged completes uses
      refine ⟨more, sum_set _ found ?_, adds⟩
      rw [grows, ← Multiset.coe_add]

theorem contribution_newServer {version : Version} {statics : Statics}
    {info lastInfo : TreeMap Text Text compare}
    {memory : CharArray maxLength} {config : NginxConfig}
    {server : Server Request}
    (constructed : Server.newServer version statics info memory config =
      .ok (server, lastInfo)) (target : Request → Text) :
    server.contribution target = 0 := by
  obtain ⟨made, _, built⟩ := Fold.bind_ok constructed
  cases built
  exact contribution_startAccept target _ memory

theorem sum_version {Total : Type} [AddCommMonoid Total]
    (part : Version → Total) :
    ∑ version, part version = part .http + part .https :=
  Finset.sum_pair (by decide)

def Process.answers (process : Process Request) (target : Request → Text) :
    List (Text × Nat) :=
  (process.component .http).answers target ++
    (process.component .https).answers target

theorem Process.sum_contribution (process : Process Request)
    (target : Request → Text) :
    ∑ version, (process.component version).contribution target =
      (process.answers target : Multiset _) := by
  rw [sum_version, Server.contribution_answers, Server.contribution_answers,
    Multiset.coe_add]
  rfl

theorem balanced_process {info lastInfo : TreeMap Text Text compare}
    {memory : Version → CharArray maxLength} {config : NginxConfig}
    {first last : Process Request} {events : List (Version × Event Request)}
    (constructed : Process.newProcess ⟨0, ∅⟩ info memory config =
      .ok (first, lastInfo))
    (run : Run Process.Steps first events last) {target : Request → Text}
    {allowed : Text → Prop}
    (uses : ∀ event ∈ events, event.2.Uses target allowed) :
    Logged allowed last.shared (last.answers target) := by
  have initial : Together.Balanced (Server.contribution target)
      (Logged allowed) first := by
    rw [Together.Balanced, sum_version]
    obtain ⟨shared, _, _, http⟩ := Process.newProcess_server constructed .http
    obtain ⟨_, _, _, https⟩ := Process.newProcess_server constructed .https
    rw [shared, contribution_newServer http, contribution_newServer https]
    exact ⟨[], rfl, rfl, groups_empty, List.forall_mem_nil _⟩
  rw [← Process.sum_contribution]
  exact Together.balanced_run turn_logged run uses initial

/-- However the callbacks of the two servers are interleaved, one at a time, the
static counters have counted exactly the requests that handlers of the sessions of
both servers have answered, each one once and with its own target and status
code. -/
theorem process_accounting {info lastInfo : TreeMap Text Text compare}
    {memory : Version → CharArray maxLength} {config : NginxConfig}
    {first last : Process Request} {events : List (Version × Event Request)}
    (constructed : Process.newProcess ⟨0, ∅⟩ info memory config =
      .ok (first, lastInfo))
    (run : Run Process.Steps first events last) {target : Request → Text}
    {allowed : Text → Prop}
    (uses : ∀ event ∈ events, event.2.Uses target allowed) :
    ∃ requests : List (Text × Nat), requests.Perm (last.answers target) ∧
      last.shared.requestCount = requests.length ∧
      Groups last.shared.handledRequests requests ∧
      ∀ request ∈ requests, allowed request.1 := by
  obtain ⟨requests, total, counted⟩ := balanced_process constructed run uses
  exact ⟨requests, Multiset.coe_eq_coe.mp total, counted⟩

theorem openingEvents_uses {version : Version} {session : SessionPtr}
    (target : Request → Text) (allowed : Text → Prop) :
    ∀ event ∈ openingEvents version session, event.2.Uses target allowed := by
  cases version with
  | http => simp [openingEvents, openingCompletions, Event.Uses]
  | https => simp [openingEvents, openingCompletions, Event.Uses]

theorem servingEvents_uses {version : Version} {session : SessionPtr}
    {world : World Request} {allowed : Text → Prop} {chunk : Text}
    (targets : ∀ text request, world.put text = some request →
      world.target request ≠ [] → allowed (world.target request)) :
    ∀ event ∈ servingEvents version session [] chunk world,
      event.2.Uses world.target allowed := by
  intro event member
  rcases List.mem_append.mp member with opens | completes
  · exact openingEvents_uses world.target allowed event opens
  · obtain rfl | rfl : event = _ ∨ event = _ := by
      simpa [servingCompletions, readCompletions] using completes
    · exact ⟨rfl, targets⟩
    · trivial

/-- A request over https that the 404 handler answers. -/
theorem process_accounting_root :
    ∃ (first last : Process Text) (info : TreeMap Text Text compare)
      (requests : List (Text × Nat)),
      Process.newProcess ⟨0, ∅⟩ ∅ (fun _ => .zeroed maxLength) (.mk []) =
        .ok (first, info) ∧
      Run Process.Steps first
        (servingEvents .https 0 [] rootRequest lineWorld) last ∧
      requests.Perm (last.answers id) ∧ requests.length = 1 := by
  have routed : (newDispatcher ∅ (.mk [])).map (fun made =>
        (made.1.getRequestHandler "/a".toList).bind (made.1.objects[·]?)) =
      .ok (some .notFoundHandler) := by
    decide +kernel
  obtain ⟨dispatcher, middleInfo, constructs, pointer, found, object⟩ :=
    routed_of_map routed
  have accepts : lineWorld.put rootRequest = some "/a".toList := by decide
  obtain ⟨first, info, constructed, initial, waits⟩ :=
    Process.newProcess_waits constructs ⟨0, ∅⟩ fun _ => .zeroed maxLength
  have handles : Handles dispatcher lineWorld first.shared rootRequest _ _ _ :=
    .handled accepts found object rfl rfl
  obtain ⟨last, _, run, _, _, shared⟩ :=
    Process.serve_read (waits .https) ⟨by decide, by decide⟩ (by decide) handles
  have uses : ∀ event ∈ servingEvents .https 0 [] rootRequest lineWorld,
      event.2.Uses id fun _ => True :=
    servingEvents_uses fun _ _ _ _ => trivial
  obtain ⟨requests, same, count, _, _⟩ :=
    process_accounting constructed run uses
  refine ⟨first, last, info, requests, constructed, run, same, ?_⟩
  rw [← count, shared, initial]
  rfl

end HttpsServer.Serve
