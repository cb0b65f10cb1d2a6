import HttpsServer.Handlers.StatusHandler
import HttpsServer.Serve.Accounting

namespace HttpsServer.Handlers

open Std
open HttpsServer.Data
open HttpsServer.Data.Grouping
open HttpsServer.Config
open HttpsServer.Dispatch
open HttpsServer.Serve

variable {Request : Type}

/-! The status page, of whichever server it is asked. -/

theorem Tabulates.reorder {rows : List Row} {left right : List (Text × Nat)}
    (tabulates : Tabulates rows left) (same : left.Perm right) :
    Tabulates rows right := by
  refine ⟨tabulates.distinct, fun request number => ?_⟩
  rw [tabulates.exact request number, occurrences, occurrences, same.countP_eq,
    same.mem_iff]

/-- What a handler returns in a callback, from the calls of the session. -/
theorem turn_returns {before after : Server Request} {session : SessionPtr}
    {completion : Completion Request} {statics lastStatics : Statics}
    {connection next : Connection Request} {text : Text} {request : Request}
    {handler : RequestHandler} {stream : Stream} {response : Response}
    (turn : Server.Turn (before, statics) (.complete session completion)
      (after, lastStatics))
    (found : before.connections[session]? = some connection)
    (now : after.connections[session]? = some next)
    (asks : next.calls = connection.calls ++ [.parserPut text,
      .handleRequest handler request, .asyncWrite stream response]) :
    ∃ offset length chunk world,
      completion = .read offset length (some chunk) world ∧
      world.handleRequest handler statics request = some response := by
  obtain ⟨step, _⟩ := turn
  obtain ⟨asked, completed, last, askedFound, completes, rfl⟩ :=
    steps_complete.mp step
  rw [found] at askedFound
  cases askedFound
  rw [getElem?_set_found found, if_pos rfl] at now
  cases now
  obtain ⟨effect, executes, performed⟩ := completes_executes completes
  have calls := asks.symm.trans performed.calls
  have same := List.append_cancel_left calls
  cases executes with
  | crashed => cases performed <;> contradiction
  | handled receives held ended accepts routed object returns =>
      cases same
      exact ⟨_, _, _, _, rfl, returns⟩
  | _ => cases same

/-- As long as callbacks run one at a time, the status page that a session of either
server is given lists each target and status code that sessions of both have been
answered with, with their exact number. -/
theorem process_statusPage {info lastInfo : TreeMap Text Text compare}
    {memory : Version → CharArray maxLength} {config : NginxConfig}
    {first last next : Process Request}
    {events : List (Version × Event Request)}
    (constructed : Process.newProcess ⟨0, ∅⟩ info memory config =
      .ok (first, lastInfo))
    (run : Run Process.Steps first events last) {target : Request → Text}
    (uses : ∀ event ∈ events, event.2.Uses target IsTarget)
    {version : Version} {session : SessionPtr} {offset length : Nat}
    {received : Option Text} {world : World Request}
    (step : Process.Steps last
      (version, .complete session (.read offset length received world)) next)
    (runs : RunsStatusHandler world lastInfo)
    {before after : Connection Request}
    (found : (last.component version).connections[session]? = some before)
    (now : (next.component version).connections[session]? = some after)
    {text : Text} {request : Request} {stream : Stream} {response : Response}
    (asks : after.calls = before.calls ++ [.parserPut text,
      .handleRequest .statusHandler request, .asyncWrite stream response]) :
    ∃ rows : List Row,
      response = ⟨200, statusPage (last.answers target).length
        (rows.flatMap Row.text) lastInfo⟩ ∧
      Tabulates rows (last.answers target) ∧
      (rows.map Prod.snd).sum = (last.answers target).length := by
  obtain ⟨requests, same, count, grouped, targets⟩ :=
    balanced_process constructed run uses
  replace same := Multiset.coe_eq_coe.mp same
  have recorded : Recorded last.shared requests := ⟨count, grouped, targets⟩
  obtain ⟨rows, page, tabulates, sum⟩ := recorded.page lastInfo
  rw [count, same.length_eq] at page sum
  refine ⟨rows, ?_, tabulates.reorder same, sum⟩
  cases step with
  | turn moves =>
      dsimp only at now
      rw [Function.update_self] at now
      obtain ⟨_, _, _, _, read, returns⟩ := turn_returns moves found now asks
      cases read
      rw [runs, page] at returns
      exact (Option.some.inj returns).symm

/-- Accepts the request lines whose target has no blank in it. -/
def targetWorld (handlerInfo : TreeMap Text Text compare) : World Text :=
  { statusWorld handlerInfo with
    put := fun text => (lineWorld.put text).filter (!·.contains ' ') }

theorem targetWorld_plain {handlerInfo : TreeMap Text Text compare}
    {text target : Text} (accepts : (targetWorld handlerInfo).put text =
      some target) : ' ' ∉ target := by
  rw [targetWorld] at accepts
  dsimp only at accepts
  obtain ⟨_, holds⟩ := Option.filter_eq_some_iff.mp accepts
  simpa using holds

/-- A client over http asks for the page after a request over https. -/
theorem process_statusPage_both :
    ∃ (first last next : Process Text) (info : TreeMap Text Text compare)
      (events : List (Version × Event Text)) (rows : List Row)
      (connection : Connection Text) (response : Response),
      Process.newProcess ⟨0, ∅⟩ ∅ (fun _ => .zeroed maxLength) statusConfig =
        .ok (first, info) ∧
      Run Process.Steps first events last ∧
      Process.Steps last (.http, .complete 0 (.read 0 maxLength
        (some statusRequest) (targetWorld info))) next ∧
      (next.component .http).connections[0]? = some connection ∧
      connection.calls.getLast? = some (.asyncWrite .socket response) ∧
      response = ⟨200, statusPage (last.answers id).length
        (rows.flatMap Row.text) info⟩ ∧
      Tabulates rows (last.answers id) := by
  have routed : (newDispatcher ∅ statusConfig).map (fun made =>
      (((made.1.getRequestHandler "/a".toList).bind (made.1.objects[·]?)),
        ((made.1.getRequestHandler "/status".toList).bind
          (made.1.objects[·]?)))) =
      .ok (some .notFoundHandler, some .statusHandler) := by
    decide +kernel
  obtain ⟨⟨dispatcher, middleInfo⟩, constructs, found⟩ := Fold.map_ok routed
  obtain ⟨other, status⟩ := Prod.mk.inj found
  obtain ⟨otherPointer, otherRouted, otherObject⟩ :=
    Option.bind_eq_some_iff.mp other
  obtain ⟨pointer, statusRouted, object⟩ := Option.bind_eq_some_iff.mp status
  obtain ⟨first, info, constructed, initial, waits⟩ :=
    Process.newProcess_waits constructs ⟨0, ∅⟩ fun _ => .zeroed maxLength
  have accepts : (targetWorld ∅).put rootRequest = some "/a".toList := by
    decide
  have acceptsStatus :
      (targetWorld ∅).put statusRequest = some "/status".toList := by
    decide
  have handles : Handles dispatcher (targetWorld info) first.shared rootRequest
      _ ⟨404, []⟩ _ :=
    .handled accepts otherRouted otherObject rfl rfl
  obtain ⟨middle, _, serves, served, _, counted⟩ :=
    Process.serve_read (waits .https) ⟨by decide, by decide⟩ (by decide) handles
  have same := served.server .http (by decide)
  have waitsHttp : Waits .http dispatcher 0 middle := by
    obtain ⟨isSame, accepting, fresh⟩ := waits .http
    rw [← same] at isSame accepting fresh
    exact ⟨isSame, accepting, fresh⟩
  obtain ⟨last, opened, opens, shared, continues, isOpened, _⟩ :=
    Process.opens waitsHttp
  have isTarget : IsTarget "/a".toList := ⟨by decide, by decide⟩
  have recorded : Recorded last.shared [("/a".toList, 404)] := by
    rw [shared, counted, initial]
    exact ⟨rfl, groups_empty.insert (_, 404), List.forall_mem_singleton.mpr isTarget⟩
  obtain ⟨_, returned, _⟩ := recorded.page info
  have asks : Handles dispatcher (targetWorld info) last.shared statusRequest
      _ _ _ :=
    .handled acceptsStatus statusRouted object returned rfl
  obtain ⟨next, responds, _, _, calls⟩ :=
    isOpened.receiving.1.respond (by decide) ⟨by decide, by decide⟩ (by decide)
      asks
  rw [← continues.dispatcher.trans waitsHttp.dispatcher] at responds
  obtain ⟨done, step, _, doneContinues⟩ :=
    Process.step_complete continues.found responds
  have uses : ∀ event ∈ servingEvents .https 0 [] rootRequest
      (targetWorld info) ++ openingEvents .http 0,
      event.2.Uses id IsTarget := by
    intro event member
    rcases List.mem_append.mp member with before | after
    · exact servingEvents_uses (fun _ _ accepts nonempty =>
        ⟨nonempty, targetWorld_plain accepts⟩) event before
    · exact openingEvents_uses _ _ event after
  have runs : RunsStatusHandler (targetWorld info) info := fun _ _ => rfl
  obtain ⟨rows, page, tabulates, _⟩ :=
    process_statusPage constructed (serves.append opens) uses step runs
      continues.found doneContinues.found calls
  refine ⟨first, last, done, info, _, rows, next, _, constructed,
    serves.append opens, step, doneContinues.found, ?_, page, tabulates⟩
  rw [calls, Session.stream_version, isOpened.receiving.2, ← List.append_assoc,
    List.getLast?_concat]
  rfl

end HttpsServer.Handlers
