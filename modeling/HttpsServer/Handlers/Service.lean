import HttpsServer.Dispatch.Settings
import HttpsServer.Handlers.Responses

namespace HttpsServer.Handlers

open Std
open HttpsServer.Data
open HttpsServer.Data.RequestHead
open HttpsServer.Config
open HttpsServer.Dispatch
open HttpsServer.Serve

/-! What a config says that its servers answer. -/

/-- The first statement that declares the path has this type and block. -/
def Locates (config : NginxConfig) (path : Text) (type : HandlerType)
    (block : NginxConfig) : Prop :=
  ∃ before statement after, config.statements = before ++ statement :: after ∧
    declared? statement = some (path, type) ∧ path ∉ candidates before ∧
    statement.childBlock = some block

/-- What is found where a target points to below the root of a block. -/
def declaredFile (environment : Environment) (block : NginxConfig)
    (target : Text) : FileStatus :=
  match filePart? target with
  | none => .absent
  | some file => environment.file (declaredRoot block ++ file)

/-- What a location with this path, block and type answers. -/
inductive Gives (environment : Environment)
    (handlerInfo : TreeMap Text Text compare) (request : Request) (path : Text)
    (block : NginxConfig) : HandlerType → Response → Prop
  | noFile (get : request.method = "GET".toList)
      (missing : declaredFile environment block request.target = .absent) :
      Gives environment handlerInfo request path block .fileHandler
        ⟨404, "<h1>404 Not Found</h1>".toList⟩
  | file {content : Text} (get : request.method = "GET".toList)
      (found : declaredFile environment block request.target =
        .content content) :
      Gives environment handlerInfo request path block .fileHandler
        ⟨200, content⟩
  | otherMethod (other : request.method ≠ "GET".toList) :
      Gives environment handlerInfo request path block .fileHandler ⟨200, []⟩
  | echo : Gives environment handlerInfo request path block .echoHandler
      ⟨200, (request.mapNames environment.names.toString).text⟩
  | notFound : Gives environment handlerInfo request path block .notFoundHandler
      ⟨404, "<h1>404 Not Found</h1>".toList⟩
  | status {statics : Statics} {response : Response}
      (page : handleStatusRequest statics handlerInfo = some response) :
      Gives environment handlerInfo request path block .statusHandler response
  /-- The part of the target behind the path is asked for, in the place of nothing
  the root. -/
  | proxy {rest : Text} {response : OutsideResponse}
      (remaining : path ++ rest = request.target)
      (fetched : issueOutsideRequest environment.upstream environment.fuel 0
        ⟨declaredHost block, declaredPort block,
          if rest = [] then "/".toList else rest⟩ = some (.ok response)) :
      Gives environment handlerInfo request path block .proxyHandler
        ⟨response.result, response.body⟩
  | sleep : Gives environment handlerInfo request path block .sleepHandler
      ⟨200, "I slept for 5 seconds!".toList⟩
  | health : Gives environment handlerInfo request path block .healthHandler
      ⟨200, "OK".toList⟩

/-- The answer of a location that the config declares, or of the 404 handler that
has the root before any location is looked at. -/
inductive Provides (environment : Environment)
    (handlerInfo : TreeMap Text Text compare) (config : NginxConfig)
    (request : Request) : Response → Prop
  | located {path : Text} {type : HandlerType} {block : NginxConfig}
      {response : Response}
      (longest : LongestMatch config request.target path)
      (located : Locates config path type block)
      (gives : Gives environment handlerInfo request path block type response) :
      Provides environment handlerInfo config request response
  | root (longest : LongestMatch config request.target "/".toList) :
      Provides environment handlerInfo config request
        ⟨404, "<h1>404 Not Found</h1>".toList⟩

/-! The handler objects give what the config says. -/

section Gives

variable {environment : Environment} {handlerInfo : TreeMap Text Text compare}
variable {request : Request} {path : Text} {block : NginxConfig}

theorem fileHandler_gives {location : Text} {statics : Statics}
    {response : Response}
    (returned : handleRequest environment handlerInfo
      (.fileHandler location (declaredRoot block)) statics request =
        some response) :
    Gives environment handlerInfo request path block .fileHandler response := by
  rw [handleRequest_file] at returned
  by_cases get : request.method = "GET".toList
  · rw [if_pos get] at returned
    cases named : filePart? request.target with
    | none =>
        rw [named] at returned
        cases returned
        exact .noFile get (by rw [declaredFile, named])
    | some file =>
        rw [named] at returned
        dsimp only at returned
        cases status : environment.file (declaredRoot block ++ file) with
        | absent =>
            rw [status] at returned
            cases returned
            exact .noFile get (by rw [declaredFile, named]; exact status)
        | unreadable =>
            rw [status] at returned
            contradiction
        | content content =>
            rw [status] at returned
            cases returned
            exact .file get (by rw [declaredFile, named]; exact status)
  · rw [if_neg get] at returned
    cases returned
    exact .otherMethod get

theorem cutContentType_same (response : OutsideResponse) :
    (cutContentType response).result = response.result ∧
      (cutContentType response).body = response.body := by
  rw [cutContentType]
  split <;> exact ⟨rfl, rfl⟩

theorem proxyHandler_gives {unused : Text} {statics : Statics}
    {response : Response} (leading : path <+: request.target)
    (returned : handleRequest environment handlerInfo
      (.proxyHandler path (declaredHost block) unused (declaredPort block))
      statics request = some response) :
    Gives environment handlerInfo request path block .proxyHandler
      response := by
  obtain ⟨rest, remaining⟩ := leading
  rw [handleRequest, ← remaining, handleProxyRequest_append] at returned
  cases fetched : issueOutsideRequest environment.upstream environment.fuel 0
      ⟨declaredHost block, declaredPort block,
        if rest = [] then "/".toList else rest⟩ with
  | none =>
      rw [fetched] at returned
      contradiction
  | some outcome =>
      rw [fetched] at returned
      cases outcome with
      | error fault => contradiction
      | ok fetchedResponse =>
          obtain ⟨result, body⟩ := cutContentType_same fetchedResponse
          cases returned
          rw [result, body]
          exact .proxy remaining fetched

theorem handler_gives {type : HandlerType} {handler : RequestHandler}
    {statics : Statics} {response : Response}
    (made : newHandler path block type = .ok handler)
    (leading : path <+: request.target)
    (returned : handleRequest environment handlerInfo handler statics request =
      some response) :
    Gives environment handlerInfo request path block type response := by
  cases type with
  | fileHandler =>
      obtain rfl := newFileHandler_root made
      exact fileHandler_gives returned
  | echoHandler =>
      cases made
      cases returned
      rw [handleEchoRequest_body]
      exact .echo
  | notFoundHandler =>
      cases made
      cases returned
      exact .notFound
  | statusHandler =>
      cases made
      exact .status returned
  | proxyHandler =>
      obtain ⟨_, rfl⟩ := newProxyHandler_settings made
      exact proxyHandler_gives leading returned
  | sleepHandler =>
      cases made
      cases returned
      exact .sleep
  | healthHandler =>
      cases made
      cases returned
      exact .health

end Gives

theorem declared_provides {info : TreeMap Text Text compare}
    {config : NginxConfig} {objects : List RequestHandler}
    {environment : Environment} {handlerInfo : TreeMap Text Text compare}
    {request : Request} {path : Text} {pointer : HandlerPtr}
    {handler : RequestHandler} {statics : Statics} {response : Response}
    (longest : LongestMatch config request.target path)
    (declared : HandlerDeclared info config.statements objects path pointer)
    (object : objects[pointer]? = some handler)
    (returned : handleRequest environment handlerInfo handler statics request =
      some response) :
    Provides environment handlerInfo config request response := by
  cases declared with
  | root isObject =>
      cases isObject.symm.trans object
      cases returned
      exact .root longest
  | location position declares first hasBlock registered made isObject =>
      cases isObject.symm.trans object
      have leading := longest.isPrefix.trans (popSlashes_leading _)
      exact .located longest ⟨_, _, _, position, declares, first, hasBlock⟩
        (handler_gives made leading returned)

/-- However the callbacks of the two servers are interleaved, every response that a
session writes is the 400 page, to a text that the parser refuses, or what the
config says that its servers answer to the request in the text. As long as the
bytes that the session has received by then fit, the text is all of them. -/
theorem process_provides {statics : Statics}
    {info lastInfo : TreeMap Text Text compare}
    {memory : Version → CharArray maxLength} {config : NginxConfig}
    {first last : Process Request} {events : List (Version × Event Request)}
    (constructed : Process.newProcess statics info memory config =
      .ok (first, lastInfo))
    (run : Run Process.Steps first events last)
    (runs : ∀ event ∈ events, RunsHandlers lastInfo event.2)
    {version : Version} {session : SessionPtr} {connection : Connection Request}
    (found : (last.component version).connections[session]? =
      some connection) {stream : Stream} {response : Response}
    (wrote : .asyncWrite stream response ∈ connection.calls) :
    stream = version.stream ∧
    ∃ (before after : List (Event Request)) (environment : Environment)
      (offset length : Nat) (chunk text : Text),
      sessionEvents session (own version events) = before ++
        .complete session (.read offset length (some chunk)
          (environment.world lastInfo)) :: after ∧
      (Fits (delivered before ++ chunk) → text = delivered before ++ chunk) ∧
      isEnded text = true ∧
      (environment.put text = none ∧
          response = ⟨400, "<h1>400 Bad Request</h1>".toList⟩ ∨
        ∃ request, environment.put text = some request ∧
          Provides environment lastInfo config request response) := by
  obtain ⟨dispatcher, _, constructs, each⟩ := isolated_process constructed run
  obtain ⟨phases, represents, isolated⟩ := each version
  obtain ⟨phase, held, _⟩ := represents.phase found
  obtain ⟨fresh, isFresh, lived⟩ :=
    isolated.lived session connection phase found held
  have transcript := Transcript.run constructs isFresh lived
  obtain ⟨before, other, offset, length, chunk, text, world, after, _, _, split,
    whole, ended, answers, same⟩ := transcript.answered wrote
  have member : .complete other (.read offset length (some chunk) world) ∈
      sessionEvents session (own version events) := by
    rw [split]
    exact List.mem_append_right _ List.mem_cons_self
  obtain ⟨present, isSession⟩ := List.mem_filter.mp member
  obtain rfl := of_decide_eq_true isSession
  obtain ⟨environment, rfl⟩ := runs _ (mem_own.mp present)
  refine ⟨same, before, after, environment, offset, length, chunk, text, split,
    whole, ended, ?_⟩
  cases answers with
  | refused refuses => exact .inl ⟨refuses, rfl⟩
  | handled accepts longest declared object returns =>
      exact .inr ⟨_, accepts, declared_provides longest declared object returns⟩

/-! A file that is asked for over https, with its path for its content. -/

def fileAnswer : Response :=
  ⟨200, "/srv/a.txt".toList⟩

def twoRootsConfig : NginxConfig :=
  .mk [.mk ["location".toList, "/static/".toList, "FileHandler".toList]
    (some (.mk [.mk ["root".toList, "/tmp".toList] none,
      .mk ["root".toList, "/srv".toList] none]))]

def fileRequest : Request :=
  ⟨⟨"GET".toList, "/static/a.txt".toList, .http11, []⟩,
    ⟨by decide, by decide, List.forall_mem_nil _⟩⟩

def fileEnvironment : Environment where
  put _ := some fileRequest
  connected := true
  file path := .content path
  names := noNames
  upstream _ _ := none
  fuel := 0

theorem process_provides_file :
    ∃ (first last : Process Request) (info : TreeMap Text Text compare)
      (connection : Connection Request) (environment : Environment),
      Process.newProcess ⟨0, ∅⟩ ∅ (fun _ => .zeroed maxLength) twoRootsConfig =
        .ok (first, info) ∧
      Run Process.Steps first (servingEvents .https 0 [] rootRequest
        (fileEnvironment.world info)) last ∧
      .asyncWrite .sslsocket fileAnswer ∈ connection.calls ∧
      environment.put = fileEnvironment.put ∧
      Provides environment info twoRootsConfig fileRequest fileAnswer := by
  have routed : (newDispatcher ∅ twoRootsConfig).map (fun made =>
        (made.1.getRequestHandler "/static/a.txt".toList).bind
          (made.1.objects[·]?)) =
      .ok (some (.fileHandler "/static".toList "/srv".toList)) := by
    decide +kernel
  obtain ⟨dispatcher, _, constructs, pointer, found, object⟩ :=
    routed_of_map routed
  obtain ⟨first, info, constructed, _, waits⟩ :=
    Process.newProcess_waits constructs ⟨0, ∅⟩ fun _ => .zeroed maxLength
  have returns : handleRequest fileEnvironment info
      (.fileHandler "/static".toList "/srv".toList) first.shared fileRequest =
        some fileAnswer :=
    rfl
  have handles : Handles dispatcher (fileEnvironment.world info) first.shared
      rootRequest _ _ _ :=
    .handled rfl found object returns rfl
  obtain ⟨last, served, run, continues, calls, _⟩ :=
    Process.serve_read (waits .https) ⟨by decide, by decide⟩ (by decide) handles
  have wrote : .asyncWrite .sslsocket fileAnswer ∈ served.calls := by
    rw [calls]
    simp [Version.stream]
  have runs : ∀ event ∈ servingEvents .https 0 [] rootRequest
      (fileEnvironment.world info), RunsHandlers info event.2 :=
    servingEvents_runsHandlers fileEnvironment
  obtain ⟨_, before, after, environment, offset, length, chunk, text, split, _, _,
    answered⟩ := process_provides constructed run runs continues.found wrote
  have member : .complete 0 (.read offset length (some chunk)
      (environment.world info)) ∈ sessionEvents 0 (own .https
        (servingEvents .https 0 [] rootRequest (fileEnvironment.world info))) := by
    rw [split]
    exact List.mem_append_right _ List.mem_cons_self
  have sameWorld : environment.world info = fileEnvironment.world info := by
    have listed := (List.mem_filter.mp member).1
    simp [servingEvents, openingEvents, openingCompletions, servingCompletions,
      readCompletions, own] at listed
    exact listed.2.2.2
  have samePut : environment.put = fileEnvironment.put :=
    congrArg World.put sameWorld
  rw [samePut] at answered
  rcases answered with ⟨refused, _⟩ | ⟨request, accepted, provides⟩
  · cases refused
  · cases accepted
    exact ⟨first, last, info, served, environment, constructed, run, wrote,
      samePut, provides⟩

end HttpsServer.Handlers
