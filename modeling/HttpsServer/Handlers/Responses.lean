import HttpsServer.Handlers.EchoHandler
import HttpsServer.Handlers.FileHandler
import HttpsServer.Handlers.ProxyRequest
import HttpsServer.Handlers.StatusProcess
import HttpsServer.Serve.Survival

namespace HttpsServer.Handlers

open Std
open HttpsServer.Data
open HttpsServer.Config
open HttpsServer.Dispatch
open HttpsServer.Serve

/-! The handlers behind the virtual call of a session. -/

def handleNotFoundRequest : Response :=
  ⟨404, "<h1>404 Not Found</h1>".toList⟩

def handleSleepRequest : Response :=
  ⟨200, "I slept for 5 seconds!".toList⟩

def handleHealthRequest : Response :=
  ⟨200, "OK".toList⟩

def Request.verb (request : Request) : Verb :=
  if request.method = "GET".toList then .get else .other

/-- What is found at a path. A directory can be opened, and throws when it is
read. -/
inductive FileStatus where
  | absent
  | unreadable
  | content (text : Text)
  deriving DecidableEq

def FileStatus.content? : FileStatus → Option Text
  | .absent | .unreadable => none
  | .content text => some text

/-- What a callback finds outside of the program, with fuel for the redirects of
the other servers. -/
structure Environment where
  put : Text → Option Request
  connected : Bool
  file : Text → FileStatus
  names : FieldNames
  upstream : Upstream
  fuel : Nat

def Environment.readFile (environment : Environment) (path : Text) :
    Option Text :=
  (environment.file path).content?

/-- None when the handler throws, or is redirected further than the fuel lasts. -/
def handleRequest (environment : Environment)
    (handlerInfo : TreeMap Text Text compare) (handler : RequestHandler)
    (statics : Statics) (request : Request) : Option Response :=
  match handler with
  | .fileHandler _ root =>
      let (opened, response) := handleFileRequest root environment.readFile
        request.verb request.target
      if opened.any (environment.file · = .unreadable) then none
      else some ⟨response.result, response.body⟩
  | .echoHandler =>
      let response := handleEchoRequest environment.names request
      some ⟨response.result, response.body⟩
  | .notFoundHandler => some handleNotFoundRequest
  | .statusHandler => handleStatusRequest statics handlerInfo
  | .proxyHandler locationPrefix host _ port =>
      match handleProxyRequest environment.upstream environment.fuel
          locationPrefix host port request.target with
      | some (.ok response) => some ⟨response.result, response.body⟩
      | some (.error _) => none
      | none => none
  | .sleepHandler => some handleSleepRequest
  | .healthHandler => some handleHealthRequest

def Environment.world (environment : Environment)
    (handlerInfo : TreeMap Text Text compare) : World Request where
  put := environment.put
  target request := request.target
  handleRequest := handleRequest environment handlerInfo
  connected := environment.connected

/-- A proxy needs an exchange that comes to a response, and a file handler that has
to open a path needs one that can be read if it can be opened; the other handlers
always return. -/
def Environment.Returns (environment : Environment) (request : Request) :
    RequestHandler → Prop
  | .proxyHandler locationPrefix host _ port => ∃ response,
      handleProxyRequest environment.upstream environment.fuel locationPrefix
        host port request.target = some (.ok response)
  | .fileHandler _ root => request.method = "GET".toList →
      ∀ file, filePart? request.target = some file →
        environment.file (root ++ file) ≠ .unreadable
  | .echoHandler | .notFoundHandler | .statusHandler
  | .sleepHandler | .healthHandler => True

theorem handleRequest_file (environment : Environment)
    (handlerInfo : TreeMap Text Text compare) (location root : Text)
    (statics : Statics) (request : Request) :
    handleRequest environment handlerInfo (.fileHandler location root) statics
        request =
      if request.method = "GET".toList then
        match filePart? request.target with
        | none => some ⟨404, "<h1>404 Not Found</h1>".toList⟩
        | some file =>
            match environment.file (root ++ file) with
            | .absent => some ⟨404, "<h1>404 Not Found</h1>".toList⟩
            | .unreadable => none
            | .content text => some ⟨200, text⟩
      else some ⟨200, []⟩ := by
  rw [handleRequest, Request.verb]
  by_cases get : request.method = "GET".toList
  · rw [if_pos get, if_pos get, handleFileRequest]
    dsimp only
    cases filePart? request.target with
    | none => rfl
    | some file =>
        dsimp only
        cases status : environment.file (root ++ file) with
        | absent =>
            have read : environment.readFile (root ++ file) = none := by
              rw [Environment.readFile, status, FileStatus.content?]
            simp [read, status, fileNotFound]
        | unreadable =>
            have read : environment.readFile (root ++ file) = none := by
              rw [Environment.readFile, status, FileStatus.content?]
            simp [read, status]
        | content text =>
            have read : environment.readFile (root ++ file) = some text := by
              rw [Environment.readFile, status, FileStatus.content?]
            simp [read, status]
  · rw [if_neg get, if_neg get]
    rfl

theorem handleRequest_file_iff (environment : Environment)
    (handlerInfo : TreeMap Text Text compare) (location root : Text)
    (statics : Statics) (request : Request) :
    (∃ response, handleRequest environment handlerInfo
      (.fileHandler location root) statics request = some response) ↔
    environment.Returns request (.fileHandler location root) := by
  rw [handleRequest_file, Environment.Returns]
  by_cases get : request.method = "GET".toList
  · rw [if_pos get]
    cases filePart? request.target with
    | none => exact iff_of_true ⟨_, rfl⟩ fun _ _ => nofun
    | some file =>
        dsimp only
        cases status : environment.file (root ++ file) with
        | absent | content =>
            refine iff_of_true ⟨_, rfl⟩ fun _ other same => ?_
            rw [← Option.some.inj same, status]
            nofun
        | unreadable =>
            refine iff_of_false nofun fun readable => ?_
            exact readable get file rfl status
  · rw [if_neg get]
    exact iff_of_true ⟨_, rfl⟩ fun other => absurd other get

theorem handleRequest_returns_iff (environment : Environment)
    (handlerInfo : TreeMap Text Text compare) (handler : RequestHandler)
    {statics : Statics} {requests : List (Text × Nat)}
    (recorded : Recorded statics requests) (request : Request) :
    (∃ response, handleRequest environment handlerInfo handler statics request =
      some response) ↔ environment.Returns request handler := by
  cases handler with
  | echoHandler | notFoundHandler | sleepHandler | healthHandler =>
      exact iff_of_true ⟨_, rfl⟩ trivial
  | fileHandler location root =>
      exact handleRequest_file_iff environment handlerInfo location root statics
        request
  | statusHandler =>
      obtain ⟨_, returned, _⟩ := recorded.page handlerInfo
      exact iff_of_true ⟨_, returned⟩ trivial
  | proxyHandler locationPrefix host path port =>
      rw [handleRequest, Environment.Returns]
      cases handleProxyRequest environment.upstream environment.fuel
          locationPrefix host port request.target with
      | none => simp
      | some returned => cases returned <;> simp

/-! Which requests the two servers survive. -/

/-- A location leads the target and its handler returns, to a peer that is still
there. -/
structure Answerable (info : TreeMap Text Text compare) (config : NginxConfig)
    (objects : List RequestHandler) (environment : Environment)
    (request : Request) : Prop where
  location : ∃ path pointer handler, LongestMatch config request.target path ∧
    HandlerDeclared info config.statements objects path pointer ∧
    objects[pointer]? = some handler ∧ environment.Returns request handler
  connected : environment.connected = true

theorem answerable_iff {info : TreeMap Text Text compare} {config : NginxConfig}
    {objects : List RequestHandler} (environment : Environment)
    (handlerInfo : TreeMap Text Text compare) {statics : Statics}
    {requests : List (Text × Nat)} (recorded : Recorded statics requests)
    (request : Request) :
    Responds info config objects (environment.world handlerInfo) statics
        request ↔
      Answerable info config objects environment request := by
  constructor
  · rintro ⟨⟨path, pointer, handler, response, longest, declared, object,
      returns⟩, connected⟩
    exact ⟨⟨path, pointer, handler, longest, declared, object,
      (handleRequest_returns_iff environment handlerInfo handler recorded
        request).mp ⟨response, returns⟩⟩, connected⟩
  · rintro ⟨⟨path, pointer, handler, longest, declared, object, returns⟩,
      connected⟩
    obtain ⟨response, returned⟩ := (handleRequest_returns_iff environment
      handlerInfo handler recorded request).mpr returns
    exact ⟨⟨path, pointer, handler, response, longest, declared, object,
      returned⟩, connected⟩

/-- The handlers of the program stand behind the reads of the event. -/
def RunsHandlers (handlerInfo : TreeMap Text Text compare) :
    Event Request → Prop
  | .complete _ (.read _ _ _ world) =>
      ∃ environment : Environment, world = environment.world handlerInfo
  | .complete _ (.handshake _) | .complete _ (.write _) => True
  | .accept _ _ _ | .start _ => True

theorem RunsHandlers.uses {handlerInfo : TreeMap Text Text compare}
    {event : Event Request} (runs : RunsHandlers handlerInfo event) :
    event.Uses (fun request => request.target) IsTarget := by
  cases event with
  | accept | start => trivial
  | complete session completion =>
      cases completion with
      | handshake | write => trivial
      | read offset length received world =>
          obtain ⟨environment, rfl⟩ := runs
          exact ⟨rfl, fun _ request _ nonempty =>
            ⟨nonempty, request.wellFormed.target.1⟩⟩

theorem openingEvents_runsHandlers {handlerInfo : TreeMap Text Text compare}
    {version : Version} {session : SessionPtr} :
    ∀ event ∈ openingEvents version session,
      RunsHandlers handlerInfo event.2 := by
  cases version <;> simp [openingEvents, openingCompletions, RunsHandlers]

theorem servingEvents_runsHandlers {handlerInfo : TreeMap Text Text compare}
    {version : Version} {session : SessionPtr} {chunk : Text}
    (environment : Environment) :
    ∀ event ∈ servingEvents version session [] chunk
      (environment.world handlerInfo), RunsHandlers handlerInfo event.2 := by
  intro event member
  rcases List.mem_append.mp member with opens | completes
  · exact openingEvents_runsHandlers event opens
  · obtain rfl | rfl : event = _ ∨ event = _ := by
      simpa [servingCompletions, readCompletions] using completes
    · exact ⟨environment, rfl⟩
    · trivial

theorem recorded_process {info lastInfo : TreeMap Text Text compare}
    {memory : Version → CharArray maxLength} {config : NginxConfig}
    {first last : Process Request} {events : List (Version × Event Request)}
    (constructed : Process.newProcess ⟨0, ∅⟩ info memory config =
      .ok (first, lastInfo))
    (run : Run Process.Steps first events last)
    (runs : ∀ event ∈ events, RunsHandlers lastInfo event.2) :
    ∃ requests, Recorded last.shared requests := by
  obtain ⟨requests, _, count, grouped, targets⟩ :=
    balanced_process constructed run fun event member => (runs event member).uses
  exact ⟨requests, count, grouped, targets⟩

/-- In every state that the two servers reach with the handlers of the program, the
outstanding operation of a session can be completed in every way, except that a
read that brings the empty line comes back exactly when the request, if the parser
accepts it, is answerable. -/
theorem process_survives_iff {info lastInfo : TreeMap Text Text compare}
    {memory : Version → CharArray maxLength} {config : NginxConfig}
    {first last : Process Request} {events : List (Version × Event Request)}
    (constructed : Process.newProcess ⟨0, ∅⟩ info memory config =
      .ok (first, lastInfo))
    (run : Run Process.Steps first events last)
    (runs : ∀ event ∈ events, RunsHandlers lastInfo event.2)
    {version : Version} {session : SessionPtr} {connection : Connection Request}
    (found : (last.component version).connections[session]? =
      some connection) :
    (∀ completion : Completion Request,
      completion.operation ∈ connection.pending →
      (∀ offset length chunk world,
        completion ≠ .read offset length (some chunk) world) →
      ∃ next, Process.Steps last (version, .complete session completion)
        next) ∧
    ∀ offset length chunk (environment : Environment),
      .read offset length ∈ connection.pending → chunk ≠ [] →
      let text :=
        delivered (sessionEvents session (own version events)) ++ chunk
      Fits text →
      ((∃ next, Process.Steps last (version, .complete session
          (.read offset length (some chunk) (environment.world lastInfo)))
          next) ↔
        (isEnded text = true → ∀ request, environment.put text = some request →
          Answerable info config (last.component version).dispatcher.objects
            environment request)) := by
  constructor
  · intro completion outstanding unread
    exact (Process.step_complete_iff found completion).mpr
      (completes_unread outstanding unread _ _)
  · intro offset length chunk environment outstanding nonempty text fits
    obtain ⟨dispatcher, _, constructs, each⟩ := isolated_process constructed run
    obtain ⟨_, _, isolated⟩ := each version
    obtain ⟨requests, recorded⟩ := recorded_process constructed run runs
    obtain ⟨phase, inPhase, delivers⟩ :=
      delivers_process constructed run found fits.before
    obtain ⟨rfl, _⟩ := inPhase.outstanding outstanding
    obtain ⟨receiving, _⟩ := delivers.reading rfl
    rw [receiving.pending, List.mem_singleton] at outstanding
    cases outstanding
    rw [Process.step_complete_iff found, isolated.constant.1,
      receiving.completes_iff _ _ _ nonempty fits, handles_iff constructs]
    simp only [answerable_iff environment lastInfo recorded]
    rfl

def noNames : FieldNames :=
  ⟨[], [], by decide⟩

/-- An environment whose parser accepts every text as `OPTIONS *`. -/
def asteriskEnvironment : Environment where
  put _ := some ⟨⟨"OPTIONS".toList, "*".toList, .http11, []⟩,
    ⟨by decide, by decide, List.forall_mem_nil _⟩⟩
  connected := true
  file _ := .absent
  names := noNames
  upstream _ _ := none
  fuel := 0

/-- The server of an empty config does not survive it. -/
theorem process_survives_iff_asterisk :
    ∃ (first last : Process Request) (info : TreeMap Text Text compare)
      (connection : Connection Request),
      Process.newProcess ⟨0, ∅⟩ ∅ (fun _ => .zeroed maxLength) (.mk []) =
        .ok (first, info) ∧
      Run Process.Steps first (openingEvents .http 0) last ∧
      (last.component .http).connections[0]? = some connection ∧
      .read 0 maxLength ∈ connection.pending ∧
      ¬ ∃ next, Process.Steps last (.http, .complete 0 (.read 0 maxLength
        (some asteriskRequest) (asteriskEnvironment.world info))) next := by
  have constructs : newDispatcher ∅ (.mk []) = .ok (_, _) := rfl
  obtain ⟨first, info, constructed, _, waits⟩ :=
    Process.newProcess_waits constructs ⟨0, ∅⟩ fun _ => .zeroed maxLength
  obtain ⟨last, opened, run, _, continues, isOpened, _⟩ :=
    Process.opens (waits .http)
  have pending : .read 0 maxLength ∈ (opened : Connection Request).pending := by
    rw [isOpened.receiving.1.pending]
    exact List.mem_singleton_self _
  have survives := (process_survives_iff constructed run
    openingEvents_runsHandlers continues.found).2 0 maxLength asteriskRequest
      asteriskEnvironment pending (by decide) ⟨by decide, by decide⟩
  refine ⟨first, last, info, opened, constructed, run, continues.found, pending,
    ?_⟩
  rw [survives]
  intro answerable
  obtain ⟨⟨path, _, _, longest, _⟩, _⟩ := answerable (by decide) _ rfl
  rw [List.mem_singleton.mp longest.candidate] at longest
  exact absurd ((root_prefix_iff _).mp longest.isPrefix) (by decide)

end HttpsServer.Handlers
