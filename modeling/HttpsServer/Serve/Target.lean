import HttpsServer.Dispatch.Routing
import HttpsServer.Serve.Session

namespace HttpsServer.Serve

open Std
open HttpsServer.Data
open HttpsServer.Config
open HttpsServer.Dispatch

/-! Which request targets reach a handler. -/

theorem popSlashes_head? (path : Text) : (popSlashes path).head? = path.head? := by
  induction path using popSlashes.induct with
  | case1 path trailing induction =>
      rw [popSlashes, if_pos trailing, induction]
      cases path with
      | nil => simp at trailing
      | cons first rest =>
          cases rest with
          | nil => simp at trailing
          | cons second rest => rfl
  | case2 path trimmed => rw [popSlashes, if_neg trimmed]

theorem root_prefix_iff (uri : Text) :
    "/".toList <+: popSlashes uri ↔ uri.head? = some '/' := by
  rw [← popSlashes_head?]
  change ['/'] <+: popSlashes uri ↔ _
  cases popSlashes uri with
  | nil => simp
  | cons first rest => simp [eq_comm]

theorem handleRequest_mem_sendResponse {Request : Type} {dispatcher : Dispatcher}
    {world : World Request} {session : Session} {text : Text}
    {request : Request} {pointer : HandlerPtr} {handler : RequestHandler}
    (statics : Statics) (received : session.data.text? = some text)
    (accepted : world.put text = some request)
    (found : dispatcher.getRequestHandler (world.target request) = some pointer)
    (object : dispatcher.objects[pointer]? = some handler) :
    .handleRequest handler request ∈
      (session.sendResponse dispatcher world statics).1.calls := by
  unfold Session.sendResponse
  rw [received]
  dsimp only
  rw [accepted]
  dsimp only
  rw [found]
  dsimp only
  rw [object]
  dsimp only
  cases world.handleRequest handler statics request with
  | none => simp
  | some response =>
      cases connected : world.connected <;> simp

theorem sendResponse_null {Request : Type} {dispatcher : Dispatcher}
    {world : World Request} {session : Session} {text : Text}
    {request : Request} (statics : Statics)
    (received : session.data.text? = some text)
    (accepted : world.put text = some request)
    (missing : dispatcher.getRequestHandler (world.target request) = none) :
    (session.sendResponse dispatcher world statics).1.ending =
      .crashed .nullHandler := by
  unfold Session.sendResponse
  rw [received]
  dsimp only
  rw [accepted]
  dsimp only
  rw [missing]

/-- An accepted request is passed to a handler object exactly when its target
starts with a slash or, once trimmed, with a declared path. -/
theorem sendResponse_handler_iff {Request : Type}
    {info lastInfo : TreeMap Text Text compare} {config : NginxConfig}
    {dispatcher : Dispatcher}
    (constructed : newDispatcher info config = .ok (dispatcher, lastInfo))
    (world : World Request) (statics : Statics) {session : Session}
    {text : Text} {request : Request}
    (received : session.data.text? = some text)
    (accepted : world.put text = some request) :
    (∃ pointer handler,
      dispatcher.getRequestHandler (world.target request) = some pointer ∧
      dispatcher.objects[pointer]? = some handler ∧
      .handleRequest handler request ∈
        (session.sendResponse dispatcher world statics).1.calls) ↔
    ((world.target request).head? = some '/' ∨
      ∃ path ∈ declaredPaths config.statements,
        path ≠ [] ∧ path <+: popSlashes (world.target request)) := by
  have isSome := getRequestHandler_isSome_iff constructed (world.target request)
  rw [candidates] at isSome
  constructor
  · rintro ⟨pointer, handler, found, _⟩
    obtain ⟨path, candidate, nonempty, isPrefix⟩ := isSome.mp ⟨pointer, found⟩
    rcases List.mem_cons.mp candidate with rfl | declared
    · exact .inl ((root_prefix_iff _).mp isPrefix)
    · exact .inr ⟨path, declared, nonempty, isPrefix⟩
  · intro matched
    have found : ∃ pointer,
        dispatcher.getRequestHandler (world.target request) = some pointer := by
      apply isSome.mpr
      rcases matched with slash | ⟨path, declared, nonempty, isPrefix⟩
      · exact ⟨"/".toList, List.mem_cons_self, by decide,
          (root_prefix_iff _).mpr slash⟩
      · exact ⟨path, List.mem_cons_of_mem _ declared, nonempty, isPrefix⟩
    obtain ⟨pointer, found⟩ := found
    obtain ⟨handler, object⟩ := getRequestHandler_object constructed found
    exact ⟨pointer, handler, found, object,
      handleRequest_mem_sendResponse statics received accepted found object⟩

/-! Two requests to the server of an empty config. -/

/-- What the parser does on a well-formed request line, with the target in the
place of the request. -/
def lineWorld : World Text where
  put text := some (((text.dropWhile (· ≠ ' ')).drop 1).takeWhile (· ≠ ' '))
  target := id
  handleRequest _ _ _ := some ⟨404, "<h1>404 Not Found</h1>".toList⟩
  connected := true

def receivedSession (text : Text) (fits : 0 + text.length ≤ maxLength) :
    Session where
  version := .http
  data := (CharArray.zeroed maxLength).store 0 text fits
  buffer := Session.badRequest

theorem receivedSession_text? {text : Text}
    (fits : 0 + text.length ≤ maxLength) (clean : nul ∉ text)
    (short : text.length < maxLength) :
    (receivedSession text fits).data.text? = some text :=
  (CharArray.holds_zeroed.store fits).text? clean short

def rootRequest : Text := "GET /a HTTP/1.1\r\n\r\n".toList

def asteriskRequest : Text := "OPTIONS * HTTP/1.1\r\n\r\n".toList

theorem sendResponse_handler_root :
    ∃ dispatcher lastInfo, newDispatcher ∅ (.mk []) = .ok (dispatcher, lastInfo) ∧
      ∃ pointer handler, dispatcher.getRequestHandler "/a".toList = some pointer ∧
        dispatcher.objects[pointer]? = some handler ∧
        .handleRequest handler "/a".toList ∈
          ((receivedSession rootRequest (by decide)).sendResponse dispatcher
            lineWorld ⟨0, ∅⟩).1.calls := by
  have constructed : newDispatcher ∅ (.mk []) = .ok (_, _) := rfl
  refine ⟨_, _, constructed, ?_⟩
  exact (sendResponse_handler_iff constructed lineWorld ⟨0, ∅⟩
    (receivedSession_text? (by decide) (by decide) (by decide))
    (by decide)).mpr (.inl (by decide))

/-- The target `*` is accepted, and no handler is found for it. -/
theorem sendResponse_asterisk :
    ∃ dispatcher lastInfo, newDispatcher ∅ (.mk []) = .ok (dispatcher, lastInfo) ∧
      lineWorld.put asteriskRequest = some "*".toList ∧
      dispatcher.getRequestHandler (lineWorld.target "*".toList) = none ∧
      ((receivedSession asteriskRequest (by decide)).sendResponse dispatcher
        lineWorld ⟨0, ∅⟩).1.ending = .crashed .nullHandler := by
  have received : (receivedSession asteriskRequest (by decide)).data.text? =
      some asteriskRequest :=
    receivedSession_text? (by decide) (by decide) (by decide)
  have accepted : lineWorld.put asteriskRequest = some "*".toList := by decide
  have missing : (newDispatcher ∅ (.mk [])).map
      (fun made => made.1.getRequestHandler "*".toList) = .ok none := by
    decide +kernel
  refine ⟨_, _, rfl, accepted, Except.ok.inj missing, ?_⟩
  exact sendResponse_null _ received accepted (Except.ok.inj missing)

end HttpsServer.Serve
