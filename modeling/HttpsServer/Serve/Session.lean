import HttpsServer.Data.CharArray
import HttpsServer.Dispatch.Dispatcher

namespace HttpsServer.Serve

open Std
open HttpsServer.Data
open HttpsServer.Dispatch

inductive Version where
  | http
  | https
  deriving DecidableEq

inductive Stream where
  | socket
  | sslsocket
  deriving DecidableEq

def maxLength : Nat := 1024000

/-- Status code and body; the header fields are left to the library. -/
structure Response where
  result : Nat
  body : Text
  deriving DecidableEq

/-- The static members, shared by all sessions. -/
structure Statics where
  requestCount : Nat
  handledRequests : TreeMap Text (List Nat) compare

def Statics.count (statics : Statics) (uri : Text) (result : Nat) :
    Statics where
  requestCount := statics.requestCount + 1
  handledRequests :=
    statics.handledRequests.insert uri
      ((statics.handledRequests[uri]?).getD [] ++ [result])

structure Session where
  version : Version
  data : CharArray maxLength
  buffer : Response

def Session.stream (session : Session) : Stream :=
  match session.version with
  | .https => .sslsocket
  | .http => .socket

/-! What a callback does: the calls it makes into other components, in their
order, and how it ends. -/

inductive Call (Request : Type) where
  | asyncHandshake
  /-- The region starts at an offset into `data_`. -/
  | asyncReadSome (stream : Stream) (offset length : Nat)
  | parserPut (text : Text)
  | handleRequest (handler : RequestHandler) (request : Request)
  | asyncWrite (stream : Stream) (response : Response)
  | close (stream : Stream)

inductive Crash where
  /-- `data_` is read as a string and holds no NUL. -/
  | unterminated
  /-- The handler that is called is a null pointer. -/
  | nullHandler
  | danglingHandler
  /-- An exception that nothing catches. -/
  | exception
  deriving DecidableEq

inductive Ending where
  | returned (session : Session)
  /-- The callback has run `delete this`. -/
  | deleted
  | crashed (crash : Crash)

structure Effect (Request : Type) where
  calls : List (Call Request)
  ending : Ending

/-- What `send_response` gets from the parser, the virtual call of the handler and
the socket. -/
structure World (Request : Type) where
  /-- The request, unless the parser sets its error code. -/
  put : Text → Option Request
  target : Request → Text
  /-- None when the handler throws. -/
  handleRequest : RequestHandler → Statics → Request → Option Response
  /-- Whether `remote_endpoint` finds a peer; it throws otherwise. -/
  connected : Bool

inductive HandshakeError where
  /-- `SSL_R_HTTP_REQUEST`. -/
  | httpRequest
  | other
  deriving DecidableEq

namespace Session

variable {Request : Type}

def start (session : Session) : Effect Request :=
  match session.version with
  | .https => ⟨[.asyncHandshake], .returned session⟩
  | .http =>
      ⟨[.asyncReadSome .socket 0 maxLength],
        .returned { session with data := .zeroed maxLength }⟩

def handleHandshake (error : Option HandshakeError) (session : Session) :
    Effect Request :=
  match error with
  | none =>
      ⟨[.asyncReadSome .sslsocket 0 maxLength],
        .returned { session with data := .zeroed maxLength }⟩
  | some .httpRequest => ⟨[], .deleted⟩
  | some .other => ⟨[], .deleted⟩

end Session

def isEnded (request : Text) : Bool :=
  (Text.find "\r\n\r\n".toList request).isSome ||
    (Text.find "\n\n".toList request).isSome

namespace Session

variable {Request : Type}

def endOfRequest (session : Session) : Option Bool :=
  session.data.text?.map isEnded

def appendData (session : Session) : Effect Request :=
  match session.data.text? with
  | none => ⟨[], .crashed .unterminated⟩
  | some text =>
      ⟨[.asyncReadSome session.stream text.length maxLength],
        .returned session⟩

def badRequest : Response where
  result := 400
  body := "<h1>400 Bad Request</h1>".toList

def sendResponse (dispatcher : Dispatcher) (world : World Request)
    (statics : Statics) (session : Session) : Effect Request × Statics :=
  match session.data.text? with
  | none => (⟨[], .crashed .unterminated⟩, statics)
  | some text =>
      match world.put text with
      | none =>
          (⟨[.parserPut text, .asyncWrite session.stream badRequest],
            .returned { session with buffer := badRequest }⟩, statics)
      | some request =>
          let uri := world.target request
          match dispatcher.getRequestHandler uri with
          | none => (⟨[.parserPut text], .crashed .nullHandler⟩, statics)
          | some pointer =>
              match dispatcher.objects[pointer]? with
              | none =>
                  (⟨[.parserPut text], .crashed .danglingHandler⟩, statics)
              | some handler =>
                  match world.handleRequest handler statics request with
                  | none =>
                      (⟨[.parserPut text, .handleRequest handler request],
                        .crashed .exception⟩, statics)
                  | some response =>
                      let statics := statics.count uri response.result
                      if world.connected then
                        (⟨[.parserPut text, .handleRequest handler request,
                            .asyncWrite session.stream response],
                          .returned { session with buffer := response }⟩,
                          statics)
                      else
                        (⟨[.parserPut text, .handleRequest handler request],
                          .crashed .exception⟩, statics)

def handleRead (dispatcher : Dispatcher) (world : World Request)
    (statics : Statics) (error : Bool) (session : Session) :
    Effect Request × Statics :=
  if error then (⟨[], .deleted⟩, statics)
  else
    match session.endOfRequest with
    | none => (⟨[], .crashed .unterminated⟩, statics)
    | some false => (session.appendData, statics)
    | some true => session.sendResponse dispatcher world statics

def handleWrite (error : Bool) (session : Session) : Effect Request :=
  if error then ⟨[], .deleted⟩
  else
    ⟨[.close session.stream],
      .returned { session with data := .zeroed maxLength }⟩

end Session

end HttpsServer.Serve
