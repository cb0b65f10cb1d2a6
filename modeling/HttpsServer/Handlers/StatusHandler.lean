import Mathlib.Data.List.Nodup
import HttpsServer.Data.Grouping
import HttpsServer.Data.Run
import HttpsServer.Serve.Target

namespace HttpsServer.Handlers

open Std
open HttpsServer.Data
open HttpsServer.Data.Grouping
open HttpsServer.Config
open HttpsServer.Dispatch
open HttpsServer.Serve

/-! The page with the numbers of requests that were answered. -/

/-- `std::to_string` of a number that is not negative. -/
def decimal (number : Nat) : Text :=
  Nat.toDigits 10 number

/-- The key under which a target and a status code are counted. -/
def responseKey (request : Text × Nat) : Text :=
  request.1 ++ " ".toList ++ decimal request.2

def condense (handledRequests : TreeMap Text (List Nat) compare) :
    TreeMap Text Nat compare :=
  handledRequests.toList.foldl (fun condenseCodes entry =>
    entry.2.foldl (fun condenseCodes code =>
      tallyOne condenseCodes (responseKey (entry.1, code))) condenseCodes) ∅

/-- The loop of `split`, with the piece and the pieces so far. -/
def splitLoop (c : Char) (buff : Text) (pieces : List Text) :
    Text → List Text
  | [] => if buff ≠ [] then pieces ++ [buff] else pieces
  | n :: s =>
      if n ≠ c then splitLoop c (buff ++ [n]) pieces s
      else if buff ≠ [] then splitLoop c [] (pieces ++ [buff]) s
      else splitLoop c buff pieces s

def split (s : Text) (c : Char) : List Text :=
  splitLoop c [] [] s

def tableRow (cells : List Text) : Text :=
  "<tr>".toList ++
    cells.flatMap (fun cell => "<td>".toList ++ cell ++ "</td>".toList) ++
      "</tr>".toList

/-- A row of the request table; none when one of its three pieces is past the end
of the vector. -/
def requestRow (entry : Text × Nat) : Option Text :=
  let tokens := split (entry.1 ++ " ".toList ++ decimal entry.2) ' '
  match tokens[0]?, tokens[1]?, tokens[2]? with
  | some target, some code, some number => some (tableRow [target, code, number])
  | _, _, _ => none

def requestInfo : List (Text × Nat) → Option Text
  | [] => some []
  | entry :: rest => do
      let row ← requestRow entry
      let rows ← requestInfo rest
      some (row ++ rows)

def statusPage (requestCount : Nat) (requestInfo : Text)
    (handlerInfo : TreeMap Text Text compare) : Text :=
  "<h1>Total number of requests: ".toList ++ decimal requestCount ++
    "</h1>".toList ++
    "<h2>Detail Request Status</h2>".toList ++
    "<table>".toList ++
    "<tr><th>URL Requested</th><th>Return Code</th><th>Count</th></tr>".toList ++
    requestInfo ++ "</table>".toList ++
    "<h2>Request Handlers</h2>".toList ++
    "<table>".toList ++
    "<tr><th>URL Prefix</th><th>Handler</th></tr>".toList ++
    handlerInfo.toList.flatMap (fun entry => tableRow [entry.1, entry.2]) ++
    "</table>".toList

/-- `StatusHandler::handle_request`, which looks at the statics and not at the
request. -/
def handleStatusRequest (statics : Statics)
    (handlerInfo : TreeMap Text Text compare) : Option Response := do
  let rows ← requestInfo (condense statics.handledRequests).toList
  some ⟨200, statusPage statics.requestCount rows handlerInfo⟩

/-! What the counters hold after any number of requests. -/

/-- The request in the session's data is accepted, and routed to a handler that
returns a response. -/
structure Served {Request : Type} (dispatcher : Dispatcher)
    (world : World Request) (statics : Statics) (session : Session)
    (request : Request) (handler : RequestHandler) (response : Response) :
    Prop where
  accepted : ∃ text, session.data.text? = some text ∧
    world.put text = some request
  routed : ∃ pointer,
    dispatcher.getRequestHandler (world.target request) = some pointer ∧
    dispatcher.objects[pointer]? = some handler
  handled : world.handleRequest handler statics request = some response

theorem Served.counted {Request : Type} {dispatcher : Dispatcher}
    {world : World Request} {statics : Statics} {session : Session}
    {request : Request} {handler : RequestHandler} {response : Response}
    (served : Served dispatcher world statics session request handler response) :
    (session.sendResponse dispatcher world statics).2 =
      statics.count (world.target request) response.result := by
  obtain ⟨text, received, accepted⟩ := served.accepted
  obtain ⟨pointer, found, object⟩ := served.routed
  rw [Session.sendResponse, received]
  dsimp only
  rw [accepted]
  dsimp only
  rw [found]
  dsimp only
  rw [object]
  dsimp only
  rw [served.handled]
  dsimp only
  split <;> rfl

/-- A target as the parser passes it on. -/
def IsTarget (target : Text) : Prop :=
  target ≠ [] ∧ ' ' ∉ target

/-- One request through `send_response`, with its target and status code. -/
inductive SendsResponse : Statics → Text × Nat → Statics → Prop
  | served {Request : Type} {dispatcher : Dispatcher} {world : World Request}
      {statics : Statics} {session : Session} {request : Request}
      {handler : RequestHandler} {response : Response}
      (served : Served dispatcher world statics session request handler response)
      (isTarget : IsTarget (world.target request)) :
      SendsResponse statics (world.target request, response.result)
        (session.sendResponse dispatcher world statics).2

def noRequests : Statics :=
  ⟨0, ∅⟩

/-- The statics have counted exactly these requests. -/
structure Recorded (statics : Statics) (requests : List (Text × Nat)) :
    Prop where
  count : statics.requestCount = requests.length
  grouped : Groups statics.handledRequests requests
  targets : ∀ request ∈ requests, IsTarget request.1

theorem Recorded.sendsResponse {statics after : Statics}
    {requests : List (Text × Nat)} {request : Text × Nat}
    (recorded : Recorded statics requests)
    (sent : SendsResponse statics request after) :
    Recorded after (requests ++ [request]) := by
  cases sent with
  | @served _ _ world _ _ request _ response served isTarget =>
      rw [served.counted]
      refine ⟨?_, recorded.grouped.insert (world.target request, response.result),
        ?_⟩
      · rw [List.length_append]
        exact congrArg (· + 1) recorded.count
      · intro other member
        rcases List.mem_append.mp member with before | new
        · exact recorded.targets other before
        · rw [List.mem_singleton.mp new]
          exact isTarget

theorem recorded_run {requests : List (Text × Nat)} {statics : Statics}
    (run : Run SendsResponse noRequests requests statics) :
    Recorded statics requests := by
  have initial : Recorded noRequests [] := ⟨rfl, groups_empty, nofun⟩
  exact run.preserves_trace (fun done statics => Recorded statics done)
    (fun sent recorded => recorded.sendsResponse sent) initial

/-- The number of status codes that are stored, for all targets together. -/
def Statics.storedCodes (statics : Statics) : Nat :=
  (statics.handledRequests.toList.map fun entry => entry.2.length).sum

theorem Recorded.storedCodes {statics : Statics} {requests : List (Text × Nat)}
    (recorded : Recorded statics requests) :
    Statics.storedCodes statics = requests.length := by
  rw [← recorded.grouped.flatten_perm.length_eq, flatten, List.length_flatMap,
    Statics.storedCodes]
  simp only [List.length_map]

/-! The key of a target and a status code, taken apart again. -/

theorem splitLoop_word {c : Char} {word : Text} (plain : c ∉ word)
    (buff : Text) (pieces : List Text) (rest : Text) :
    splitLoop c buff pieces (word ++ rest) =
      splitLoop c (buff ++ word) pieces rest := by
  induction word generalizing buff with
  | nil => rw [List.append_nil, List.nil_append]
  | cons n word induction =>
      have other : n ≠ c := fun same => plain (same ▸ List.mem_cons_self)
      rw [List.cons_append, splitLoop, if_pos other,
        induction fun member => plain (List.mem_cons_of_mem _ member),
        List.append_assoc, List.singleton_append]

theorem splitLoop_words {c : Char} {first : Text} {rest : List Text}
    (plain : ∀ word ∈ first :: rest, word ≠ [] ∧ c ∉ word)
    (pieces : List Text) :
    splitLoop c [] pieces (first ++ rest.flatMap (c :: ·)) =
      pieces ++ first :: rest := by
  obtain ⟨nonempty, outside⟩ := plain first List.mem_cons_self
  rw [splitLoop_word outside, List.nil_append]
  induction rest generalizing first pieces with
  | nil => exact if_pos nonempty
  | cons second rest induction =>
      have plainRest : ∀ word ∈ second :: rest, word ≠ [] ∧ c ∉ word :=
        fun word member => plain word (List.mem_cons_of_mem _ member)
      obtain ⟨secondNonempty, secondOutside⟩ :=
        plainRest second List.mem_cons_self
      rw [List.flatMap_cons, List.cons_append, splitLoop,
        if_neg (not_not_intro rfl), if_pos nonempty,
        splitLoop_word secondOutside, List.nil_append,
        induction plainRest _ secondNonempty secondOutside, List.append_assoc,
        List.singleton_append]

theorem split_words {c : Char} {first : Text} {rest : List Text}
    (plain : ∀ word ∈ first :: rest, word ≠ [] ∧ c ∉ word) :
    split (first ++ rest.flatMap (c :: ·)) c = first :: rest :=
  splitLoop_words plain []

theorem not_mem_decimal {c : Char} (notDigit : c.isDigit = false) (number : Nat) :
    c ∉ decimal number := by
  intro member
  have digit := Nat.isDigit_of_mem_toDigits (by decide) (by decide) member
  rw [notDigit] at digit
  contradiction

theorem decimal_plain (number : Nat) :
    decimal number ≠ [] ∧ ' ' ∉ decimal number :=
  ⟨Nat.toDigits_ne_nil, not_mem_decimal rfl number⟩

theorem decimal_injective {left right : Nat}
    (same : decimal left = decimal right) : left = right := by
  have values := congrArg (Nat.ofDigitChars 10 · 0) same
  simpa [decimal, Nat.ofDigitChars_ten_toDigits] using values

theorem split_responseKey {request : Text × Nat} (isTarget : IsTarget request.1) :
    split (responseKey request) ' ' = [request.1, decimal request.2] := by
  have joined : responseKey request =
      request.1 ++ [decimal request.2].flatMap (' ' :: ·) := by
    simp [responseKey]
  rw [joined]
  apply split_words
  intro word member
  rcases List.mem_cons.mp member with rfl | code
  · exact isTarget
  · rw [List.mem_singleton.mp code]
    exact decimal_plain request.2

theorem responseKey_injective {left right : Text × Nat}
    (leftTarget : IsTarget left.1) (rightTarget : IsTarget right.1)
    (same : responseKey left = responseKey right) : left = right := by
  have pieces := congrArg (split · ' ') same
  simp only [split_responseKey leftTarget, split_responseKey rightTarget,
    List.cons.injEq, and_true] at pieces
  exact Prod.ext pieces.1 (decimal_injective pieces.2)

/-! The rows of the request table. -/

/-- A request with the number of times that it was answered. -/
abbrev Row := (Text × Nat) × Nat

def Row.text (row : Row) : Text :=
  tableRow [row.1.1, decimal row.1.2, decimal row.2]

/-- One row for each target and status code, with the number of the requests that
had both. -/
structure Tabulates (rows : List Row) (requests : List (Text × Nat)) : Prop where
  distinct : (rows.map Prod.fst).Nodup
  exact : ∀ request number, (request, number) ∈ rows ↔
    request ∈ requests ∧ occurrences requests request = number

theorem condense_eq_foldl (handledRequests : TreeMap Text (List Nat) compare) :
    condense handledRequests =
      ((flatten handledRequests).map responseKey).foldl tallyOne ∅ := by
  rw [condense, flatten, List.foldl_map, List.foldl_flatMap]
  simp only [List.foldl_map]

theorem Recorded.condense_counts {statics : Statics}
    {requests : List (Text × Nat)} (recorded : Recorded statics requests) :
    Counts (condense statics.handledRequests) (requests.map responseKey) := by
  have counted : Counts (condense statics.handledRequests)
      ((flatten statics.handledRequests).map responseKey) := by
    rw [condense_eq_foldl]
    exact counts_foldl counts_empty _
  exact counted.perm (recorded.grouped.flatten_perm.map responseKey)

theorem occurrences_responseKey {requests : List (Text × Nat)}
    (targets : ∀ request ∈ requests, IsTarget request.1)
    {request : Text × Nat} (isTarget : IsTarget request.1) :
    occurrences (requests.map responseKey) (responseKey request) =
      occurrences requests request := by
  rw [occurrences, occurrences, List.countP_map]
  apply List.countP_congr
  intro other member
  have same_iff : responseKey other = responseKey request ↔ other = request :=
    ⟨responseKey_injective (targets other member) isTarget,
      congrArg responseKey⟩
  simpa using same_iff

theorem exists_map_eq {Item Image : Type} {image : Item → Image}
    {good : Item → Prop} {images : List Image}
    (each : ∀ value ∈ images, ∃ item, good item ∧ image item = value) :
    ∃ items : List Item, items.map image = images ∧ ∀ item ∈ items, good item := by
  induction images with
  | nil => exact ⟨[], rfl, nofun⟩
  | cons value images induction =>
      obtain ⟨item, isGood, rfl⟩ := each value List.mem_cons_self
      obtain ⟨items, rfl, areGood⟩ := induction fun other member =>
        each other (List.mem_cons_of_mem _ member)
      exact ⟨item :: items, rfl, List.forall_mem_cons.mpr ⟨isGood, areGood⟩⟩

theorem Recorded.rows {statics : Statics} {requests : List (Text × Nat)}
    (recorded : Recorded statics requests) :
    ∃ rows : List Row,
      (rows.map fun row => (responseKey row.1, row.2)) =
        (condense statics.handledRequests).toList ∧
      Tabulates rows requests := by
  have counted := recorded.condense_counts
  obtain ⟨rows, entries, isRow⟩ : ∃ rows : List Row,
      (rows.map fun row => (responseKey row.1, row.2)) =
        (condense statics.handledRequests).toList ∧
      ∀ row ∈ rows, row.1 ∈ requests ∧ occurrences requests row.1 = row.2 := by
    apply exists_map_eq
    rintro ⟨key, number⟩ entry
    obtain ⟨member, numbered⟩ := (counted.mem_toList key number).mp entry
    obtain ⟨request, listed, rfl⟩ := List.mem_map.mp member
    rw [occurrences_responseKey recorded.targets (recorded.targets _ listed)]
      at numbered
    exact ⟨(request, number), ⟨listed, numbered⟩, rfl⟩
  refine ⟨rows, entries, ?_, ?_⟩
  · have keysNodup : (condense statics.handledRequests).keys.Nodup :=
      TreeMap.nodup_keys
    rw [← TreeMap.map_fst_toList_eq_keys, ← entries, List.map_map] at keysNodup
    have through : (rows.map Prod.fst).map responseKey =
        rows.map (Prod.fst ∘ fun row => (responseKey row.1, row.2)) := by
      rw [List.map_map]
      rfl
    rw [← through] at keysNodup
    exact keysNodup.of_map
  · intro request number
    constructor
    · exact isRow (request, number)
    · rintro ⟨listed, rfl⟩
      have entry := (counted.mem_toList (responseKey request) _).mpr
        ⟨List.mem_map.mpr ⟨request, listed, rfl⟩, rfl⟩
      rw [← entries] at entry
      obtain ⟨⟨other, otherNumber⟩, member, equal⟩ := List.mem_map.mp entry
      obtain ⟨otherListed, numbered⟩ := isRow _ member
      have same := responseKey_injective (recorded.targets _ otherListed)
        (recorded.targets _ listed) (congrArg Prod.fst equal)
      cases same
      exact numbered ▸ member

theorem requestRow_responseKey {request : Text × Nat}
    (isTarget : IsTarget request.1) (number : Nat) :
    requestRow (responseKey request, number) =
      some (Row.text (request, number)) := by
  have joined : responseKey request ++ " ".toList ++ decimal number =
      request.1 ++
        [decimal request.2, decimal number].flatMap (' ' :: ·) := by
    simp [responseKey]
  have pieces : split (responseKey request ++ " ".toList ++ decimal number) ' ' =
      [request.1, decimal request.2, decimal number] := by
    rw [joined]
    apply split_words
    intro word member
    simp only [List.mem_cons, List.not_mem_nil, or_false] at member
    rcases member with rfl | rfl | rfl
    · exact isTarget
    · exact decimal_plain request.2
    · exact decimal_plain number
  rw [requestRow]
  dsimp only
  rw [pieces]
  rfl

theorem requestInfo_rows {rows : List Row}
    (targets : ∀ row ∈ rows, IsTarget row.1.1) :
    requestInfo (rows.map fun row => (responseKey row.1, row.2)) =
      some (rows.flatMap Row.text) := by
  induction rows with
  | nil => rfl
  | cons row rows induction =>
      obtain ⟨target, rest⟩ := List.forall_mem_cons.mp targets
      rw [List.map_cons, requestInfo, requestRow_responseKey target,
        induction rest, List.flatMap_cons]
      rfl

/-- The handler of the object is the one whose page this is. -/
def RunsStatusHandler {Request : Type} (world : World Request)
    (handlerInfo : TreeMap Text Text compare) : Prop :=
  ∀ statics request, world.handleRequest .statusHandler statics request =
    handleStatusRequest statics handlerInfo

theorem Recorded.page {statics : Statics} {requests : List (Text × Nat)}
    (recorded : Recorded statics requests)
    (handlerInfo : TreeMap Text Text compare) :
    ∃ rows : List Row,
      handleStatusRequest statics handlerInfo =
        some ⟨200, statusPage statics.requestCount (rows.flatMap Row.text)
          handlerInfo⟩ ∧
      Tabulates rows requests ∧
      (rows.map Prod.snd).sum = statics.requestCount := by
  obtain ⟨rows, entries, tabulates⟩ := recorded.rows
  have targets : ∀ row ∈ rows, IsTarget row.1.1 := by
    intro row member
    exact recorded.targets _ ((tabulates.exact row.1 row.2).mp member).1
  refine ⟨rows, ?_, tabulates, ?_⟩
  · rw [handleStatusRequest, ← entries, requestInfo_rows targets]
    rfl
  · have total := recorded.condense_counts.sum
    rw [← entries, List.map_map, List.length_map] at total
    rw [recorded.count, ← total]
    rfl

/-- After any run of answered requests the counters agree, and the page of a
request to the status handler has one row for each target and status code of the
run, with their exact number. -/
theorem statusPage_run {requests : List (Text × Nat)} {statics : Statics}
    (run : Run SendsResponse noRequests requests statics) :
    statics.requestCount = Statics.storedCodes statics ∧
    ∀ {Request : Type} {dispatcher : Dispatcher} {world : World Request}
      {session : Session} {request : Request} {response : Response}
      {handlerInfo : TreeMap Text Text compare},
      RunsStatusHandler world handlerInfo →
      Served dispatcher world statics session request .statusHandler response →
      ∃ rows : List Row,
        response = ⟨200, statusPage statics.requestCount
          (rows.flatMap Row.text) handlerInfo⟩ ∧
        Tabulates rows requests ∧
        (rows.map Prod.snd).sum = statics.requestCount := by
  have recorded := recorded_run run
  refine ⟨recorded.count.trans recorded.storedCodes.symm, ?_⟩
  intro Request dispatcher world session request response handlerInfo runs served
  obtain ⟨rows, returned, tabulates, sum⟩ := recorded.page handlerInfo
  have handled := served.handled
  rw [runs, returned] at handled
  exact ⟨rows, (Option.some.inj handled).symm, tabulates, sum⟩

/-- Every handler but the status handler answers with 404. -/
def statusWorld (handlerInfo : TreeMap Text Text compare) : World Text where
  put := lineWorld.put
  target := id
  handleRequest handler statics _ :=
    if handler = .statusHandler then handleStatusRequest statics handlerInfo
    else some ⟨404, []⟩
  connected := true

def statusConfig : NginxConfig :=
  .mk [.mk ["location".toList, "/status".toList, "StatusHandler".toList]
    (some (.mk []))]

def statusRequest : Text := "GET /status HTTP/1.1\r\n\r\n".toList

def otherRequest : Text := "GET /b HTTP/1.1\r\n\r\n".toList

/-- One target that is asked for twice, and another. -/
def answeredRequests : List (Text × Nat) :=
  [("/a".toList, 404), ("/b".toList, 404), ("/a".toList, 404)]

theorem statusPage_run_repeated :
    ∃ dispatcher lastInfo statics response rows,
      newDispatcher ∅ statusConfig = .ok (dispatcher, lastInfo) ∧
      Run SendsResponse noRequests answeredRequests statics ∧
      Served dispatcher (statusWorld lastInfo) statics
        (receivedSession statusRequest (by decide))
        "/status".toList .statusHandler response ∧
      response = ⟨200, statusPage statics.requestCount
        (rows.flatMap Row.text) lastInfo⟩ ∧
      Tabulates rows answeredRequests ∧
      (("/a".toList, 404), 2) ∈ rows ∧ (("/b".toList, 404), 1) ∈ rows := by
  have routed : (newDispatcher ∅ statusConfig).map (fun made =>
      ["/a", "/b", "/status"].map fun uri =>
        (made.1.getRequestHandler uri.toList).bind (made.1.objects[·]?)) =
      .ok [some .notFoundHandler, some .notFoundHandler, some .statusHandler] := by
    decide +kernel
  obtain ⟨⟨dispatcher, lastInfo⟩, constructed, found⟩ := Fold.map_ok routed
  obtain ⟨first, rest⟩ := List.cons.inj found
  obtain ⟨other, rest⟩ := List.cons.inj rest
  obtain ⟨status, _⟩ := List.cons.inj rest
  have firstLine : lineWorld.put rootRequest = some "/a".toList := by decide
  have otherLine : lineWorld.put otherRequest = some "/b".toList := by decide
  have statusLine : lineWorld.put statusRequest = some "/status".toList := by
    decide
  have firstServed : ∀ statics, Served dispatcher (statusWorld lastInfo) statics
      (receivedSession rootRequest (by decide)) "/a".toList .notFoundHandler
      ⟨404, []⟩ := fun statics =>
    ⟨⟨rootRequest, receivedSession_text? (by decide) (by decide) (by decide),
      firstLine⟩, Option.bind_eq_some_iff.mp first, rfl⟩
  have otherServed : ∀ statics, Served dispatcher (statusWorld lastInfo) statics
      (receivedSession otherRequest (by decide)) "/b".toList .notFoundHandler
      ⟨404, []⟩ := fun statics =>
    ⟨⟨otherRequest, receivedSession_text? (by decide) (by decide) (by decide),
      otherLine⟩, Option.bind_eq_some_iff.mp other, rfl⟩
  have firstTarget : IsTarget "/a".toList := ⟨by decide, by decide⟩
  have otherTarget : IsTarget "/b".toList := ⟨by decide, by decide⟩
  have run : Run SendsResponse noRequests answeredRequests _ :=
    .cons (.served (firstServed _) firstTarget)
      (.cons (.served (otherServed _) otherTarget)
        (.single (.served (firstServed _) firstTarget)))
  obtain ⟨_, returned, _⟩ := (recorded_run run).page lastInfo
  have served : Served dispatcher (statusWorld lastInfo) _
      (receivedSession statusRequest (by decide)) "/status".toList
      .statusHandler _ :=
    ⟨⟨statusRequest,
      receivedSession_text? (by decide) (by decide) (by decide), statusLine⟩,
      Option.bind_eq_some_iff.mp status, returned⟩
  have runs : RunsStatusHandler (statusWorld lastInfo) lastInfo :=
    fun _ _ => rfl
  obtain ⟨rows, page, tabulates, _⟩ := (statusPage_run run).2 runs served
  exact ⟨dispatcher, lastInfo, _, _, rows, constructed, run, served, page,
    tabulates, (tabulates.exact _ _).mpr ⟨by decide, by decide⟩,
    (tabulates.exact _ _).mpr ⟨by decide, by decide⟩⟩

end HttpsServer.Handlers
