import HttpsServer.Dispatch.ParseUrl

namespace HttpsServer.Handlers

open HttpsServer.Data
open HttpsServer.Dispatch

/-! Requests to other servers, and the redirects that they answer with. -/

/-- The arguments of `issue_outside_request`. -/
structure OutsideRequest where
  host : Text
  port : Text
  target : Text
  deriving DecidableEq

/-- Status code, the two header fields that are looked at, and body. An absent
field reads as the empty text. -/
structure OutsideResponse where
  result : Nat
  location : Text
  contentType : Text
  body : Text
  deriving DecidableEq

def defaultResponse : OutsideResponse :=
  ⟨200, [], [], []⟩

/-- What is read from the other server, by the number of exchanges before; none
when a step of the exchange throws. -/
abbrev Upstream := Nat → OutsideRequest → Option OutsideResponse

/-- The exchange in the try block, which leaves the response as it was constructed
when it throws or the port is neither of the two. -/
def exchange (upstream : Upstream) (hop : Nat) (request : OutsideRequest) :
    OutsideResponse :=
  if request.port = "80".toList then
    (upstream hop request).getD defaultResponse
  else if request.port = "443".toList then
    (upstream hop request).getD defaultResponse
  else defaultResponse

/-- The class of `result()`, which is `unknown` for a code without a name. -/
def isRedirection (result : Nat) : Bool :=
  [300, 301, 302, 303, 304, 305, 307, 308].contains result

/-- The recursion is bounded by fuel only; `none` when it runs out. -/
def issueOutsideRequest (upstream : Upstream) :
    Nat → Nat → OutsideRequest → Option (Except Fault OutsideResponse)
  | 0, _, _ => none
  | fuel + 1, hop, request =>
      let response := exchange upstream hop request
      if isRedirection response.result then
        match parseUrl response.location with
        | .error fault => some (.error fault)
        | .ok urlComponents =>
            if urlComponents.protocol ≠ "http".toList ∧
                urlComponents.protocol ≠ "https".toList then
              some (.ok response)
            else if urlComponents.protocol = "https".toList then
              issueOutsideRequest upstream fuel (hop + 1)
                ⟨urlComponents.host, "443".toList, urlComponents.path⟩
            else
              issueOutsideRequest upstream fuel (hop + 1)
                ⟨urlComponents.host, "80".toList, urlComponents.path⟩
      else some (.ok response)

/-! Redirect chains, as the other servers write them. -/

inductive Scheme where
  | http
  | https

def Scheme.name : Scheme → Text
  | .http => "http".toList
  | .https => "https".toList

def Scheme.port : Scheme → Text
  | .http => "80".toList
  | .https => "443".toList

/-- The location is the URL of the next request, with nothing or the path `/`
behind the host for the root. -/
structure Names (location : Text) (next : OutsideRequest) : Prop where
  written : ∃ (scheme : Scheme) (path : Text),
    location = scheme.name ++ "://".toList ++ (next.host ++ path) ∧
    next.port = scheme.port ∧
    (path = [] ∧ next.target = "/".toList ∨
      (∃ rest, path = '/' :: rest) ∧ next.target = path)
  hostNonempty : next.host ≠ []
  noSlash : '/' ∉ next.host

/-- The server answers a request, after the redirects to these others, with a
response that is no redirect. -/
inductive Serves (serve : OutsideRequest → OutsideResponse) :
    OutsideRequest → List OutsideRequest → OutsideResponse → Prop
  | answered {request : OutsideRequest}
      (final : isRedirection (serve request).result = false) :
      Serves serve request [] (serve request)
  | redirected {request next : OutsideRequest} {hops : List OutsideRequest}
      {final : OutsideResponse}
      (redirects : isRedirection (serve request).result = true)
      (names : Names (serve request).location next)
      (rest : Serves serve next hops final) :
      Serves serve request (next :: hops) final

/-- An upstream without transport failures. -/
abbrev reliable (serve : OutsideRequest → OutsideResponse) : Upstream :=
  fun _ request => some (serve request)

/-- The request that is made in the place of the one a location names. -/
def OutsideRequest.trimmed (request : OutsideRequest) : OutsideRequest :=
  { request with target := popSlashes request.target }

/-- The location is the URL of the request but for slashes at its end. Before a path
the host may be empty. -/
structure Leads (location : Text) (next : OutsideRequest) : Prop where
  written : ∃ (scheme : Scheme) (path : Text) (count : Nat),
    location = scheme.name ++ "://".toList ++ (next.host ++ path) ++
      slashes count ∧
    next.port = scheme.port ∧
    IsUrlPath path ∧ (path = [] → next.host ≠ []) ∧ orRoot path = next.target
  noSlash : '/' ∉ next.host

/-- The same redirects, each without the slashes at the end of its location, come to
this response. -/
inductive ServesTrimmed (serve : OutsideRequest → OutsideResponse) :
    OutsideRequest → OutsideResponse → Prop
  | answered {request : OutsideRequest}
      (final : isRedirection (serve request).result = false) :
      ServesTrimmed serve request (serve request)
  | redirected {request next : OutsideRequest} {final : OutsideResponse}
      (redirects : isRedirection (serve request).result = true)
      (leads : Leads (serve request).location next)
      (rest : ServesTrimmed serve next final) :
      ServesTrimmed serve request final

/-- `issue_outside_request` ends with this response. -/
def Returns (serve : OutsideRequest → OutsideResponse) (start : OutsideRequest)
    (final : OutsideResponse) : Prop :=
  ∃ enough, ∀ fuel ≥ enough,
    issueOutsideRequest (reliable serve) fuel 0 start = some (.ok final)

def OnWebPort (request : OutsideRequest) : Prop :=
  request.port = "80".toList ∨ request.port = "443".toList

theorem exchange_reliable (serve : OutsideRequest → OutsideResponse) (hop : Nat)
    {request : OutsideRequest} (webPort : OnWebPort request) :
    exchange (reliable serve) hop request = serve request := by
  rw [exchange]
  rcases webPort with http | https
  · rw [if_pos http]
    rfl
  · rw [if_pos https, ite_self]
    rfl

theorem Names.onWebPort {location : Text} {next : OutsideRequest}
    (names : Names location next) : OnWebPort next := by
  obtain ⟨scheme, path, _, port, _⟩ := names.written
  cases scheme with
  | http => exact .inl port
  | https => exact .inr port

theorem Leads.onWebPort {location : Text} {next : OutsideRequest}
    (leads : Leads location next) : OnWebPort next := by
  obtain ⟨scheme, _, _, _, port, _⟩ := leads.written
  cases scheme with
  | http => exact .inl port
  | https => exact .inr port

theorem Scheme.name_first (scheme : Scheme) :
    Text.find "://".toList (scheme.name ++ "://".toList) =
      some scheme.name.length := by
  cases scheme with
  | http => rfl
  | https => rfl

/-- A location is taken apart into the request that it leads to. -/
theorem parseUrl_leads_iff {location : Text} {next : OutsideRequest} :
    (∃ scheme : Scheme, next.port = scheme.port ∧
      parseUrl location = .ok ⟨scheme.name, next.host, next.target⟩) ↔
      Leads location next := by
  constructor
  · rintro ⟨scheme, port, parsed⟩
    have known : scheme.name ≠ [] := by cases scheme <;> exact List.cons_ne_nil _ _
    obtain ⟨path, count, written, noSlash, isPath, someHost, target⟩ :=
      parseUrl_written known parsed
    exact ⟨⟨scheme, path, count, written, port, isPath, someHost, target⟩,
      noSlash⟩
  · intro leads
    obtain ⟨scheme, path, count, rfl, port, isPath, someHost, target⟩ :=
      leads.written
    refine ⟨scheme, port, ?_⟩
    rw [← target]
    exact parseUrl_slashes scheme.name_first someHost leads.noSlash isPath count

/-- What the other server names, the code is led to, but for the slashes at the end
of the target. -/
theorem Names.leads {location : Text} {next : OutsideRequest}
    (names : Names location next) : Leads location next.trimmed := by
  obtain ⟨scheme, path, rfl, port, root | ⟨⟨rest, leading⟩, target⟩⟩ :=
    names.written
  · obtain ⟨rfl, target⟩ := root
    refine ⟨⟨scheme, [], 0, (List.append_nil _).symm, port, .inl rfl,
      fun _ => names.hostNonempty, ?_⟩, names.noSlash⟩
    rw [OutsideRequest.trimmed, target]
    exact (popSlashes_root 0).symm
  · obtain ⟨kept, count, split, isPath, same⟩ := urlPath_of_written leading
    refine ⟨⟨scheme, kept, count, ?_, port, isPath,
      fun _ => names.hostNonempty, ?_⟩, names.noSlash⟩
    · rw [split]
      simp only [OutsideRequest.trimmed, List.append_assoc]
    · rw [OutsideRequest.trimmed, target, same]

theorem Scheme.name_known (scheme : Scheme) :
    ¬ (scheme.name ≠ "http".toList ∧ scheme.name ≠ "https".toList) := by
  cases scheme with
  | http => exact fun unknown => unknown.1 rfl
  | https => exact fun unknown => unknown.2 rfl

theorem issueOutsideRequest_redirected
    {serve : OutsideRequest → OutsideResponse} {request next : OutsideRequest}
    (webPort : OnWebPort request)
    (redirects : isRedirection (serve request).result = true)
    (leads : Leads (serve request).location next) (fuel hop : Nat) :
    issueOutsideRequest (reliable serve) (fuel + 1) hop request =
      issueOutsideRequest (reliable serve) fuel (hop + 1) next := by
  obtain ⟨scheme, port, parts⟩ := parseUrl_leads_iff.mpr leads
  obtain ⟨host, _, target⟩ := next
  dsimp only at port parts
  rw [issueOutsideRequest, exchange_reliable serve hop webPort]
  rw [if_pos redirects, parts, port]
  dsimp only
  rw [if_neg scheme.name_known]
  cases scheme with
  | http => exact if_neg (by decide)
  | https => exact if_pos rfl

/-- What is returned at a redirect that leads nowhere is that redirect, if anything
is. -/
theorem issueOutsideRequest_led {serve : OutsideRequest → OutsideResponse}
    {request : OutsideRequest} {final : OutsideResponse} {fuel hop : Nat}
    (webPort : OnWebPort request)
    (redirects : isRedirection (serve request).result = true)
    (answers : isRedirection final.result = false)
    (returned : issueOutsideRequest (reliable serve) fuel hop request =
      some (.ok final)) :
    ∃ next, Leads (serve request).location next := by
  cases fuel with
  | zero => cases returned
  | succ fuel =>
      rw [issueOutsideRequest, exchange_reliable serve hop webPort] at returned
      rw [if_pos redirects] at returned
      cases parsed : parseUrl (serve request).location with
      | error fault =>
          rw [parsed] at returned
          cases returned
      | ok urlComponents =>
          obtain ⟨protocol, host, path⟩ := urlComponents
          rw [parsed] at returned
          by_cases unknown : protocol ≠ "http".toList ∧ protocol ≠ "https".toList
          · dsimp only at returned
            rw [if_pos unknown] at returned
            cases returned
            exact absurd (answers.symm.trans redirects) Bool.false_ne_true
          · by_cases secure : protocol = "https".toList
            · subst secure
              exact ⟨⟨host, _, path⟩,
                parseUrl_leads_iff.mp ⟨.https, rfl, parsed⟩⟩
            · obtain rfl : protocol = "http".toList :=
                Classical.byContradiction fun other => unknown ⟨other, secure⟩
              exact ⟨⟨host, _, path⟩,
                parseUrl_leads_iff.mp ⟨.http, rfl, parsed⟩⟩

theorem issueOutsideRequest_answered
    {serve : OutsideRequest → OutsideResponse} {request : OutsideRequest}
    (webPort : OnWebPort request)
    (final : isRedirection (serve request).result = false) (fuel hop : Nat) :
    issueOutsideRequest (reliable serve) (fuel + 1) hop request =
      some (.ok (serve request)) := by
  rw [issueOutsideRequest, exchange_reliable serve hop webPort]
  rw [final]
  rfl

/-! The code follows the redirects as trimmed. -/

theorem ServesTrimmed.returns {serve : OutsideRequest → OutsideResponse}
    {request : OutsideRequest} {final : OutsideResponse}
    (serves : ServesTrimmed serve request final) (webPort : OnWebPort request) :
    ∃ enough, ∀ fuel ≥ enough, ∀ hop,
      issueOutsideRequest (reliable serve) fuel hop request =
        some (.ok final) := by
  induction serves with
  | answered answers =>
      refine ⟨1, fun fuel enough hop => ?_⟩
      obtain ⟨fuel, rfl⟩ := Nat.exists_eq_add_of_le' enough
      exact issueOutsideRequest_answered webPort answers fuel hop
  | redirected redirects leads _ induction =>
      obtain ⟨enough, returns⟩ := induction leads.onWebPort
      refine ⟨enough + 1, fun fuel more hop => ?_⟩
      obtain ⟨fuel, rfl⟩ := Nat.exists_eq_add_of_le' (Nat.le_of_add_left_le more)
      rw [issueOutsideRequest_redirected webPort redirects leads]
      exact returns fuel (by omega) (hop + 1)

theorem servesTrimmed_of_returned {serve : OutsideRequest → OutsideResponse}
    {request : OutsideRequest} (webPort : OnWebPort request)
    {final : OutsideResponse} (answers : isRedirection final.result = false)
    {fuel hop : Nat}
    (returned : issueOutsideRequest (reliable serve) fuel hop request =
      some (.ok final)) :
    ServesTrimmed serve request final := by
  induction fuel generalizing request hop with
  | zero => cases returned
  | succ fuel induction =>
      cases redirects : isRedirection (serve request).result with
      | false =>
          rw [issueOutsideRequest_answered webPort redirects] at returned
          cases returned
          exact .answered redirects
      | true =>
          obtain ⟨next, leads⟩ :=
            issueOutsideRequest_led webPort redirects answers returned
          rw [issueOutsideRequest_redirected webPort redirects leads] at returned
          exact .redirected redirects leads (induction leads.onWebPort returned)

theorem returns_iff_servesTrimmed {serve : OutsideRequest → OutsideResponse}
    {start : OutsideRequest} (startPort : OnWebPort start)
    {final : OutsideResponse} (answers : isRedirection final.result = false) :
    Returns serve start final ↔ ServesTrimmed serve start final := by
  constructor
  · rintro ⟨enough, returns⟩
    exact servesTrimmed_of_returned startPort answers
      (returns enough (Nat.le_refl _))
  · intro serves
    obtain ⟨enough, returns⟩ := serves.returns startPort
    exact ⟨enough, fun fuel more => returns fuel more 0⟩

/-! The requests of a chain, in their order. -/

theorem Serves.redirects {serve : OutsideRequest → OutsideResponse}
    {start : OutsideRequest} {hops : List OutsideRequest}
    {final : OutsideResponse} (serves : Serves serve start hops final)
    {request next : OutsideRequest} (follows : [request, next] <:+: start :: hops) :
    isRedirection (serve request).result = true ∧
      Names (serve request).location next := by
  induction serves with
  | answered _ =>
      have short := follows.length_le
      simp at short
  | redirected redirects names _ induction =>
      rcases List.infix_cons_iff.mp follows with leading | later
      · rw [List.cons_prefix_cons, List.cons_prefix_cons] at leading
        obtain ⟨rfl, rfl, _⟩ := leading
        exact ⟨redirects, names⟩
      · exact induction later

theorem Serves.last {serve : OutsideRequest → OutsideResponse}
    {start : OutsideRequest} {hops : List OutsideRequest}
    {final : OutsideResponse} (serves : Serves serve start hops final)
    {request : OutsideRequest}
    (isLast : (start :: hops).getLast? = some request) :
    isRedirection (serve request).result = false ∧ serve request = final := by
  induction serves with
  | answered answers =>
      cases isLast
      exact ⟨answers, rfl⟩
  | redirected _ _ _ induction =>
      rw [List.getLast?_cons_cons] at isLast
      exact induction isLast

theorem Serves.isFinal {serve : OutsideRequest → OutsideResponse}
    {start : OutsideRequest} {hops : List OutsideRequest}
    {final : OutsideResponse} (serves : Serves serve start hops final) :
    isRedirection final.result = false := by
  induction serves with
  | answered answers => exact answers
  | redirected _ _ _ induction => exact induction

theorem Serves.onWebPort {serve : OutsideRequest → OutsideResponse}
    {start : OutsideRequest} {hops : List OutsideRequest}
    {final : OutsideResponse} (serves : Serves serve start hops final)
    (startPort : OnWebPort start) :
    ∀ request ∈ start :: hops, OnWebPort request := by
  induction serves with
  | answered _ =>
      intro request member
      rw [List.mem_singleton.mp member]
      exact startPort
  | redirected _ names _ induction =>
      intro request member
      rcases List.mem_cons.mp member with rfl | later
      · exact startPort
      · exact induction names.onWebPort request later

theorem Serves.congr {serve other : OutsideRequest → OutsideResponse}
    {start : OutsideRequest} {hops : List OutsideRequest}
    {final : OutsideResponse} (serves : Serves serve start hops final)
    (same : ∀ request ∈ start :: hops, other request = serve request) :
    Serves other start hops final := by
  induction serves with
  | answered answers =>
      have head := same _ List.mem_cons_self
      rw [← head] at answers ⊢
      exact .answered answers
  | redirected redirects names _ induction =>
      have head := same _ List.mem_cons_self
      rw [← head] at redirects names
      exact .redirected redirects names (induction fun request member =>
        same request (List.mem_cons_of_mem _ member))

theorem last_or_followed {Item : Type} {items : List Item} {item : Item}
    (member : item ∈ items) :
    items.getLast? = some item ∨ ∃ next, [item, next] <:+: items := by
  obtain ⟨before, after, rfl⟩ := List.append_of_mem member
  cases after with
  | nil => exact .inl List.getLast?_concat
  | cons next after => exact .inr ⟨next, before, after, by simp⟩

/-- The requests that are made in the place of those of the chain, each the trimmed
one of the next, are again of the chain, and come to its last. -/
inductive StaysOn (chain : List OutsideRequest) : OutsideRequest → Prop
  | last {request : OutsideRequest}
      (isLast : chain.getLast? = some request) : StaysOn chain request
  | hop {request next : OutsideRequest}
      (follows : [request, next] <:+: chain)
      (rest : StaysOn chain next.trimmed) : StaysOn chain request

theorem staysOn_suffix {chain before after : List OutsideRequest}
    {request : OutsideRequest} (position : chain = before ++ request :: after)
    (trimmed : ∀ next ∈ after, next.trimmed = next) : StaysOn chain request := by
  induction after generalizing before request with
  | nil =>
      subst position
      exact .last List.getLast?_concat
  | cons next after induction =>
      have rest : StaysOn chain next := by
        apply induction
        · rw [position, List.append_cons]
        · exact fun later member => trimmed later (List.mem_cons_of_mem _ member)
      rw [← trimmed next List.mem_cons_self] at rest
      exact .hop ⟨before, after, by rw [position]; simp⟩ rest

theorem staysOn_of_trimmed {start : OutsideRequest} {hops : List OutsideRequest}
    (trimmed : ∀ next ∈ hops, next.trimmed = next) :
    StaysOn (start :: hops) start :=
  staysOn_suffix (List.nil_append _).symm trimmed

theorem StaysOn.servesTrimmed {serve : OutsideRequest → OutsideResponse}
    {start : OutsideRequest} {hops : List OutsideRequest}
    {final : OutsideResponse} (serves : Serves serve start hops final)
    {request : OutsideRequest} (stays : StaysOn (start :: hops) request) :
    ServesTrimmed serve request final := by
  induction stays with
  | last isLast =>
      obtain ⟨answers, rfl⟩ := serves.last isLast
      exact .answered answers
  | hop follows _ induction =>
      obtain ⟨redirects, names⟩ := serves.redirects follows
      exact .redirected redirects names.leads induction

/-! A server that answers everything outside of a chain with something else. -/

def otherResponse (final : OutsideResponse) : OutsideResponse :=
  { defaultResponse with body := 'x' :: final.body }

theorem otherResponse_ne (final : OutsideResponse) :
    otherResponse final ≠ final := by
  intro same
  have lengths := congrArg (List.length ∘ OutsideResponse.body) same
  simp [otherResponse] at lengths

def offChain (chain : List OutsideRequest) (final : OutsideResponse)
    (serve : OutsideRequest → OutsideResponse) (request : OutsideRequest) :
    OutsideResponse :=
  if request ∈ chain then serve request else otherResponse final

theorem offChain_serves {serve : OutsideRequest → OutsideResponse}
    {start : OutsideRequest} {hops : List OutsideRequest}
    {final : OutsideResponse} (serves : Serves serve start hops final) :
    Serves (offChain (start :: hops) final serve) start hops final :=
  serves.congr fun _ member => if_pos member

theorem offChain_not_returned {serve : OutsideRequest → OutsideResponse}
    {start : OutsideRequest} {hops : List OutsideRequest}
    {final : OutsideResponse} (serves : Serves serve start hops final)
    (startPort : OnWebPort start) {request : OutsideRequest}
    (member : request ∈ start :: hops)
    (leaves : ¬ StaysOn (start :: hops) request) (fuel hop : Nat) :
    issueOutsideRequest (reliable (offChain (start :: hops) final serve)) fuel
      hop request ≠ some (.ok final) := by
  have offServes := offChain_serves serves
  have webPort := serves.onWebPort startPort
  induction fuel generalizing request hop with
  | zero => exact nofun
  | succ fuel induction =>
      rcases last_or_followed member with isLast | ⟨next, follows⟩
      · exact absurd (.last isLast) leaves
      obtain ⟨redirects, names⟩ := offServes.redirects follows
      rw [issueOutsideRequest_redirected (webPort request member) redirects
        names.leads]
      by_cases onChain : next.trimmed ∈ start :: hops
      · apply induction onChain
        exact fun stays => leaves (.hop follows stays)
      · cases fuel with
        | zero => exact nofun
        | succ fuel =>
            have nextPort : OnWebPort next.trimmed :=
              webPort next (follows.subset
                (List.mem_cons_of_mem _ List.mem_cons_self))
            have off : offChain (start :: hops) final serve next.trimmed =
                otherResponse final := if_neg onChain
            have answers : isRedirection
                (offChain (start :: hops) final serve next.trimmed).result =
                  false := by
              rw [off]
              rfl
            rw [issueOutsideRequest_answered nextPort answers, off]
            intro same
            exact otherResponse_ne final (Except.ok.inj (Option.some.inj same))

/-- The end of a redirect chain is returned by exactly those servers whose trimmed
redirects come to it as well. They do so whatever else the server answers exactly
when they stay on the chain. -/
theorem issueOutsideRequest_chain_iff {start : OutsideRequest}
    {hops : List OutsideRequest} {final : OutsideResponse}
    (startPort : OnWebPort start)
    (served : ∃ serve, Serves serve start hops final) :
    (∀ serve, Serves serve start hops final →
      (Returns serve start final ↔ ServesTrimmed serve start final)) ∧
    ((∀ serve, Serves serve start hops final → Returns serve start final) ↔
      StaysOn (start :: hops) start) := by
  constructor
  · intro serve serves
    exact returns_iff_servesTrimmed startPort serves.isFinal
  constructor
  · intro follows
    apply Classical.byContradiction
    intro leaves
    obtain ⟨serve, serves⟩ := served
    obtain ⟨enough, returns⟩ := follows _ (offChain_serves serves)
    exact offChain_not_returned serves startPort List.mem_cons_self leaves
      enough 0 (returns enough (Nat.le_refl _))
  · intro stays serve serves
    obtain ⟨enough, returns⟩ := (stays.servesTrimmed serves).returns startPort
    exact ⟨enough, fun fuel more => returns fuel more 0⟩

/-- A server that has moved one target to another URL. -/
def movedServe (target location : Text) (request : OutsideRequest) :
    OutsideResponse :=
  if request.target = target then ⟨301, location, [], []⟩ else defaultResponse

theorem issueOutsideRequest_chain_iff_secure :
    Returns (movedServe "/".toList "https://s/x".toList)
        ⟨"h".toList, "80".toList, "/".toList⟩ defaultResponse ∧
      ServesTrimmed (movedServe "/".toList "https://s/x".toList)
        ⟨"h".toList, "80".toList, "/".toList⟩ defaultResponse := by
  have names : Names "https://s/x".toList
      ⟨"s".toList, "443".toList, "/x".toList⟩ :=
    ⟨⟨.https, "/x".toList, rfl, rfl, .inr ⟨⟨_, rfl⟩, rfl⟩⟩, by decide,
      by decide⟩
  have serves : Serves (movedServe "/".toList "https://s/x".toList)
      ⟨"h".toList, "80".toList, "/".toList⟩
      [⟨"s".toList, "443".toList, "/x".toList⟩] defaultResponse :=
    .redirected rfl names (.answered rfl)
  have stays : StaysOn [⟨"h".toList, "80".toList, "/".toList⟩,
      ⟨"s".toList, "443".toList, "/x".toList⟩]
      ⟨"h".toList, "80".toList, "/".toList⟩ := by
    apply staysOn_of_trimmed
    intro next member
    rw [List.mem_singleton.mp member, OutsideRequest.trimmed,
      popSlashes_plain ⟨'x', rfl, by decide⟩]
  obtain ⟨trims, follows⟩ :=
    issueOutsideRequest_chain_iff (.inl rfl) ⟨_, serves⟩
  have returns := follows.mpr stays _ serves
  exact ⟨returns, (trims _ serves).mp returns⟩

/-- A directory whose URL gets its slash from a redirect is requested without it
again and again. -/
theorem issueOutsideRequest_directory :
    Serves (movedServe "/a".toList "http://h/a/".toList)
        ⟨"h".toList, "80".toList, "/a".toList⟩
        [⟨"h".toList, "80".toList, "/a/".toList⟩] defaultResponse ∧
      ∀ fuel hop, issueOutsideRequest
        (reliable (movedServe "/a".toList "http://h/a/".toList)) fuel hop
          ⟨"h".toList, "80".toList, "/a".toList⟩ = none := by
  have names : Names "http://h/a/".toList
      ⟨"h".toList, "80".toList, "/a/".toList⟩ :=
    ⟨⟨.http, "/a/".toList, rfl, rfl, .inr ⟨⟨_, rfl⟩, rfl⟩⟩, by decide,
      by decide⟩
  refine ⟨.redirected rfl names (.answered rfl), ?_⟩
  have plain : EndsPlain "/a".toList := ⟨'a', rfl, by decide⟩
  have trimmed : popSlashes "/a/".toList = "/a".toList :=
    popSlashes_slashes plain 1
  intro fuel
  induction fuel with
  | zero => exact fun _ => rfl
  | succ fuel induction =>
      intro hop
      rw [issueOutsideRequest_redirected (.inl rfl) rfl names.leads,
        OutsideRequest.trimmed, trimmed]
      exact induction (hop + 1)

end HttpsServer.Handlers
