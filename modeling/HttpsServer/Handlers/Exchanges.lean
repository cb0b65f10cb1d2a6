import HttpsServer.Handlers.ProxyHandler

namespace HttpsServer.Handlers

open HttpsServer.Data
open HttpsServer.Dispatch

/-! The exchanges that one call of `issue_outside_request` makes. -/

/-- The calls in the try block that throw when they fail, up to the one that reads
the response. A later one finds the response already read. -/
inductive ExchangeStep where
  | resolve
  | connect
  | handshake
  | write
  | read
  deriving DecidableEq

/-- The two branches of the try block, and neither of them. -/
def stepsOf (port : Text) : List ExchangeStep :=
  if port = "80".toList then [.resolve, .connect, .write, .read]
  else if port = "443".toList then
    [.resolve, .connect, .handshake, .write, .read]
  else []

/-- Which steps fail, and what is answered where none does, by the number of
exchanges before. -/
structure Network where
  fails : Nat → OutsideRequest → ExchangeStep → Bool
  answer : Nat → OutsideRequest → OutsideResponse

def Network.upstream (network : Network) : Upstream := fun hop request =>
  if (stepsOf request.port).any (network.fails hop request) then none
  else some (network.answer hop request)

/-- The exchange is made, and the response is read. -/
def Network.Completes (network : Network) (hop : Nat) (request : OutsideRequest) :
    Prop :=
  stepsOf request.port ≠ [] ∧
    ∀ step ∈ stepsOf request.port, network.fails hop request step = false

/-- The request of the recursive call, if there is one. -/
def nextRequest (upstream : Upstream) (hop : Nat) (request : OutsideRequest) :
    Option OutsideRequest :=
  let response := exchange upstream hop request
  if isRedirection response.result then
    match parseUrl response.location with
    | .error _ => none
    | .ok url =>
        if url.protocol = "https".toList then
          some ⟨url.host, "443".toList, url.path⟩
        else if url.protocol = "http".toList then
          some ⟨url.host, "80".toList, url.path⟩
        else none
  else none

/-- The request of each exchange, along the redirects. -/
def issued (upstream : Upstream) (start : OutsideRequest) :
    Nat → Option OutsideRequest
  | 0 => some start
  | hop + 1 => (issued upstream start hop).bind (nextRequest upstream hop)

/-! One exchange. -/

theorem exchange_of_completes {network : Network} {hop : Nat}
    {request : OutsideRequest} (completes : network.Completes hop request) :
    exchange network.upstream hop request = network.answer hop request := by
  have answered : network.upstream hop request =
      some (network.answer hop request) := by
    rw [Network.upstream, if_neg]
    rw [List.any_eq_true]
    rintro ⟨step, member, failed⟩
    rw [completes.2 step member] at failed
    contradiction
  have attempted := completes.1
  rw [exchange, answered]
  unfold stepsOf at attempted
  split
  next => rfl
  next notHttp =>
    rw [if_neg notHttp] at attempted
    split
    next => rfl
    next notHttps =>
      rw [if_neg notHttps] at attempted
      exact absurd rfl attempted

theorem exchange_of_not_completes {network : Network} {hop : Nat}
    {request : OutsideRequest} (fails : ¬ network.Completes hop request) :
    exchange network.upstream hop request = defaultResponse := by
  by_cases attempted : stepsOf request.port = []
  · unfold stepsOf at attempted
    rw [exchange]
    split
    next http => rw [if_pos http] at attempted; contradiction
    next notHttp =>
      rw [if_neg notHttp] at attempted
      split
      next https => rw [if_pos https] at attempted; contradiction
      next => rfl
  · have failed : network.upstream hop request = none := by
      rw [Network.upstream, if_pos]
      apply Classical.byContradiction
      intro none_failed
      refine fails ⟨attempted, fun step member => ?_⟩
      apply eq_false_of_ne_true
      intro stepFails
      exact none_failed (List.any_eq_true.mpr ⟨step, member, stepFails⟩)
    rw [exchange, failed]
    simp

theorem issueOutsideRequest_next {upstream : Upstream} {hop : Nat}
    {request next : OutsideRequest}
    (follows : nextRequest upstream hop request = some next) (fuel : Nat) :
    issueOutsideRequest upstream (fuel + 1) hop request =
      issueOutsideRequest upstream fuel (hop + 1) next := by
  rw [issueOutsideRequest]
  unfold nextRequest at follows
  dsimp only at follows ⊢
  split at follows
  next redirects =>
    rw [if_pos redirects]
    cases parsed : parseUrl (exchange upstream hop request).location with
    | error fault =>
        rw [parsed] at follows
        contradiction
    | ok url =>
        rw [parsed] at follows
        dsimp only at follows ⊢
        split at follows
        next https =>
          cases follows
          rw [if_neg fun unknown => unknown.2 https, if_pos https]
        next notHttps =>
          split at follows
          next http =>
            cases follows
            rw [if_neg fun unknown => unknown.1 http, if_neg notHttps]
          next => contradiction
  next => contradiction

theorem issueOutsideRequest_answer {upstream : Upstream} {hop : Nat}
    {request : OutsideRequest}
    (answers : isRedirection (exchange upstream hop request).result = false)
    (fuel : Nat) :
    issueOutsideRequest upstream (fuel + 1) hop request =
      some (.ok (exchange upstream hop request)) := by
  rw [issueOutsideRequest, answers]
  rfl

theorem issueOutsideRequest_last {upstream : Upstream} {hop fuel : Nat}
    {request : OutsideRequest} {response : OutsideResponse}
    (ends : nextRequest upstream hop request = none)
    (returned : issueOutsideRequest upstream (fuel + 1) hop request =
      some (.ok response)) :
    exchange upstream hop request = response := by
  rw [issueOutsideRequest] at returned
  unfold nextRequest at ends
  dsimp only at returned ends
  split at returned
  next redirects =>
    rw [if_pos redirects] at ends
    split at returned
    next => cases returned
    next url parsed =>
      rw [parsed] at ends
      dsimp only at ends
      split at returned
      next => cases returned; rfl
      next known =>
        split at returned
        next https => rw [if_pos https] at ends; contradiction
        next notHttps =>
          rw [if_neg notHttps] at ends
          split at ends
          next => contradiction
          next notHttp => exact absurd ⟨notHttp, notHttps⟩ known
  next => cases returned; rfl

theorem nextRequest_answer {upstream : Upstream} {hop : Nat}
    {request : OutsideRequest}
    (answers : isRedirection (exchange upstream hop request).result = false) :
    nextRequest upstream hop request = none := by
  rw [nextRequest, answers]
  rfl

/-! The exchanges of one call, one after the other. -/

theorem issueOutsideRequest_issued {upstream : Upstream}
    {start request : OutsideRequest} {hop : Nat}
    (reached : issued upstream start hop = some request) (fuel : Nat) :
    issueOutsideRequest upstream (fuel + hop) 0 start =
      issueOutsideRequest upstream fuel hop request := by
  induction hop generalizing request fuel with
  | zero =>
      cases reached
      rfl
  | succ hop induction =>
      obtain ⟨before, reachedBefore, follows⟩ :=
        Option.bind_eq_some_iff.mp reached
      rw [← Nat.add_assoc, Nat.add_right_comm, induction reachedBefore,
        issueOutsideRequest_next follows]

theorem returned_exchange {upstream : Upstream} {start request : OutsideRequest}
    {fuel hop : Nat} {response : OutsideResponse}
    (reached : issued upstream start hop = some request)
    (returned : issueOutsideRequest upstream fuel hop request =
      some (.ok response)) :
    ∃ last final, issued upstream start last = some final ∧
      exchange upstream last final = response := by
  induction fuel generalizing hop request with
  | zero => cases returned
  | succ fuel induction =>
      cases follows : nextRequest upstream hop request with
      | none =>
          exact ⟨hop, request, reached, issueOutsideRequest_last follows returned⟩
      | some next =>
          rw [issueOutsideRequest_next follows] at returned
          have reachedNext : issued upstream start (hop + 1) = some next := by
            rw [issued, reached]
            exact follows
          exact induction reachedNext returned

theorem issued_none {upstream : Upstream} {start request : OutsideRequest}
    {hop : Nat} (reached : issued upstream start hop = some request)
    (ends : nextRequest upstream hop request = none) {later : Nat}
    (behind : hop < later) : issued upstream start later = none := by
  induction later, behind using Nat.le_induction with
  | base =>
      rw [issued, reached]
      exact ends
  | succ later _ induction =>
      rw [issued, induction]
      rfl

/-- Only the last exchange of a call answers with something else than a redirect. -/
theorem answered_last {upstream : Upstream} {start left right : OutsideRequest}
    {leftHop rightHop : Nat}
    (reachedLeft : issued upstream start leftHop = some left)
    (reachedRight : issued upstream start rightHop = some right)
    (endsLeft : nextRequest upstream leftHop left = none)
    (endsRight : nextRequest upstream rightHop right = none) :
    leftHop = rightHop ∧ left = right := by
  have same : leftHop = rightHop := by
    rcases Nat.lt_trichotomy leftHop rightHop with before | same | behind
    · rw [issued_none reachedLeft endsLeft before] at reachedRight
      contradiction
    · exact same
    · rw [issued_none reachedRight endsRight behind] at reachedLeft
      contradiction
  subst same
  rw [reachedLeft] at reachedRight
  exact ⟨rfl, Option.some.inj reachedRight⟩

/-! Success, and where it comes from. -/

def isSuccess (result : Nat) : Bool :=
  200 ≤ result && result < 300

/-- The response was read in an exchange of the call. -/
def Sent (network : Network) (start : OutsideRequest)
    (response : OutsideResponse) : Prop :=
  ∃ hop request, issued network.upstream start hop = some request ∧
    network.Completes hop request ∧ network.answer hop request = response

/-- A call returns success only for a response that was sent exactly when all of
its exchanges are made and none of their steps fails. -/
theorem returned_success_sent_iff (network : Network) (start : OutsideRequest) :
    (∀ fuel response,
      issueOutsideRequest network.upstream fuel 0 start = some (.ok response) →
      isSuccess response.result = true → Sent network start response) ↔
    ∀ hop request, issued network.upstream start hop = some request →
      network.Completes hop request := by
  constructor
  · intro successSent hop request reached
    apply Classical.byContradiction
    intro fails
    have left := exchange_of_not_completes fails
    have answers : isRedirection
        (exchange network.upstream hop request).result = false := by
      rw [left]
      rfl
    have returned : issueOutsideRequest network.upstream (1 + hop) 0 start =
        some (.ok defaultResponse) := by
      rw [issueOutsideRequest_issued reached, issueOutsideRequest_answer answers,
        left]
    -- The default response is not sent by an exchange before the failed one.
    obtain ⟨sentHop, sender, reachedSender, completes, sent⟩ :=
      successSent _ _ returned rfl
    have sentLeft := exchange_of_completes completes
    have sentAnswers : isRedirection
        (exchange network.upstream sentHop sender).result = false := by
      rw [sentLeft, sent]
      rfl
    obtain ⟨rfl, rfl⟩ := answered_last reached reachedSender
      (nextRequest_answer answers) (nextRequest_answer sentAnswers)
    exact fails completes
  · intro complete fuel response returned _
    obtain ⟨last, final, reached, left⟩ := returned_exchange rfl returned
    have completes := complete last final reached
    rw [exchange_of_completes completes] at left
    exact ⟨last, final, reached, completes, left⟩

def unresolved : Network where
  fails _ _ step := step = .resolve
  answer _ _ := ⟨502, [], [], []⟩

theorem unresolved_unsent (start : OutsideRequest) :
    ¬ Sent unresolved start defaultResponse := by
  rintro ⟨hop, request, _, _, sent⟩
  have results : 502 = 200 := congrArg OutsideResponse.result sent
  contradiction

/-- A name that is not resolved and a port that is not attempted come back as a
success that nobody has sent. -/
theorem returned_success_unsent :
    (issueOutsideRequest unresolved.upstream 1 0
        ⟨"h".toList, "80".toList, "/".toList⟩ = some (.ok defaultResponse) ∧
      ¬ Sent unresolved ⟨"h".toList, "80".toList, "/".toList⟩ defaultResponse) ∧
    (issueOutsideRequest unresolved.upstream 1 0
        ⟨"h".toList, "8080".toList, "/".toList⟩ = some (.ok defaultResponse) ∧
      ¬ Sent unresolved ⟨"h".toList, "8080".toList, "/".toList⟩
        defaultResponse) ∧
    isSuccess defaultResponse.result = true :=
  ⟨⟨rfl, unresolved_unsent _⟩, ⟨rfl, unresolved_unsent _⟩, rfl⟩

end HttpsServer.Handlers
