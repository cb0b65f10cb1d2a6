import HttpsServer.Config.Lexing
import HttpsServer.Dispatch.Registration

namespace HttpsServer.Dispatch

open Std
open HttpsServer.Data
open HttpsServer.Config

/-! Which faults the constructors of the handlers can raise on statements that
all have a first token. -/

/-- The faults that reach for a token or a block that is not there. -/
def Fault.leavesConfig : Fault → Bool
  | .tokenIndex | .nullChildBlock => true
  | .charIndex | .substrPosition | .badConfig => false

theorem substr_error {text : Text} {position : Nat} {count : Option Nat}
    {fault : Fault} (failed : substr text position count = .error fault) :
    fault.leavesConfig = false := by
  unfold substr at failed
  split at failed
  · cases count <;> contradiction
  · cases failed
    rfl

theorem removeEndSlash_error {text : Text} {fault : Fault}
    (failed : removeEndSlash text = .error fault) :
    fault.leavesConfig = false := by
  induction text using removeEndSlash.induct with
  | case1 text empty =>
      unfold removeEndSlash at failed
      split at failed
      next =>
        cases failed
        rfl
      next => simp_all
  | case2 text ended induction =>
      apply induction
      unfold removeEndSlash at failed
      split at failed
      next => simp_all
      next last found =>
        rw [ended] at found
        cases found
        rwa [if_pos rfl] at failed
  | case3 text last ended other =>
      unfold removeEndSlash at failed
      split at failed
      next => simp_all
      next last' found =>
        rw [ended] at found
        cases found
        rw [if_neg other] at failed
        contradiction

theorem parseUrl_error {url : Text} {fault : Fault}
    (failed : parseUrl url = .error fault) : fault.leavesConfig = false := by
  rcases Fold.bind_error failed with trimmed | ⟨modifiedUrl, _, failed⟩
  · exact removeEndSlash_error trimmed
  split at failed
  · contradiction
  · rcases Fold.bind_error failed with protocol | ⟨_, _, failed⟩
    · exact substr_error protocol
    rcases Fold.bind_error failed with host | ⟨_, _, failed⟩
    · exact substr_error host
    dsimp only at failed
    split at failed
    · rcases Fold.bind_error failed with path | ⟨_, _, failed⟩
      · exact substr_error path
      · contradiction
    · contradiction

/-- A `host` statement whose URL has a protocol other than the two supported
ones, or is cut up outside of its bounds. -/
def RejectedHost (statement : NginxConfigStatement) : Prop :=
  ∃ url, statement.tokens = ["host".toList, url] ∧
    ∀ components, parseUrl url = .ok components →
      components.protocol ≠ "http".toList ∧
        components.protocol ≠ "https".toList

theorem readFileStatement_ok {statement : NginxConfigStatement}
    (nonempty : statement.tokens ≠ []) (root : Text) :
    ∃ next, readFileStatement root statement = .ok next := by
  obtain ⟨tokens, childBlock⟩ := statement
  match tokens, nonempty with
  | [first], _ => exact ⟨root, if_neg (by simp)⟩
  | [first, second], _ =>
      by_cases isRoot : first = "root".toList
      · exact ⟨second, if_pos ⟨isRoot, rfl⟩⟩
      · exact ⟨root, if_neg fun both => isRoot both.1⟩
  | first :: second :: third :: rest, _ => exact ⟨root, if_neg (by simp)⟩

theorem readProxyStatement_host (target : ProxyTarget) (url : Text)
    (childBlock : Option NginxConfig) :
    readProxyStatement target (.mk ["host".toList, url] childBlock) =
      (parseUrl url).bind fun components =>
        if components.protocol ≠ "http".toList ∧
            components.protocol ≠ "https".toList then
          .error .badConfig
        else
          .ok { target with
            host := components.host, path := components.path } :=
  rfl

theorem readProxyStatement_rejected {statement : NginxConfigStatement}
    (rejected : RejectedHost statement) (target : ProxyTarget) :
    ∃ fault, readProxyStatement target statement = .error fault := by
  obtain ⟨tokens, childBlock⟩ := statement
  obtain ⟨url, rfl, refused⟩ := rejected
  rw [readProxyStatement_host]
  cases parsed : parseUrl url with
  | error fault => exact ⟨fault, rfl⟩
  | ok components => exact ⟨.badConfig, if_pos (refused components parsed)⟩

theorem readProxyStatement_other {statement : NginxConfigStatement}
    (nonempty : statement.tokens ≠ [])
    (other : ∀ url, statement.tokens ≠ ["host".toList, url])
    (target : ProxyTarget) :
    ∃ next, readProxyStatement target statement = .ok next := by
  obtain ⟨tokens, childBlock⟩ := statement
  match tokens, nonempty with
  | [first], _ =>
      have notHost : ¬ (first = "host".toList ∧ [first].length = 2) := by simp
      have notPort : ¬ (first = "port".toList ∧ [first].length = 2) := by simp
      exact ⟨target, (if_neg notHost).trans (if_neg notPort)⟩
  | [first, second], _ =>
      have notHost : ¬ (first = "host".toList ∧ [first, second].length = 2) := by
        rintro ⟨rfl, _⟩
        exact other second rfl
      by_cases isPort : first = "port".toList
      · exact ⟨_, (if_neg notHost).trans (if_pos ⟨isPort, rfl⟩)⟩
      · have notPort : ¬ (first = "port".toList ∧
            [first, second].length = 2) := fun both => isPort both.1
        exact ⟨_, (if_neg notHost).trans (if_neg notPort)⟩
  | first :: second :: third :: rest, _ =>
      have notHost : ¬ (first = "host".toList ∧
          (first :: second :: third :: rest).length = 2) := by simp
      have notPort : ¬ (first = "port".toList ∧
          (first :: second :: third :: rest).length = 2) := by simp
      exact ⟨target, (if_neg notHost).trans (if_neg notPort)⟩

theorem readProxyStatement_cases {statement : NginxConfigStatement}
    (nonempty : statement.tokens ≠ []) (target : ProxyTarget) :
    (∃ next, readProxyStatement target statement = .ok next) ∨
      RejectedHost statement ∧ ∀ fault,
        readProxyStatement target statement = .error fault →
        fault.leavesConfig = false := by
  by_cases isHost : ∃ url, statement.tokens = ["host".toList, url]
  · obtain ⟨tokens, childBlock⟩ := statement
    obtain ⟨url, rfl⟩ := isHost
    rw [readProxyStatement_host]
    cases parsed : parseUrl url with
    | error fault =>
        refine .inr ⟨⟨url, rfl, ?_⟩, ?_⟩
        · intro components found
          rw [parsed] at found
          contradiction
        · intro other failed
          cases failed
          exact parseUrl_error parsed
    | ok components =>
        by_cases refused : components.protocol ≠ "http".toList ∧
            components.protocol ≠ "https".toList
        · refine .inr ⟨⟨url, rfl, ?_⟩, ?_⟩
          · intro other found
            rw [parsed] at found
            cases found
            exact refused
          · intro fault failed
            have stopped := (if_pos refused).symm.trans failed
            cases stopped
            rfl
        · exact .inl ⟨_, if_neg refused⟩
  · exact .inl (readProxyStatement_other nonempty
      (fun url isUrl => isHost ⟨url, isUrl⟩) target)

/-- The constructors do not leave the block, and only that of `ProxyHandler`
can fail on it. -/
theorem newHandler_error {path : Text} {block : NginxConfig} {type : HandlerType}
    {fault : Fault} (tokenized : block.Tokenized)
    (failed : newHandler path block type = .error fault) :
    type = .proxyHandler ∧ fault.leavesConfig = false ∧
      ∃ statement ∈ block.statements, RejectedHost statement := by
  obtain ⟨statements⟩ := block
  have nonempty : ∀ statement ∈ statements, statement.tokens ≠ [] :=
    fun statement member =>
      ((everyStatement_iff _ _).mp tokenized statement member).tokens
  cases type with
  | fileHandler =>
      obtain ⟨before, statement, after, root, position, _, stopped⟩ :=
        Fold.error_iff.mp (Fold.bind_pure_error failed)
      rw [NginxConfig.statements_mk] at position
      obtain ⟨next, read⟩ := readFileStatement_ok
        (nonempty statement (by simp [position])) root
      rw [read] at stopped
      contradiction
  | proxyHandler =>
      obtain ⟨before, statement, after, target, position, _, stopped⟩ :=
        Fold.error_iff.mp (Fold.bind_pure_error failed)
      rw [NginxConfig.statements_mk] at position
      have member : statement ∈ statements := by simp [position]
      rcases readProxyStatement_cases (nonempty statement member) target with
        ⟨next, read⟩ | ⟨rejected, inside⟩
      · rw [read] at stopped
        contradiction
      · exact ⟨rfl, inside fault stopped, statement, member, rejected⟩
  | echoHandler => contradiction
  | notFoundHandler => contradiction
  | statusHandler => contradiction
  | sleepHandler => contradiction
  | healthHandler => contradiction

theorem newHandler_rejected {path : Text} {block : NginxConfig}
    {statement : NginxConfigStatement} (member : statement ∈ block.statements)
    (rejected : RejectedHost statement) :
    ∃ fault, newHandler path block .proxyHandler = .error fault := by
  obtain ⟨before, after, position⟩ := List.append_of_mem member
  cases made : newHandler path block .proxyHandler with
  | error fault => exact ⟨fault, rfl⟩
  | ok handler =>
      cases read : block.statements.foldlM readProxyStatement ⟨[], [], []⟩ with
      | error fault =>
          have stopped : newHandler path block .proxyHandler = .error fault := by
            rw [newHandler, newProxyHandler, read]
            rfl
          rw [made] at stopped
          contradiction
      | ok last =>
          rw [position] at read
          obtain ⟨target, next, _, passed, _⟩ := Fold.split_ok read
          obtain ⟨fault, stopped⟩ := readProxyStatement_rejected rejected target
          rw [passed] at stopped
          contradiction

/-! Which configs the dispatcher can be constructed from without leaving them. -/

/-- A proxy location whose handler is about to be made, since its path is not
taken, and whose block has a rejected host. -/
def StopsConstruction (before : List NginxConfigStatement)
    (statement : NginxConfigStatement) : Prop :=
  ∃ path block inner, declared? statement = some (path, .proxyHandler) ∧
    path ∉ candidates before ∧ statement.childBlock = some block ∧
    inner ∈ block.statements ∧ RejectedHost inner

/-- Each location has a block, or comes after one that stops the construction
with an exception. -/
def BlocksPresent (statements : List NginxConfigStatement) : Prop :=
  ∀ before statement after, statements = before ++ statement :: after →
    (location? statement).isSome = true → statement.childBlock = none →
    ∃ earlier stopping later, before = earlier ++ stopping :: later ∧
      StopsConstruction earlier stopping

theorem initStatement_stops {info : TreeMap Text Text compare}
    {before : List NginxConfigStatement} {statement : NginxConfigStatement}
    {counted next : Nat × Registry}
    (prior : registers info before = .ok counted)
    (step : initStatement counted statement = .ok next) :
    ¬ StopsConstruction before statement := by
  rintro ⟨path, block, inner, declares, notTaken, hasBlock, member, rejected⟩
  have fresh : ¬ counted.2.handlers.contains path = true :=
    fun present => notTaken ((registers_contains prior path).mp present)
  rcases initStatement_ok step with
    ⟨_, taken⟩ | ⟨other, type, otherBlock, handler, otherDeclares,
      otherHasBlock, _, made, _⟩
  · exact fresh (taken path _ declares)
  · rw [declares] at otherDeclares
    rw [hasBlock] at otherHasBlock
    cases otherDeclares
    cases otherHasBlock
    obtain ⟨fault, failed⟩ := newHandler_rejected member rejected
    rw [made] at failed
    contradiction

theorem initStatement_noBlock {counted : Nat × Registry}
    {statement : NginxConfigStatement}
    (isLocation : (location? statement).isSome = true)
    (noBlock : statement.childBlock = none) :
    initStatement counted statement = .error .nullChildBlock := by
  obtain ⟨⟨path, handlerType⟩, found⟩ := Option.isSome_iff_exists.mp isLocation
  have nonempty : statement.tokens ≠ [] := by
    intro empty
    rw [location?, empty] at found
    contradiction
  rw [initStatement_eq counted nonempty, found, noBlock]

theorem registers_error_iff {info : TreeMap Text Text compare}
    {statements : List NginxConfigStatement}
    (tokenized : EveryStatement (· ≠ []) statements) :
    (∀ fault, registers info statements = .error fault →
      fault.leavesConfig = false) ↔ BlocksPresent statements := by
  have every := (everyStatement_iff _ _).mp tokenized
  constructor
  · intro safe before statement after position isLocation noBlock
    cases prior : registers info before with
    | ok counted =>
        have failed : registers info statements = .error .nullChildBlock :=
          Fold.error_iff.mpr ⟨before, statement, after, counted, position, prior,
            initStatement_noBlock isLocation noBlock⟩
        have inside := safe _ failed
        contradiction
    | error fault =>
        obtain ⟨earlier, stopping, later, counted, split, earlierRun, stopped⟩ :=
          Fold.error_iff.mp prior
        refine ⟨earlier, stopping, later, split, ?_⟩
        have inside : fault.leavesConfig = false := by
          apply safe
          rw [position]
          exact Fold.append_error prior
        have stoppingEvery := every stopping (by simp [position, split])
        rcases initStatement_error stoppingEvery.tokens stopped with
          ⟨rfl, _⟩ | ⟨path, type, block, declares, hasBlock, fresh, failed⟩
        · contradiction
        · obtain ⟨rfl, _, inner, member, rejected⟩ :=
            newHandler_error (stoppingEvery.childBlock hasBlock) failed
          refine ⟨path, block, inner, declares, ?_, hasBlock, member, rejected⟩
          intro taken
          exact fresh ((registers_contains earlierRun path).mpr taken)
  · intro present fault failed
    obtain ⟨before, statement, after, counted, position, prior, stopped⟩ :=
      Fold.error_iff.mp failed
    have statementEvery := every statement (by simp [position])
    rcases initStatement_error statementEvery.tokens stopped with
      ⟨_, isLocation, noBlock⟩ | ⟨path, type, block, _, hasBlock, _, failed⟩
    · obtain ⟨earlier, stopping, later, rfl, stops⟩ :=
        present before statement after position isLocation noBlock
      obtain ⟨middle, next, earlierRun, step, _⟩ := Fold.split_ok prior
      exact absurd stops (initStatement_stops earlierRun step)
    · exact (newHandler_error (statementEvery.childBlock hasBlock) failed).2.1

theorem newDispatcher_error_iff (info : TreeMap Text Text compare)
    (config : NginxConfig) (fault : Fault) :
    newDispatcher info config = .error fault ↔
      registers info config.statements = .error fault := by
  rw [newDispatcher_eq]
  cases registers info config.statements with
  | error other => exact ⟨fun failed => by cases failed; rfl,
      fun failed => by cases failed; rfl⟩
  | ok counted => exact ⟨nofun, nofun⟩

/-- From an accepted config the construction reads only tokens and blocks that
are there exactly when no location without a block is reached. -/
theorem newDispatcher_leavesConfig_iff (info : TreeMap Text Text compare)
    {input : Text} {config : NginxConfig}
    (accepted : parse input (.mk []) = .returned true config) :
    (∀ fault, newDispatcher info config = .error fault →
      fault.leavesConfig = false) ↔ BlocksPresent config.statements := by
  have tokenized := parse_tokenized accepted
  obtain ⟨statements⟩ := config
  rw [NginxConfig.statements_mk, ← registers_error_iff tokenized]
  refine forall_congr' fun fault => ?_
  rw [newDispatcher_error_iff, NginxConfig.statements_mk]

theorem newDispatcher_leavesConfig_block :
    newDispatcher ∅
        (.mk [.mk ["location".toList, "/a".toList, "EchoHandler".toList]
          (some (.mk []))]) ≠ .error .nullChildBlock := by
  have accepted : parse "location /a EchoHandler \x7b\x7d".toList (.mk []) =
      .returned true
        (.mk [.mk ["location".toList, "/a".toList, "EchoHandler".toList]
          (some (.mk []))]) := rfl
  have present : BlocksPresent
      [.mk ["location".toList, "/a".toList, "EchoHandler".toList]
        (some (.mk []))] := by
    intro before statement after position _ noBlock
    have member : statement ∈ before ++ statement :: after := by simp
    rw [← position, List.mem_singleton] at member
    subst member
    contradiction
  intro failed
  have inside := (newDispatcher_leavesConfig_iff ∅ accepted).mpr present _ failed
  contradiction

/-- A location ended by a semicolon is accepted, and its null block is then
dereferenced. -/
theorem newDispatcher_bareLocation :
    parse "location /a EchoHandler;".toList (.mk []) = .returned true
        (.mk [.mk ["location".toList, "/a".toList, "EchoHandler".toList]
          none]) ∧
      ¬ ∀ fault, newDispatcher ∅
          (.mk [.mk ["location".toList, "/a".toList, "EchoHandler".toList]
            none]) = .error fault →
        fault.leavesConfig = false := by
  refine ⟨rfl, fun safe => ?_⟩
  have inside := safe .nullChildBlock rfl
  contradiction

/-- No statement stops the construction, and each location has a block. -/
def Constructible (statements : List NginxConfigStatement) : Prop :=
  ∀ before statement after, statements = before ++ statement :: after →
    ¬ StopsConstruction before statement ∧
      ((location? statement).isSome = true → statement.childBlock ≠ none)

theorem registers_ok_iff {info : TreeMap Text Text compare}
    {statements : List NginxConfigStatement}
    (tokenized : EveryStatement (· ≠ []) statements) :
    (∃ counted, registers info statements = .ok counted) ↔
      Constructible statements := by
  have every := (everyStatement_iff _ _).mp tokenized
  constructor
  · rintro ⟨counted, run⟩ before statement after rfl
    obtain ⟨middle, next, prior, step, _⟩ := Fold.split_ok run
    refine ⟨initStatement_stops prior step, fun isLocation noBlock => ?_⟩
    rw [initStatement_noBlock isLocation noBlock] at step
    contradiction
  · intro constructible
    cases run : registers info statements with
    | ok counted => exact ⟨counted, rfl⟩
    | error fault =>
        exfalso
        obtain ⟨before, statement, after, counted, position, prior, stopped⟩ :=
          Fold.error_iff.mp run
        obtain ⟨goesOn, hasBlock⟩ :=
          constructible before statement after position
        have statementEvery := every statement (by simp [position])
        rcases initStatement_error statementEvery.tokens stopped with
          ⟨_, isLocation, noBlock⟩ |
            ⟨path, type, block, declares, isBlock, fresh, failed⟩
        · exact hasBlock isLocation noBlock
        · obtain ⟨rfl, _, inner, member, rejected⟩ :=
            newHandler_error (statementEvery.childBlock isBlock) failed
          refine goesOn ⟨path, block, inner, declares, ?_, isBlock, member,
            rejected⟩
          exact fun taken => fresh ((registers_contains prior path).mpr taken)

theorem newDispatcher_ok_iff (info : TreeMap Text Text compare)
    {config : NginxConfig} (tokenized : config.Tokenized) :
    (∃ made, newDispatcher info config = .ok made) ↔
      Constructible config.statements := by
  obtain ⟨statements⟩ := config
  rw [NginxConfig.statements_mk, ← registers_ok_iff tokenized, newDispatcher_eq,
    NginxConfig.statements_mk]
  cases registers info statements with
  | error fault =>
      constructor
      · rintro ⟨made, built⟩
        cases built
      · rintro ⟨counted, run⟩
        cases run
  | ok counted => exact iff_of_true ⟨_, rfl⟩ ⟨_, rfl⟩

end HttpsServer.Dispatch
