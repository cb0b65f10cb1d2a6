import HttpsServer.Dispatch.Routing
import HttpsServer.Serve.Session

namespace HttpsServer.Serve

open Std
open HttpsServer.Data
open HttpsServer.Config
open HttpsServer.Dispatch

/-- `get_handler_name`, which reads the static `handler_info` and no member of the
session. -/
def Session.getHandlerName (handlerInfo : TreeMap Text Text compare)
    (uri : Text) : Text :=
  (PrefixMatch.longest (popSlashes uri) [] handlerInfo.toList).2

/-- The dispatchers of servers that are constructed one after the other. -/
def newDispatchers (config : NginxConfig) :
    Nat → TreeMap Text Text compare →
      Except Fault (List Dispatcher × TreeMap Text Text compare)
  | 0, handlerInfo => .ok ([], handlerInfo)
  | count + 1, handlerInfo => do
      let (dispatcher, handlerInfo) ← newDispatcher handlerInfo config
      let (others, handlerInfo) ← newDispatchers config count handlerInfo
      .ok (dispatcher :: others, handlerInfo)

/-- The type that the name in `handler_info` stands for. -/
def handlerType : RequestHandler → HandlerType
  | .fileHandler _ _ => .fileHandler
  | .echoHandler => .echoHandler
  | .notFoundHandler => .notFoundHandler
  | .statusHandler => .statusHandler
  | .proxyHandler _ _ _ _ => .proxyHandler
  | .sleepHandler => .sleepHandler
  | .healthHandler => .healthHandler

theorem newHandler_handlerType {path : Text} {block : NginxConfig}
    {type : HandlerType} {handler : RequestHandler}
    (made : newHandler path block type = .ok handler) :
    handlerType handler = type := by
  cases type with
  | fileHandler =>
      obtain ⟨root, _, built⟩ := Fold.bind_ok made
      cases built
      rfl
  | proxyHandler =>
      obtain ⟨target, _, built⟩ := Fold.bind_ok made
      cases built
      rfl
  | echoHandler => cases made; rfl
  | notFoundHandler => cases made; rfl
  | statusHandler => cases made; rfl
  | sleepHandler => cases made; rfl
  | healthHandler => cases made; rfl

/-! The type that a config gives to a path, by its first declaration. -/

def declaredAt (path : Text) (statement : NginxConfigStatement) :
    Option HandlerType :=
  match declared? statement with
  | some (declared, type) => if declared = path then some type else none
  | none => none

def declaredType (statements : List NginxConfigStatement) (path : Text) :
    Option HandlerType :=
  if path = "/".toList then some .notFoundHandler
  else statements.findSome? (declaredAt path)

theorem declaredAt_of_declared {statement : NginxConfigStatement}
    {declared : Text} {type : HandlerType}
    (declares : declared? statement = some (declared, type)) (path : Text) :
    declaredAt path statement = if declared = path then some type else none := by
  rw [declaredAt, declares]

theorem declaredAt_isSome_iff (path : Text) (statement : NginxConfigStatement) :
    (declaredAt path statement).isSome = true ↔
      path ∈ declaredPaths [statement] := by
  rw [declaredPaths_singleton, Option.mem_toList, declaredAt]
  cases declared? statement with
  | none => simp
  | some found =>
      obtain ⟨declared, type⟩ := found
      rw [Option.map_some]
      by_cases same : declared = path
      · simp [same]
      · simp [same]

theorem declaredType_isSome_iff (statements : List NginxConfigStatement)
    (path : Text) :
    (declaredType statements path).isSome = true ↔
      path ∈ candidates statements := by
  rw [declaredType, candidates, List.mem_cons]
  split
  next root => simp [root]
  next other =>
    rw [or_iff_right other]
    induction statements with
    | nil => simp [declaredPaths]
    | cons statement rest induction =>
        have split_first : declaredPaths (statement :: rest) =
            declaredPaths [statement] ++ declaredPaths rest :=
          List.filterMap_append (l := [statement])
        rw [split_first, List.mem_append, ← induction,
          ← declaredAt_isSome_iff, List.findSome?_cons]
        cases declaredAt path statement <;> simp

theorem declaredType_append (before after : List NginxConfigStatement)
    (path : Text) :
    declaredType (before ++ after) path =
      (declaredType before path).or (after.findSome? (declaredAt path)) := by
  rw [declaredType, declaredType, List.findSome?_append]
  split <;> rfl

theorem declaredType_none {statements : List NginxConfigStatement} {path : Text}
    (undeclared : path ∉ candidates statements) :
    declaredType statements path = none := by
  apply Option.not_isSome_iff_eq_none.mp
  intro declared
  exact undeclared ((declaredType_isSome_iff statements path).mp declared)

theorem declaredType_first {before after : List NginxConfigStatement}
    {statement : NginxConfigStatement} {path : Text} {type : HandlerType}
    (declares : declared? statement = some (path, type))
    (first : path ∉ candidates before) :
    declaredType (before ++ statement :: after) path = some type := by
  rw [declaredType_append, declaredType_none first, List.findSome?_cons,
    declaredAt_of_declared declares, if_pos rfl]
  rfl

theorem declared_handlerType {info : TreeMap Text Text compare}
    {statements : List NginxConfigStatement} {objects : List RequestHandler}
    {path : Text} {pointer : HandlerPtr}
    (declared : HandlerDeclared info statements objects path pointer) :
    ∃ handler, objects[pointer]? = some handler ∧
      declaredType statements path = some (handlerType handler) := by
  cases declared with
  | root object => exact ⟨_, object, if_pos rfl⟩
  | location position declares first hasBlock registered made object =>
      subst position
      rw [declaredType_first declares first, ← newHandler_handlerType made]
      exact ⟨_, object, rfl⟩

/-! The names in `handler_info`. -/

/-- The names of the declared types, over whatever was there before. -/
def Names (statements : List NginxConfigStatement)
    (before after : TreeMap Text Text compare) : Prop :=
  ∀ path : Text, after[path]? =
    ((declaredType statements path).map HandlerType.name).or before[path]?

theorem registry_set_handlerInfo (registry : Registry) (path other : Text)
    (handler : RequestHandler) (name : Text) :
    (registry.set path handler name).handlerInfo[other]? =
      if path = other then some name else registry.handlerInfo[other]? := by
  rw [Registry.set, TreeMap.getElem?_insert]
  exact if_congr compare_eq_iff_eq rfl rfl

theorem names_root (info : TreeMap Text Text compare) :
    Names [] info (rootRegistry info).handlerInfo := by
  intro path
  rw [rootRegistry, registry_set_handlerInfo, declaredType]
  by_cases root : "/".toList = path
  · rw [if_pos root, if_pos root.symm]
    rfl
  · rw [if_neg root, if_neg (Ne.symm root)]
    rfl

theorem registers_names {info : TreeMap Text Text compare}
    {statements : List NginxConfigStatement} {counted : Nat × Registry}
    (run : registers info statements = .ok counted) :
    Names statements info counted.2.handlerInfo := by
  refine Fold.preserves (fun done counted =>
    Names done info counted.2.handlerInfo) (names_root info) ?_ run
  intro done statement before after registered names step path
  rw [declaredType_append]
  rcases initStatement_ok step with
    ⟨rfl, taken⟩ | ⟨added, type, block, handler, declares, _, fresh, _, rfl⟩
  · -- A path that this statement declares has its type from before.
    rw [names path]
    cases declaredBefore : declaredType done path with
    | some type => rfl
    | none =>
        have undeclared : declaredAt path statement = none := by
          apply Option.not_isSome_iff_eq_none.mp
          intro declaresPath
          rw [declaredAt_isSome_iff, declaredPaths_singleton, Option.mem_toList]
            at declaresPath
          obtain ⟨⟨_, type⟩, declares, rfl⟩ :=
            Option.map_eq_some_iff.mp declaresPath
          have candidate := (registers_contains registered _).mp
            (taken _ _ declares)
          rw [← declaredType_isSome_iff, declaredBefore] at candidate
          cases candidate
        rw [List.findSome?_singleton, undeclared]
        rfl
  · rw [registry_set_handlerInfo, List.findSome?_singleton,
      declaredAt_of_declared declares]
    by_cases same : added = path
    · subst same
      have undeclared := declaredType_none fun candidate =>
        fresh ((registers_contains registered added).mpr candidate)
      rw [if_pos rfl, if_pos rfl, undeclared]
      rfl
    · rw [if_neg same, if_neg same, Option.or_none]
      exact names path

theorem newDispatcher_names {info lastInfo : TreeMap Text Text compare}
    {config : NginxConfig} {dispatcher : Dispatcher}
    (constructed : newDispatcher info config = .ok (dispatcher, lastInfo)) :
    Names config.statements info lastInfo := by
  rw [newDispatcher_eq] at constructed
  cases run : registers info config.statements with
  | error fault => rw [run] at constructed; contradiction
  | ok counted =>
      rw [run] at constructed
      cases constructed
      exact registers_names run

theorem newDispatchers_succ {config : NginxConfig} {count : Nat}
    {info lastInfo : TreeMap Text Text compare} {dispatchers : List Dispatcher}
    (constructed : newDispatchers config (count + 1) info =
      .ok (dispatchers, lastInfo)) :
    ∃ dispatcher middleInfo others,
      newDispatcher info config = .ok (dispatcher, middleInfo) ∧
      newDispatchers config count middleInfo = .ok (others, lastInfo) ∧
      dispatchers = dispatcher :: others := by
  obtain ⟨⟨dispatcher, middleInfo⟩, first, constructed⟩ :=
    Fold.bind_ok constructed
  obtain ⟨⟨others, finalInfo⟩, rest, constructed⟩ := Fold.bind_ok constructed
  cases constructed
  exact ⟨dispatcher, middleInfo, others, first, rest, rfl⟩

theorem newDispatchers_names {config : NginxConfig} {count : Nat}
    {info lastInfo : TreeMap Text Text compare} {dispatchers : List Dispatcher}
    (constructed : newDispatchers config (count + 1) info =
      .ok (dispatchers, lastInfo)) :
    Names config.statements info lastInfo := by
  induction count generalizing info dispatchers with
  | zero =>
      obtain ⟨dispatcher, middleInfo, others, first, rest, _⟩ :=
        newDispatchers_succ constructed
      cases rest
      exact newDispatcher_names first
  | succ count induction =>
      obtain ⟨dispatcher, middleInfo, others, first, rest, _⟩ :=
        newDispatchers_succ constructed
      intro path
      rw [induction rest path, newDispatcher_names first path,
        ← Option.or_assoc, Option.or_self]

theorem newDispatchers_mem {config : NginxConfig} {count : Nat}
    {info lastInfo : TreeMap Text Text compare} {dispatchers : List Dispatcher}
    (constructed : newDispatchers config count info =
      .ok (dispatchers, lastInfo))
    {dispatcher : Dispatcher} (member : dispatcher ∈ dispatchers) :
    ∃ before after, newDispatcher before config = .ok (dispatcher, after) := by
  induction count generalizing info dispatchers with
  | zero => cases constructed; cases member
  | succ count induction =>
      obtain ⟨first, middleInfo, others, made, rest, rfl⟩ :=
        newDispatchers_succ constructed
      rcases List.mem_cons.mp member with rfl | member
      · exact ⟨info, middleInfo, made⟩
      · exact induction rest member

/-! The two lookups. -/

theorem getHandlerName_cases (handlerInfo : TreeMap Text Text compare)
    (uri : Text) :
    (∃ path name, Session.getHandlerName handlerInfo uri = name ∧ path ≠ [] ∧
      handlerInfo[path]? = some name ∧ path <+: popSlashes uri ∧
      ∀ other, handlerInfo.contains other = true →
        other <+: popSlashes uri → other.length ≤ path.length) ∨
    (Session.getHandlerName handlerInfo uri = [] ∧
      ∀ other, handlerInfo.contains other = true →
        other <+: popSlashes uri → other = []) := by
  have unchanged : handlerInfo.toList.map (fun entry => (entry.1, id entry.2)) =
      handlerInfo.toList := List.map_id _
  have found := PrefixMatch.longest_map_cases (popSlashes uri) [] handlerInfo id
  rw [unchanged] at found
  exact found

theorem HandlerType.name_nonempty (type : HandlerType) : type.name ≠ [] := by
  cases type <;> exact List.cons_ne_nil _ _

/-- What `get_handler_name` says of the handler that is returned. -/
inductive NamesHandler (dispatcher : Dispatcher) (uri name : Text) : Prop where
  | found {pointer : HandlerPtr} {handler : RequestHandler}
      (returned : dispatcher.getRequestHandler uri = some pointer)
      (object : dispatcher.objects[pointer]? = some handler)
      (named : name = (handlerType handler).name) :
      NamesHandler dispatcher uri name
  | null (returned : dispatcher.getRequestHandler uri = none)
      (named : name = []) : NamesHandler dispatcher uri name

theorem NamesHandler.empty_iff {dispatcher : Dispatcher} {uri name : Text}
    (names : NamesHandler dispatcher uri name) :
    name = [] ↔ dispatcher.getRequestHandler uri = none := by
  cases names with
  | found returned object named =>
      subst named
      rw [returned]
      exact iff_of_false (HandlerType.name_nonempty _) nofun
  | null returned named => exact iff_of_true named returned

theorem getHandlerName_names {config : NginxConfig}
    {before after lastInfo : TreeMap Text Text compare} {dispatcher : Dispatcher}
    (constructed : newDispatcher before config = .ok (dispatcher, after))
    (names : Names config.statements ∅ lastInfo) (uri : Text) :
    NamesHandler dispatcher uri (Session.getHandlerName lastInfo uri) := by
  have entry : ∀ path, lastInfo[path]? =
      (declaredType config.statements path).map HandlerType.name := by
    intro path
    rw [names path, TreeMap.getElem?_emptyc, Option.or_none]
  have sameKeys : ∀ path, lastInfo.contains path = true ↔
      dispatcher.handlers.contains path = true := by
    intro path
    rw [newDispatcher_contains constructed, ← declaredType_isSome_iff,
      TreeMap.contains_eq_isSome_getElem?, entry, Option.isSome_map]
  rcases getRequestHandler_cases dispatcher uri with
    ⟨path, pointer, returned, nonempty, mapped, isPrefix, maximal⟩ |
    ⟨returned, unmatched⟩
  · have present := (sameKeys path).mpr (contains_of_getElem? mapped)
    obtain ⟨handler, object, declared⟩ := declared_handlerType
      (newDispatcher_declared constructed mapped)
    rcases getHandlerName_cases lastInfo uri with
      ⟨infoPath, infoName, result, _, infoMapped, infoPrefix, infoMaximal⟩ |
      ⟨_, infoUnmatched⟩
    · have infoPresent := (sameKeys infoPath).mp (contains_of_getElem? infoMapped)
      have notLonger := maximal infoPath infoPresent infoPrefix
      have notShorter := infoMaximal path present isPrefix
      have same : infoPath = path := PrefixMatch.prefix_unique infoPrefix
        isPrefix (Nat.le_antisymm notLonger notShorter)
      subst same
      rw [entry, declared] at infoMapped
      cases infoMapped
      exact .found returned object result
    · exact absurd (infoUnmatched path present isPrefix) nonempty
  · rcases getHandlerName_cases lastInfo uri with
      ⟨infoPath, infoName, _, infoNonempty, infoMapped, infoPrefix, _⟩ |
      ⟨result, _⟩
    · have infoPresent := (sameKeys infoPath).mp (contains_of_getElem? infoMapped)
      exact absurd (unmatched infoPath infoPresent infoPrefix) infoNonempty
    · exact .null returned result

/-- In a process whose dispatchers are all constructed from one config, the name
that a session finds is the name of the handler that each of them returns, and
empty exactly for the null pointer. -/
theorem getHandlerName_dispatchers {config : NginxConfig} {count : Nat}
    {dispatchers : List Dispatcher} {handlerInfo : TreeMap Text Text compare}
    (constructed : newDispatchers config count ∅ =
      .ok (dispatchers, handlerInfo))
    {dispatcher : Dispatcher} (member : dispatcher ∈ dispatchers) (uri : Text) :
    NamesHandler dispatcher uri (Session.getHandlerName handlerInfo uri) ∧
      (Session.getHandlerName handlerInfo uri = [] ↔
        dispatcher.getRequestHandler uri = none) := by
  obtain ⟨before, after, made⟩ := newDispatchers_mem constructed member
  cases count with
  | zero => cases constructed; cases member
  | succ count =>
      have names := getHandlerName_names made (newDispatchers_names constructed)
        uri
      exact ⟨names, names.empty_iff⟩

theorem getHandlerName_dispatchers_routed :
    ∃ http https handlerInfo,
      newDispatchers routedConfig 2 ∅ = .ok ([http, https], handlerInfo) ∧
      Session.getHandlerName handlerInfo "/static/a/".toList =
        "EchoHandler".toList ∧
      (https.getRequestHandler "/static/a/".toList).bind (https.objects[·]?) =
        some .echoHandler ∧
      NamesHandler https "/static/a/".toList
        (Session.getHandlerName handlerInfo "/static/a/".toList) ∧
      (Session.getHandlerName handlerInfo "/static/a/".toList = [] ↔
        https.getRequestHandler "/static/a/".toList = none) := by
  have evaluated : (newDispatchers routedConfig 2 ∅).map (fun made =>
        (Session.getHandlerName made.2 "/static/a/".toList,
          made.1.map fun dispatcher =>
            (dispatcher.getRequestHandler "/static/a/".toList).bind
              (dispatcher.objects[·]?))) =
      .ok ("EchoHandler".toList, [some .echoHandler, some .echoHandler]) := by
    decide +kernel
  obtain ⟨⟨dispatchers, handlerInfo⟩, constructed, found⟩ :=
    Fold.map_ok evaluated
  obtain ⟨name, handlers⟩ := Prod.mk.inj found
  obtain ⟨http, rest, rfl, _, others⟩ := List.map_eq_cons_iff.mp handlers
  obtain ⟨https, rest, rfl, object, none_left⟩ := List.map_eq_cons_iff.mp others
  obtain rfl := List.map_eq_nil_iff.mp none_left
  exact ⟨http, https, handlerInfo, constructed, name, object,
    getHandlerName_dispatchers constructed
      (List.mem_cons_of_mem _ List.mem_cons_self) _⟩

end HttpsServer.Serve
