import HttpsServer.Dispatch.Registration

namespace HttpsServer.Dispatch

open Std
open HttpsServer.Data
open HttpsServer.Config

/-! What each entry of the finished map points to. -/

/-- `pointer` is the handler that was made for `path`: the 404 handler for the
root, and otherwise the one for the first statement that declares the path. It is
the next object after those of the statements before. -/
inductive HandlerDeclared (info : TreeMap Text Text compare)
    (statements : List NginxConfigStatement) (objects : List RequestHandler) :
    Text → HandlerPtr → Prop
  | root (object : objects[0]? = some .notFoundHandler) :
      HandlerDeclared info statements objects "/".toList 0
  | location {before after : List NginxConfigStatement}
      {statement : NginxConfigStatement} {path : Text} {type : HandlerType}
      {block : NginxConfig} {handler : RequestHandler} {earlier : Nat × Registry}
      (position : statements = before ++ statement :: after)
      (declares : declared? statement = some (path, type))
      (first : path ∉ candidates before)
      (hasBlock : statement.childBlock = some block)
      (registered : registers info before = .ok earlier)
      (made : newHandler path block type = .ok handler)
      (object : objects[earlier.2.objects.length]? = some handler) :
      HandlerDeclared info statements objects path earlier.2.objects.length

theorem getElem?_append {objects : List RequestHandler} {index : Nat}
    {handler : RequestHandler} (more : List RequestHandler)
    (object : objects[index]? = some handler) :
    (objects ++ more)[index]? = some handler := by
  obtain ⟨bound, _⟩ := List.getElem?_eq_some_iff.mp object
  rw [List.getElem?_append_left bound, object]

theorem HandlerDeclared.append {info : TreeMap Text Text compare}
    {statements : List NginxConfigStatement} {objects : List RequestHandler}
    {path : Text} {pointer : HandlerPtr}
    (declared : HandlerDeclared info statements objects path pointer)
    (after : List NginxConfigStatement) (more : List RequestHandler) :
    HandlerDeclared info (statements ++ after) (objects ++ more) path
      pointer := by
  cases declared with
  | root object => exact .root (getElem?_append more object)
  | location position declares first hasBlock registered made object =>
      subst position
      rw [List.append_assoc, List.cons_append]
      exact .location rfl declares first hasBlock registered made
        (getElem?_append more object)

theorem HandlerDeclared.object {info : TreeMap Text Text compare}
    {statements : List NginxConfigStatement} {objects : List RequestHandler}
    {path : Text} {pointer : HandlerPtr}
    (declared : HandlerDeclared info statements objects path pointer) :
    ∃ handler, objects[pointer]? = some handler := by
  cases declared with
  | root object => exact ⟨_, object⟩
  | location _ _ _ _ _ _ object => exact ⟨_, object⟩

theorem registry_set_getElem? (registry : Registry) (path other : Text)
    (handler : RequestHandler) (name : Text) :
    (registry.set path handler name).handlers[other]? =
      if path = other then some registry.objects.length
      else registry.handlers[other]? := by
  rw [Registry.set, TreeMap.getElem?_insert]
  exact if_congr compare_eq_iff_eq rfl rfl

theorem rootRegistry_getElem? {info : TreeMap Text Text compare} {path : Text}
    {pointer : HandlerPtr}
    (found : (rootRegistry info).handlers[path]? = some pointer) :
    path = "/".toList ∧ pointer = 0 := by
  rw [rootRegistry, registry_set_getElem?] at found
  split at found
  next same =>
    cases found
    exact ⟨same.symm, rfl⟩
  next => rw [TreeMap.getElem?_emptyc] at found; contradiction

theorem registers_declared {info : TreeMap Text Text compare}
    {statements : List NginxConfigStatement} {counted : Nat × Registry}
    (run : registers info statements = .ok counted) :
    ∀ path pointer, counted.2.handlers[path]? = some pointer →
      HandlerDeclared info statements counted.2.objects path pointer := by
  refine Fold.preserves (fun done counted =>
    ∀ path pointer, counted.2.handlers[path]? = some pointer →
      HandlerDeclared info done counted.2.objects path pointer) ?_ ?_ run
  · intro path pointer found
    obtain ⟨rfl, rfl⟩ := rootRegistry_getElem? found
    exact .root rfl
  · intro done statement before after registered holds step path pointer found
    rcases initStatement_ok step with
      ⟨rfl, _⟩ | ⟨added, type, block, handler, declares, hasBlock, fresh, made,
        rfl⟩
    · rw [← List.append_nil after.2.objects]
      exact (holds path pointer found).append [statement] []
    · rw [registry_set_getElem?] at found
      split at found
      next same =>
        cases found
        subst same
        refine .location rfl declares ?_ hasBlock registered made ?_
        · intro taken
          exact fresh ((registers_contains registered added).mpr taken)
        · exact List.getElem?_concat_length
      next => exact (holds path pointer found).append [statement] [handler]

/-! The lookup, over the finished map. -/

theorem contains_of_getElem? {Value : Type} {map : TreeMap Text Value compare}
    {path : Text} {value : Value} (entry : map[path]? = some value) :
    map.contains path = true := by
  rw [TreeMap.contains_eq_isSome_getElem?, entry]
  rfl

theorem getRequestHandler_cases (dispatcher : Dispatcher) (uri : Text) :
    (∃ path pointer, dispatcher.getRequestHandler uri = some pointer ∧
      path ≠ [] ∧ dispatcher.handlers[path]? = some pointer ∧
      path <+: popSlashes uri ∧
      ∀ other, dispatcher.handlers.contains other = true →
        other <+: popSlashes uri → other.length ≤ path.length) ∨
    (dispatcher.getRequestHandler uri = none ∧
      ∀ other, dispatcher.handlers.contains other = true →
        other <+: popSlashes uri → other = []) :=
  PrefixMatch.longest_map_cases (popSlashes uri) none dispatcher.handlers some

theorem newDispatcher_registers {info lastInfo : TreeMap Text Text compare}
    {config : NginxConfig} {dispatcher : Dispatcher}
    (constructed : newDispatcher info config = .ok (dispatcher, lastInfo)) :
    ∃ counted, registers info config.statements = .ok counted ∧
      dispatcher.objects = counted.2.objects ∧
      dispatcher.handlers = counted.2.handlers := by
  rw [newDispatcher_eq] at constructed
  cases run : registers info config.statements with
  | error fault => rw [run] at constructed; contradiction
  | ok counted =>
      rw [run] at constructed
      cases constructed
      exact ⟨counted, rfl, rfl, rfl⟩

theorem newDispatcher_contains {info lastInfo : TreeMap Text Text compare}
    {config : NginxConfig} {dispatcher : Dispatcher}
    (constructed : newDispatcher info config = .ok (dispatcher, lastInfo))
    (path : Text) :
    dispatcher.handlers.contains path = true ↔
      path ∈ candidates config.statements := by
  obtain ⟨counted, run, _, handlers⟩ := newDispatcher_registers constructed
  rw [handlers]
  exact registers_contains run path

theorem newDispatcher_declared {info lastInfo : TreeMap Text Text compare}
    {config : NginxConfig} {dispatcher : Dispatcher}
    (constructed : newDispatcher info config = .ok (dispatcher, lastInfo))
    {path : Text} {pointer : HandlerPtr}
    (entry : dispatcher.handlers[path]? = some pointer) :
    HandlerDeclared info config.statements dispatcher.objects path pointer := by
  obtain ⟨counted, run, objects, handlers⟩ := newDispatcher_registers constructed
  rw [objects]
  rw [handlers] at entry
  exact registers_declared run path pointer entry

/-- The lookup ends in a null pointer when no non-empty candidate matches. -/
theorem getRequestHandler_isSome_iff {info lastInfo : TreeMap Text Text compare}
    {config : NginxConfig} {dispatcher : Dispatcher}
    (constructed : newDispatcher info config = .ok (dispatcher, lastInfo))
    (uri : Text) :
    (∃ pointer, dispatcher.getRequestHandler uri = some pointer) ↔
      ∃ path ∈ candidates config.statements,
        path ≠ [] ∧ path <+: popSlashes uri := by
  have contains := newDispatcher_contains constructed
  rcases getRequestHandler_cases dispatcher uri with
    ⟨path, pointer, result, nonempty, entry, isPrefix, _⟩ | ⟨result, unmatched⟩
  · have candidate := (contains path).mp (contains_of_getElem? entry)
    exact iff_of_true ⟨pointer, result⟩ ⟨path, candidate, nonempty, isPrefix⟩
  · refine iff_of_false ?_ ?_
    · rintro ⟨pointer, found⟩
      rw [result] at found
      contradiction
    · rintro ⟨path, candidate, nonempty, isPrefix⟩
      exact nonempty (unmatched path ((contains path).mpr candidate) isPrefix)

theorem getRequestHandler_object {info lastInfo : TreeMap Text Text compare}
    {config : NginxConfig} {dispatcher : Dispatcher}
    (constructed : newDispatcher info config = .ok (dispatcher, lastInfo))
    {uri : Text} {pointer : HandlerPtr}
    (found : dispatcher.getRequestHandler uri = some pointer) :
    ∃ handler, dispatcher.objects[pointer]? = some handler := by
  rcases getRequestHandler_cases dispatcher uri with
    ⟨path, other, result, _, entry, _⟩ | ⟨result, _⟩
  · rw [result] at found
    cases found
    exact (newDispatcher_declared constructed entry).object
  · rw [result] at found
    contradiction

/-- The longest non-empty candidate that is a prefix of the trimmed uri. -/
structure LongestMatch (config : NginxConfig) (uri path : Text) : Prop where
  candidate : path ∈ candidates config.statements
  nonempty : path ≠ []
  isPrefix : path <+: popSlashes uri
  longest : ∀ other ∈ candidates config.statements,
    other <+: popSlashes uri → other.length ≤ path.length

/-- A statement that declares nothing, or a path that the root or a statement
before it has taken. -/
def Ignored (before : List NginxConfigStatement)
    (statement : NginxConfigStatement) : Prop :=
  ∀ path type, declared? statement = some (path, type) →
    path ∈ candidates before

theorem newDispatcher_ignored {info lastInfo : TreeMap Text Text compare}
    {before after : List NginxConfigStatement}
    {statement : NginxConfigStatement} {dispatcher : Dispatcher}
    (constructed : newDispatcher info (.mk (before ++ statement :: after)) =
      .ok (dispatcher, lastInfo))
    (ignored : Ignored before statement) :
    newDispatcher info (.mk (before ++ after)) =
      .ok (dispatcher, lastInfo) := by
  obtain ⟨counted, run, _⟩ := newDispatcher_registers constructed
  obtain ⟨middle, next, prior, step, _⟩ := Fold.split_ok run
  rcases initStatement_ok step with
    ⟨rfl, _⟩ | ⟨path, type, block, handler, declares, _, fresh, _⟩
  · have same : registers info (before ++ statement :: after) =
        registers info (before ++ after) := Fold.drop_item prior step
    rw [← constructed, newDispatcher_eq, newDispatcher_eq,
      NginxConfig.statements_mk, NginxConfig.statements_mk, same]
  · have taken := (registers_contains prior path).mpr (ignored path type declares)
    contradiction

theorem getRequestHandler_longest {info lastInfo : TreeMap Text Text compare}
    {config : NginxConfig} {dispatcher : Dispatcher}
    (constructed : newDispatcher info config = .ok (dispatcher, lastInfo)) :
    (∀ uri path, LongestMatch config uri path →
      ∃ pointer, dispatcher.getRequestHandler uri = some pointer ∧
        HandlerDeclared info config.statements dispatcher.objects path
          pointer) ∧
    (∀ uri, (∀ path ∈ candidates config.statements, path ≠ [] →
        ¬ path <+: popSlashes uri) →
      dispatcher.getRequestHandler uri = none) ∧
    ∀ before statement after,
      config.statements = before ++ statement :: after →
      Ignored before statement →
      newDispatcher info (.mk (before ++ after)) =
        .ok (dispatcher, lastInfo) := by
  have contains := newDispatcher_contains constructed
  refine ⟨?_, ?_, ?_⟩
  · intro uri path longest
    rcases getRequestHandler_cases dispatcher uri with
      ⟨found, pointer, result, nonempty, entry, isPrefix, maximal⟩ |
      ⟨result, unmatched⟩
    · have candidate := (contains found).mp (contains_of_getElem? entry)
      have notShorter :=
        maximal path ((contains path).mpr longest.candidate) longest.isPrefix
      have notLonger :=
        longest.longest found candidate isPrefix
      have same : found = path := PrefixMatch.prefix_unique isPrefix
        longest.isPrefix (Nat.le_antisymm notLonger notShorter)
      subst same
      exact ⟨pointer, result, newDispatcher_declared constructed entry⟩
    · have empty := unmatched path ((contains path).mpr longest.candidate)
        longest.isPrefix
      exact absurd empty longest.nonempty
  · intro uri unmatched
    cases result : dispatcher.getRequestHandler uri with
    | none => rfl
    | some pointer =>
        obtain ⟨path, candidate, nonempty, isPrefix⟩ :=
          (getRequestHandler_isSome_iff constructed uri).mp ⟨pointer, result⟩
        exact absurd isPrefix (unmatched path candidate nonempty)
  · intro before statement after position ignored
    obtain ⟨statements⟩ := config
    rw [NginxConfig.statements_mk] at position
    subst position
    exact newDispatcher_ignored constructed ignored

/-- A location of an unknown type, one that declares `/static`, a duplicate of
it, and one at the root. -/
def routedConfig : NginxConfig :=
  .mk ([("/static", "StaticHandler"), ("/static/", "EchoHandler"),
      ("/static", "404Handler"), ("/", "SleepHandler")].map
    fun (path, type) =>
      .mk ["location".toList, path.toList, type.toList] (some (.mk [])))

theorem getRequestHandler_longest_routed :
    ∃ dispatcher lastInfo pointer,
      newDispatcher ∅ routedConfig = .ok (dispatcher, lastInfo) ∧
      dispatcher.getRequestHandler "/static/a/".toList = some pointer ∧
      HandlerDeclared ∅ routedConfig.statements dispatcher.objects
        "/static".toList pointer := by
  have completes : (newDispatcher ∅ routedConfig).isOk = true := by
    decide +kernel
  cases constructed : newDispatcher ∅ routedConfig with
  | error fault => rw [constructed] at completes; contradiction
  | ok constructedValue =>
      obtain ⟨dispatcher, lastInfo⟩ := constructedValue
      have longest : LongestMatch routedConfig "/static/a/".toList
          "/static".toList := by
        constructor <;> decide +kernel
      obtain ⟨pointer, result, declared⟩ :=
        (getRequestHandler_longest constructed).1 _ _ longest
      exact ⟨dispatcher, lastInfo, pointer, rfl, result, declared⟩

theorem routed_of_map
    {made : Except Fault (Dispatcher × TreeMap Text Text compare)}
    {uri : Text} {handler : RequestHandler}
    (routed : made.map (fun made =>
        (made.1.getRequestHandler uri).bind (made.1.objects[·]?)) =
      .ok (some handler)) :
    ∃ dispatcher lastInfo, made = .ok (dispatcher, lastInfo) ∧
      ∃ pointer, dispatcher.getRequestHandler uri = some pointer ∧
        dispatcher.objects[pointer]? = some handler := by
  obtain ⟨⟨dispatcher, lastInfo⟩, constructed, found⟩ := Fold.map_ok routed
  exact ⟨dispatcher, lastInfo, constructed, Option.bind_eq_some_iff.mp found⟩

/-! The path that a handler keeps from its construction. -/

/-- The member `prefix`, of the two handlers that have it. -/
def RequestHandler.locationPrefix? : RequestHandler → Option Text
  | .fileHandler locationPrefix _ => some locationPrefix
  | .proxyHandler locationPrefix _ _ _ => some locationPrefix
  | .echoHandler | .notFoundHandler | .statusHandler | .sleepHandler
  | .healthHandler => none

theorem newHandler_locationPrefix {path stored : Text} {block : NginxConfig}
    {type : HandlerType} {handler : RequestHandler}
    (made : newHandler path block type = .ok handler)
    (keeps : handler.locationPrefix? = some stored) : stored = path := by
  cases type with
  | fileHandler =>
      obtain ⟨root, _, built⟩ := Fold.bind_ok made
      cases built
      cases keeps
      rfl
  | proxyHandler =>
      obtain ⟨target, _, built⟩ := Fold.bind_ok made
      cases built
      cases keeps
      rfl
  | echoHandler => cases made; cases keeps
  | notFoundHandler => cases made; cases keeps
  | statusHandler => cases made; cases keeps
  | sleepHandler => cases made; cases keeps
  | healthHandler => cases made; cases keeps

theorem HandlerDeclared.locationPrefix {info : TreeMap Text Text compare}
    {statements : List NginxConfigStatement} {objects : List RequestHandler}
    {path stored : Text} {pointer : HandlerPtr} {handler : RequestHandler}
    (declared : HandlerDeclared info statements objects path pointer)
    (object : objects[pointer]? = some handler)
    (keeps : handler.locationPrefix? = some stored) : stored = path := by
  cases declared with
  | root itself =>
      rw [itself] at object
      cases object
      cases keeps
  | location _ _ _ _ _ made itself =>
      rw [itself] at object
      cases object
      exact newHandler_locationPrefix made keeps

theorem getRequestHandler_locationPrefix
    {info lastInfo : TreeMap Text Text compare} {config : NginxConfig}
    {dispatcher : Dispatcher}
    (constructed : newDispatcher info config = .ok (dispatcher, lastInfo))
    {uri stored : Text} {pointer : HandlerPtr} {handler : RequestHandler}
    (routed : dispatcher.getRequestHandler uri = some pointer)
    (object : dispatcher.objects[pointer]? = some handler)
    (keeps : handler.locationPrefix? = some stored) :
    stored ≠ [] ∧ stored <+: popSlashes uri := by
  rcases getRequestHandler_cases dispatcher uri with
    ⟨path, found, result, nonempty, entry, isPrefix, _⟩ | ⟨result, _⟩
  · rw [result] at routed
    cases routed
    have same := (newDispatcher_declared constructed entry).locationPrefix
      object keeps
    subst same
    exact ⟨nonempty, isPrefix⟩
  · rw [result] at routed
    contradiction

theorem popSlashes_leading (path : Text) : popSlashes path <+: path := by
  induction path using popSlashes.induct with
  | case1 path trailing induction =>
      rw [popSlashes, if_pos trailing]
      exact induction.trans (List.dropLast_prefix path)
  | case2 path trimmed =>
      exact ⟨[], by rw [popSlashes, if_neg trimmed, List.append_nil]⟩

end HttpsServer.Dispatch
