import HttpsServer.Data.Fold
import HttpsServer.Dispatch.Dispatcher

namespace HttpsServer.Dispatch

open Std
open HttpsServer.Data
open HttpsServer.Config

/-! What a statement of the config asks for, and what one step of the
registration loop does about it. -/

/-- The second and third token of a statement with at least three tokens, the
first of which is `location`. -/
def location? (statement : NginxConfigStatement) : Option (Text × Text) :=
  match statement.tokens with
  | first :: path :: handlerType :: _ =>
      if first = "location".toList then some (path, handlerType) else none
  | _ => none

/-- The normalised path of a location and its type, where that is known. -/
def declared? (statement : NginxConfigStatement) : Option (Text × HandlerType) :=
  match location? statement with
  | some (path, handlerType) =>
      (handlerType? handlerType).map fun type => (popSlashes path, type)
  | none => none

theorem tokenAt_eq {statement : NginxConfigStatement} {index : Nat}
    {token : Text} (present : statement.tokens[index]? = some token) :
    tokenAt statement index = .ok token := by
  rw [tokenAt, present]

theorem listen_ne_location : "listen".toList ≠ "location".toList := by
  decide

theorem initStatement_empty (counted : Nat × Registry)
    {statement : NginxConfigStatement} (empty : statement.tokens = []) :
    initStatement counted statement = .error .tokenIndex := by
  have missing : tokenAt statement 0 = .error .tokenIndex := by
    rw [tokenAt, empty, List.getElem?_nil]
  have malformed : isMalformed statement = .error .tokenIndex := by
    have short : statement.tokens.length < 3 := by
      rw [empty]
      decide
    rw [isMalformed, if_pos short, missing]
    rfl
  rw [initStatement, malformed]
  rfl

theorem initStatement_malformed (counted : Nat × Registry)
    {statement : NginxConfigStatement}
    (checked : isMalformed statement = .ok true) :
    initStatement counted statement = .ok counted := by
  rw [initStatement, checked]
  rfl

theorem initStatement_notLocation (counted : Nat × Registry)
    {statement : NginxConfigStatement} {first : Text}
    (checked : isMalformed statement = .ok false)
    (head : tokenAt statement 0 = .ok first)
    (other : first ≠ "location".toList) :
    initStatement counted statement = .ok counted := by
  rw [initStatement, checked, head]
  exact if_pos other

/-- Whatever has fewer than three tokens, or a first token other than
`location`, is passed over by one of the two format checks. -/
theorem initStatement_other (counted : Nat × Registry)
    {statement : NginxConfigStatement} {first : Text}
    (head : statement.tokens[0]? = some first)
    (other : statement.tokens.length < 3 ∨ first ≠ "location".toList) :
    initStatement counted statement = .ok counted := by
  have token := tokenAt_eq head
  by_cases short : statement.tokens.length < 3
  · have checked : isMalformed statement =
        .ok (decide (first ≠ "listen".toList)) := by
      rw [isMalformed, if_pos short, token]
      rfl
    by_cases listen : first = "listen".toList
    · -- The first check lets a short `listen` statement through.
      rw [decide_eq_false (not_not_intro listen)] at checked
      exact initStatement_notLocation counted checked token
        (listen ▸ listen_ne_location)
    · rw [decide_eq_true listen] at checked
      exact initStatement_malformed counted checked
  · have checked : isMalformed statement = .ok false := by
      rw [isMalformed, if_neg short]
    exact initStatement_notLocation counted checked token
      (other.resolve_left short)

theorem initStatement_location (counted : Nat × Registry)
    {path handlerType : Text} {rest : List Text}
    (childBlock : Option NginxConfig) :
    initStatement counted
        (.mk ("location".toList :: path :: handlerType :: rest) childBlock) =
      match childBlock with
      | none => .error .nullChildBlock
      | some childBlock =>
          (addHandler counted.2 childBlock path handlerType).map fun result =>
            (if result.1 then counted.1 + 1 else counted.1, result.2) := by
  cases childBlock with
  | none => rfl
  | some block =>
      change (addHandler counted.2 block path handlerType).bind _ =
        (addHandler counted.2 block path handlerType).map _
      cases addHandler counted.2 block path handlerType <;> rfl

theorem location?_cons (path handlerType : Text) (rest : List Text)
    (childBlock : Option NginxConfig) :
    location?
        (.mk ("location".toList :: path :: handlerType :: rest) childBlock) =
      some (path, handlerType) := by
  unfold location?
  exact if_pos rfl

theorem initStatement_eq (counted : Nat × Registry)
    {statement : NginxConfigStatement} (nonempty : statement.tokens ≠ []) :
    initStatement counted statement =
      match location? statement with
      | none => .ok counted
      | some (path, handlerType) =>
          match statement.childBlock with
          | none => .error .nullChildBlock
          | some childBlock =>
              (addHandler counted.2 childBlock path handlerType).map
                fun result =>
                  (if result.1 then counted.1 + 1 else counted.1, result.2) := by
  obtain ⟨tokens, childBlock⟩ := statement
  match tokens, nonempty with
  | [first], _ => exact initStatement_other counted rfl (.inl (by simp))
  | [first, second], _ => exact initStatement_other counted rfl (.inl (by simp))
  | first :: path :: handlerType :: rest, _ =>
      by_cases isLocation : first = "location".toList
      · subst isLocation
        rw [initStatement_location, location?_cons]
        rfl
      · rw [initStatement_other counted rfl (.inr isLocation)]
        have notLocation : location?
            (.mk (first :: path :: handlerType :: rest) childBlock) = none := by
          unfold location?
          exact if_neg isLocation
        rw [notLocation]

theorem addHandler_known {registry : Registry} {path handlerType : Text}
    (config : NginxConfig)
    (known : registry.handlers.contains (popSlashes path) = true) :
    addHandler registry config path handlerType = .ok (false, registry) :=
  if_pos known

theorem addHandler_unknownType {registry : Registry} {path handlerType : Text}
    (config : NginxConfig) (unknown : handlerType? handlerType = none) :
    addHandler registry config path handlerType = .ok (false, registry) := by
  unfold addHandler
  dsimp only
  rw [unknown]
  split <;> rfl

theorem addHandler_new {registry : Registry} {path handlerType : Text}
    {type : HandlerType} (config : NginxConfig)
    (fresh : ¬ registry.handlers.contains (popSlashes path) = true)
    (hasType : handlerType? handlerType = some type) :
    addHandler registry config path handlerType =
      (newHandler (popSlashes path) config type).map fun handler =>
        (true, registry.set (popSlashes path) handler type.name) := by
  unfold addHandler
  dsimp only
  rw [if_neg fresh, hasType]
  dsimp only
  cases newHandler (popSlashes path) config type <;> rfl

/-- A step on a statement with a token leaves the maps alone, since the statement
declares nothing or a path that is taken, or stops at a location without a block,
or is up to the constructor of the handler that it adds. -/
theorem initStatement_cases (before : Nat × Registry)
    {statement : NginxConfigStatement} (nonempty : statement.tokens ≠ []) :
    (initStatement before statement = .ok before ∧
      ∀ path type, declared? statement = some (path, type) →
        before.2.handlers.contains path = true) ∨
    (initStatement before statement = .error .nullChildBlock ∧
      (location? statement).isSome = true ∧ statement.childBlock = none) ∨
    ∃ path type block, declared? statement = some (path, type) ∧
      statement.childBlock = some block ∧
      ¬ before.2.handlers.contains path = true ∧
      initStatement before statement =
        (newHandler path block type).map fun handler =>
          (before.1 + 1, before.2.set path handler type.name) := by
  rw [initStatement_eq before nonempty]
  unfold declared?
  cases location? statement with
  | none => exact .inl ⟨rfl, nofun⟩
  | some location =>
      obtain ⟨path, handlerType⟩ := location
      cases statement.childBlock with
      | none => exact .inr (.inl ⟨rfl, rfl, rfl⟩)
      | some block =>
          dsimp only
          cases hasType : handlerType? handlerType with
          | none =>
              rw [addHandler_unknownType block hasType]
              exact .inl ⟨rfl, nofun⟩
          | some type =>
              by_cases known :
                  before.2.handlers.contains (popSlashes path) = true
              · rw [addHandler_known block known]
                refine .inl ⟨rfl, ?_⟩
                intro other otherType declared
                cases declared
                exact known
              · rw [addHandler_new block known hasType]
                refine .inr (.inr ⟨_, type, block, rfl, rfl, known, ?_⟩)
                cases newHandler (popSlashes path) block type <;> rfl

theorem initStatement_ok {before after : Nat × Registry}
    {statement : NginxConfigStatement}
    (step : initStatement before statement = .ok after) :
    (after = before ∧ ∀ path type, declared? statement = some (path, type) →
      before.2.handlers.contains path = true) ∨
    ∃ path type block handler, declared? statement = some (path, type) ∧
      statement.childBlock = some block ∧
      ¬ before.2.handlers.contains path = true ∧
      newHandler path block type = .ok handler ∧
      after = (before.1 + 1, before.2.set path handler type.name) := by
  have nonempty : statement.tokens ≠ [] := by
    intro empty
    rw [initStatement_empty before empty] at step
    contradiction
  rcases initStatement_cases before nonempty with
    ⟨kept, taken⟩ | ⟨stopped, _⟩ |
    ⟨path, type, block, declared, hasBlock, fresh, added⟩
  · rw [kept] at step
    cases step
    exact .inl ⟨rfl, taken⟩
  · rw [stopped] at step
    contradiction
  · rw [added] at step
    cases made : newHandler path block type with
    | error fault => rw [made] at step; contradiction
    | ok handler =>
        rw [made] at step
        cases step
        exact .inr ⟨path, type, block, handler, declared, hasBlock, fresh, made,
          rfl⟩

theorem initStatement_error {before : Nat × Registry}
    {statement : NginxConfigStatement} {fault : Fault}
    (nonempty : statement.tokens ≠ [])
    (step : initStatement before statement = .error fault) :
    (fault = .nullChildBlock ∧ (location? statement).isSome = true ∧
      statement.childBlock = none) ∨
    ∃ path type block, declared? statement = some (path, type) ∧
      statement.childBlock = some block ∧
      ¬ before.2.handlers.contains path = true ∧
      newHandler path block type = .error fault := by
  rcases initStatement_cases before nonempty with
    ⟨kept, _⟩ | ⟨stopped, isLocation, noBlock⟩ |
    ⟨path, type, block, declared, hasBlock, fresh, added⟩
  · rw [kept] at step
    contradiction
  · rw [stopped] at step
    cases step
    exact .inl ⟨rfl, isLocation, noBlock⟩
  · rw [added] at step
    cases made : newHandler path block type with
    | error other =>
        rw [made] at step
        cases step
        exact .inr ⟨path, type, block, declared, hasBlock, fresh, made⟩
    | ok handler => rw [made] at step; contradiction

/-! The paths that the maps hold after the loop. -/

def declaredPaths (statements : List NginxConfigStatement) : List Text :=
  statements.filterMap fun statement => (declared? statement).map Prod.fst

/-- The paths a lookup can end in: the root, and what the statements declare. -/
def candidates (statements : List NginxConfigStatement) : List Text :=
  "/".toList :: declaredPaths statements

theorem candidates_append (before after : List NginxConfigStatement) :
    candidates (before ++ after) = candidates before ++ declaredPaths after := by
  rw [candidates, declaredPaths, List.filterMap_append]
  rfl

theorem declaredPaths_singleton (statement : NginxConfigStatement) :
    declaredPaths [statement] =
      ((declared? statement).map Prod.fst).toList := by
  rw [declaredPaths]
  cases declared : declared? statement <;>
    simp only [List.filterMap_cons, declared] <;> rfl

theorem registry_set_contains (registry : Registry) (path other : Text)
    (handler : RequestHandler) (name : Text) :
    (registry.set path handler name).handlers.contains other = true ↔
      other = path ∨ registry.handlers.contains other = true := by
  rw [Registry.set, TreeMap.contains_insert, Bool.or_eq_true,
    compare_beq_iff_eq, eq_comm]

/-- The registration loop, from the maps with only the root in them. -/
abbrev registers (info : TreeMap Text Text compare)
    (statements : List NginxConfigStatement) : Except Fault (Nat × Registry) :=
  statements.foldlM initStatement (1, rootRegistry info)

theorem newDispatcher_eq (info : TreeMap Text Text compare)
    (config : NginxConfig) :
    newDispatcher info config =
      (registers info config.statements).map fun counted =>
        (⟨counted.2.objects, counted.2.handlers, counted.1⟩,
          counted.2.handlerInfo) := by
  change (registers info config.statements).bind _ =
    (registers info config.statements).map _
  cases registers info config.statements <;> rfl

theorem registers_contains {info : TreeMap Text Text compare}
    {statements : List NginxConfigStatement} {counted : Nat × Registry}
    (run : registers info statements = .ok counted) (path : Text) :
    counted.2.handlers.contains path = true ↔ path ∈ candidates statements := by
  refine Fold.preserves (fun done counted =>
    counted.2.handlers.contains path = true ↔ path ∈ candidates done)
    ?_ ?_ run
  · rw [rootRegistry, registry_set_contains, TreeMap.contains_emptyc]
    simp [candidates, declaredPaths]
  · intro done statement before after _ holds step
    rw [candidates_append, List.mem_append, declaredPaths_singleton,
      Option.mem_toList]
    rcases initStatement_ok step with
      ⟨rfl, taken⟩ | ⟨added, type, block, handler, declared, _, _, _, rfl⟩
    · rw [holds]
      refine ⟨.inl, Or.rec id ?_⟩
      intro declares
      obtain ⟨⟨_, type⟩, declared, rfl⟩ := Option.map_eq_some_iff.mp declares
      exact holds.mp (taken _ _ declared)
    · rw [registry_set_contains, holds, declared, or_comm, eq_comm]
      exact or_congr_right Option.some_inj.symm

end HttpsServer.Dispatch
