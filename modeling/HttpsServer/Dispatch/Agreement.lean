import HttpsServer.Dispatch.Routing

namespace HttpsServer.Dispatch

open Std
open HttpsServer.Data
open HttpsServer.Config

/-! Two dispatchers that are made of one config, with the static map as the first
has left it. -/

/-- The loops agree on all but the static map. -/
def Agree (left right : Nat × Registry) : Prop :=
  left.1 = right.1 ∧ left.2.objects = right.2.objects ∧
    left.2.handlers = right.2.handlers

theorem Agree.set {left right : Nat × Registry} (agree : Agree left right)
    (path : Text) (handler : RequestHandler) (name : Text) :
    Agree (left.1 + 1, left.2.set path handler name)
      (right.1 + 1, right.2.set path handler name) := by
  obtain ⟨count, objects, handlers⟩ := agree
  refine ⟨congrArg (· + 1) count, ?_, ?_⟩
  · exact congrArg (· ++ [handler]) objects
  · rw [Registry.set, Registry.set, objects, handlers]

theorem Agree.initStatement {left right after : Nat × Registry}
    {statement : NginxConfigStatement} (agree : Agree left right)
    (step : initStatement left statement = .ok after) :
    ∃ next, initStatement right statement = .ok next ∧ Agree after next := by
  have nonempty : statement.tokens ≠ [] := by
    intro empty
    rw [initStatement_empty left empty] at step
    contradiction
  have handlers := agree.2.2
  rcases initStatement_ok step with
    ⟨rfl, taken⟩ | ⟨path, type, block, handler, declares, hasBlock, fresh, made,
      rfl⟩
  · rcases initStatement_cases right nonempty with
      ⟨kept, _⟩ | ⟨_, isLocation, noBlock⟩ | ⟨path, type, _, declares, _, fresh, _⟩
    · exact ⟨right, kept, agree⟩
    · obtain ⟨location, isLocation⟩ := Option.isSome_iff_exists.mp isLocation
      rw [initStatement_eq after nonempty, isLocation, noBlock] at step
      contradiction
    · rw [← handlers] at fresh
      exact absurd (taken path type declares) fresh
  · rcases initStatement_cases right nonempty with
      ⟨_, taken⟩ | ⟨_, _, noBlock⟩ | ⟨_, _, _, otherDeclares, otherBlock, _, added⟩
    · rw [handlers] at fresh
      exact absurd (taken path type declares) fresh
    · rw [hasBlock] at noBlock
      contradiction
    · rw [declares] at otherDeclares
      rw [hasBlock] at otherBlock
      cases otherDeclares
      cases otherBlock
      rw [made] at added
      exact ⟨_, added, agree.set path handler type.name⟩

/-- The dispatcher does not depend on the static map that its constructor finds. -/
theorem newDispatcher_agree {info lastInfo : TreeMap Text Text compare}
    {config : NginxConfig} {dispatcher : Dispatcher}
    (constructed : newDispatcher info config = .ok (dispatcher, lastInfo))
    (other : TreeMap Text Text compare) :
    ∃ otherInfo, newDispatcher other config = .ok (dispatcher, otherInfo) := by
  rw [newDispatcher_eq] at constructed
  obtain ⟨counted, run, made⟩ := Fold.map_ok constructed
  have initial : Agree (1, rootRegistry info) (1, rootRegistry other) :=
    ⟨rfl, rfl, rfl⟩
  obtain ⟨next, otherRun, count, objects, handlers⟩ :=
    Fold.simulates run initial fun _ _ _ _ agree step =>
      agree.initStatement step
  change registers other config.statements = .ok next at otherRun
  refine ⟨next.2.handlerInfo, ?_⟩
  rw [newDispatcher_eq, otherRun]
  cases made
  rw [count, objects, handlers]
  rfl

/-! The handler that a target comes to is determined by the config. -/

theorem LongestMatch.unique {config : NginxConfig} {uri left right : Text}
    (leftLongest : LongestMatch config uri left)
    (rightLongest : LongestMatch config uri right) : left = right := by
  have atMost := rightLongest.longest left leftLongest.candidate
    leftLongest.isPrefix
  have atLeast := leftLongest.longest right rightLongest.candidate
    rightLongest.isPrefix
  exact PrefixMatch.prefix_unique leftLongest.isPrefix rightLongest.isPrefix
    (Nat.le_antisymm atMost atLeast)

theorem declares_candidate {statement : NginxConfigStatement}
    {before : List NginxConfigStatement} {path : Text} {type : HandlerType}
    (member : statement ∈ before)
    (declares : declared? statement = some (path, type)) :
    path ∈ candidates before := by
  apply List.mem_cons_of_mem
  rw [declaredPaths, List.mem_filterMap]
  exact ⟨statement, member, by rw [declares]; rfl⟩

/-- There is one first statement that declares a path. -/
theorem first_unique {before otherBefore after otherAfter :
      List NginxConfigStatement} {statement other : NginxConfigStatement}
    {path : Text} {type otherType : HandlerType}
    (same : before ++ statement :: after =
      otherBefore ++ other :: otherAfter)
    (declares : declared? statement = some (path, type))
    (otherDeclares : declared? other = some (path, otherType))
    (first : path ∉ candidates before)
    (otherFirst : path ∉ candidates otherBefore) : before = otherBefore := by
  rcases List.append_eq_append_iff.mp same with
    ⟨middle, rfl, rest⟩ | ⟨middle, rfl, rest⟩
  · cases middle with
    | nil => exact (List.append_nil _).symm
    | cons head middle =>
        cases rest
        have member : statement ∈ before ++ statement :: middle :=
          List.mem_append_right _ List.mem_cons_self
        exact absurd (declares_candidate member declares) otherFirst
  · cases middle with
    | nil => exact List.append_nil _
    | cons head middle =>
        cases rest
        have member : other ∈ otherBefore ++ other :: middle :=
          List.mem_append_right _ List.mem_cons_self
        exact absurd (declares_candidate member otherDeclares) first

theorem HandlerDeclared.unique {info : TreeMap Text Text compare}
    {statements : List NginxConfigStatement} {objects : List RequestHandler}
    {path : Text} {left right : HandlerPtr}
    (leftDeclared : HandlerDeclared info statements objects path left)
    (rightDeclared : HandlerDeclared info statements objects path right) :
    left = right := by
  cases leftDeclared with
  | root =>
      cases rightDeclared with
      | root => rfl
      | location _ _ first => exact absurd List.mem_cons_self first
  | location position declares first _ registered =>
      cases rightDeclared with
      | root => exact absurd List.mem_cons_self first
      | location also otherDeclares otherFirst _ otherRegistered =>
          obtain rfl := first_unique (position.symm.trans also) declares
            otherDeclares first otherFirst
          cases registered.symm.trans otherRegistered
          rfl

end HttpsServer.Dispatch
