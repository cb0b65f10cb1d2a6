import HttpsServer.Dispatch.Routing

namespace HttpsServer.Dispatch

open Std
open HttpsServer.Data
open HttpsServer.Config

/-! What holds of the dispatcher's map between any two registrations. -/

/-- The count kept next to the map, the map and the objects that its entries
point to. -/
structure Consistent (regnum : Nat) (objects : List RequestHandler)
    (handlers : TreeMap Text HandlerPtr compare) : Prop where
  counted : regnum = handlers.size
  root : handlers["/".toList]? = some 0
  first : objects[0]? = some .notFoundHandler
  trimmed : ∀ path : Text, handlers.contains path = true →
    path = [] ∨ path = "/".toList ∨ path.getLast? ≠ some '/'
  nonnull : ∀ (path : Text) (pointer : HandlerPtr),
    handlers[path]? = some pointer →
    ∃ handler, objects[pointer]? = some handler
  stored : ∀ (path : Text) (pointer : HandlerPtr) (handler : RequestHandler)
    (locationPrefix : Text),
    handlers[path]? = some pointer → objects[pointer]? = some handler →
    handler.locationPrefix? = some locationPrefix → locationPrefix = path

theorem popSlashes_trimmed (path : Text) :
    popSlashes path = [] ∨ popSlashes path = "/".toList ∨
      (popSlashes path).getLast? ≠ some '/' := by
  induction path using popSlashes.induct with
  | case1 path trailing induction =>
      rw [popSlashes, if_pos trailing]
      exact induction
  | case2 path kept =>
      rw [popSlashes, if_neg kept]
      cases path with
      | nil => exact .inl rfl
      | cons first rest =>
          cases rest with
          | nil =>
              by_cases slash : first = '/'
              · subst slash
                exact .inr (.inl rfl)
              · refine .inr (.inr ?_)
                intro trailing
                exact slash (Option.some.inj trailing)
          | cons second rest =>
              refine .inr (.inr ?_)
              intro trailing
              exact kept ⟨Nat.succ_lt_succ (Nat.succ_pos _), trailing⟩

theorem declared?_trimmed {statement : NginxConfigStatement} {path : Text}
    {type : HandlerType} (declares : declared? statement = some (path, type)) :
    path = [] ∨ path = "/".toList ∨ path.getLast? ≠ some '/' := by
  unfold declared? at declares
  cases asked : location? statement with
  | none => rw [asked] at declares; contradiction
  | some location =>
      obtain ⟨raw, handlerType⟩ := location
      rw [asked] at declares
      obtain ⟨known, _, same⟩ := Option.map_eq_some_iff.mp declares
      cases same
      exact popSlashes_trimmed raw

theorem rootRegistry_consistent (info : TreeMap Text Text compare) :
    Consistent 1 (rootRegistry info).objects (rootRegistry info).handlers := by
  constructor
  · rw [rootRegistry, Registry.set, TreeMap.size_insert]
    rfl
  · rw [rootRegistry, registry_set_getElem?, if_pos rfl]
    rfl
  · rfl
  · intro path held
    rw [rootRegistry, registry_set_contains] at held
    rcases held with same | held
    · exact .inr (.inl same)
    · rw [TreeMap.contains_emptyc] at held
      contradiction
  · intro path pointer found
    obtain ⟨_, rfl⟩ := rootRegistry_getElem? found
    exact ⟨_, rfl⟩
  · intro path pointer handler locationPrefix found object keeps
    obtain ⟨_, rfl⟩ := rootRegistry_getElem? found
    cases object
    cases keeps

/-- An object of its own at a path that the map has no entry for. -/
theorem Consistent.set {regnum : Nat} {registry : Registry} {path : Text}
    {handler : RequestHandler}
    (consistent : Consistent regnum registry.objects registry.handlers)
    (fresh : ¬ registry.handlers.contains path = true)
    (trimmed : path = [] ∨ path = "/".toList ∨ path.getLast? ≠ some '/')
    (stored : ∀ locationPrefix,
      handler.locationPrefix? = some locationPrefix → locationPrefix = path)
    (name : Text) :
    Consistent (regnum + 1) (registry.set path handler name).objects
      (registry.set path handler name).handlers := by
  constructor
  · rw [Registry.set, TreeMap.size_insert, if_neg fresh, consistent.counted]
  · have other : path ≠ "/".toList := by
      rintro rfl
      exact fresh (contains_of_getElem? consistent.root)
    rw [registry_set_getElem?, if_neg other]
    exact consistent.root
  · exact getElem?_append [handler] consistent.first
  · intro other held
    rcases (registry_set_contains ..).mp held with rfl | held
    · exact trimmed
    · exact consistent.trimmed other held
  · intro other pointer found
    rw [registry_set_getElem?] at found
    split at found
    next =>
      cases found
      exact ⟨handler, List.getElem?_concat_length⟩
    next =>
      obtain ⟨object, held⟩ := consistent.nonnull other pointer found
      exact ⟨object, getElem?_append [handler] held⟩
  · intro other pointer object locationPrefix found held keeps
    rw [registry_set_getElem?] at found
    split at found
    next same =>
      cases found
      cases List.getElem?_concat_length.symm.trans held
      exact same ▸ stored locationPrefix keeps
    next =>
      -- The object is one of the older ones, since the older map points to it.
      obtain ⟨older, bound⟩ := consistent.nonnull other pointer found
      cases (getElem?_append [handler] bound).symm.trans held
      exact consistent.stored other pointer _ locationPrefix found bound keeps

theorem initStatement_consistent {before after : Nat × Registry}
    {statement : NginxConfigStatement}
    (step : initStatement before statement = .ok after)
    (consistent : Consistent before.1 before.2.objects before.2.handlers) :
    Consistent after.1 after.2.objects after.2.handlers := by
  rcases initStatement_ok step with
    ⟨rfl, _⟩ | ⟨path, type, block, handler, declares, _, fresh, made, rfl⟩
  · exact consistent
  · refine consistent.set fresh (declared?_trimmed declares) ?_ type.name
    intro locationPrefix keeps
    exact newHandler_locationPrefix made keeps

theorem registers_consistent {info : TreeMap Text Text compare}
    {statements : List NginxConfigStatement} {counted : Nat × Registry}
    (run : registers info statements = .ok counted) :
    Consistent counted.1 counted.2.objects counted.2.handlers := by
  refine Fold.preserves (fun _ counted =>
    Consistent counted.1 counted.2.objects counted.2.handlers)
    (rootRegistry_consistent info) ?_ run
  intro done statement before after _ consistent step
  exact initStatement_consistent step consistent

theorem registers_before {info : TreeMap Text Text compare}
    {before after : List NginxConfigStatement} {last : Nat × Registry}
    (run : registers info (before ++ after) = .ok last) :
    ∃ counted, registers info before = .ok counted := by
  rw [registers, List.foldlM_append] at run
  obtain ⟨counted, prior, _⟩ := Fold.bind_ok run
  exact ⟨counted, prior⟩

/-- The finished dispatcher is consistent, and so were the maps before and after
each of its registrations, with the same 404 handler at the root throughout. -/
theorem newDispatcher_consistent {info lastInfo : TreeMap Text Text compare}
    {config : NginxConfig} {dispatcher : Dispatcher}
    (constructed : newDispatcher info config = .ok (dispatcher, lastInfo)) :
    Consistent dispatcher.regnum dispatcher.objects dispatcher.handlers ∧
    ∀ before after, config.statements = before ++ after →
      ∃ counted, registers info before = .ok counted ∧
        Consistent counted.1 counted.2.objects counted.2.handlers := by
  rw [newDispatcher_eq] at constructed
  obtain ⟨last, run, same⟩ := Fold.map_ok constructed
  cases same
  refine ⟨registers_consistent run, ?_⟩
  intro before after position
  rw [position] at run
  obtain ⟨counted, prior⟩ := registers_before run
  exact ⟨counted, prior, registers_consistent prior⟩

/-- Three paths that trim to the root, one of them written so, two spellings of
one path, an unknown type and the empty path. -/
def respelledConfig : NginxConfig :=
  .mk ([("///", "EchoHandler"), ("/static//", "FileHandler"),
      ("/static", "ProxyHandler"), ("/unknown", "Handler"), ("/", "404Handler"),
      ("", "ProxyHandler"), ("//", "FileHandler")].map
    fun (path, type) =>
      .mk ["location".toList, path.toList, type.toList] (some (.mk [])))

theorem newDispatcher_consistent_respelled :
    ∃ dispatcher lastInfo,
      newDispatcher ∅ respelledConfig = .ok (dispatcher, lastInfo) ∧
      dispatcher.regnum = 3 ∧
      Consistent dispatcher.regnum dispatcher.objects dispatcher.handlers := by
  have completes : (newDispatcher ∅ respelledConfig).map (·.1.regnum) =
      .ok 3 := by
    decide +kernel
  obtain ⟨⟨dispatcher, lastInfo⟩, constructed, counted⟩ := Fold.map_ok completes
  exact ⟨dispatcher, lastInfo, constructed, counted,
    (newDispatcher_consistent constructed).1⟩

end HttpsServer.Dispatch
