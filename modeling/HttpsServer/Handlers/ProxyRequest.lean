import HttpsServer.Dispatch.Routing
import HttpsServer.Handlers.ProxyHandler

namespace HttpsServer.Handlers

open Std
open HttpsServer.Data
open HttpsServer.Config
open HttpsServer.Dispatch

/-! Requests that are passed on to another server. -/

/-- What `substr` leaves of the request's target. -/
def remainder (locationPrefix target : Text) : Except Fault Text :=
  substr target locationPrefix.length none

/-- The target that is passed to `issue_outside_request`. -/
def forwardedTarget (locationPrefix target : Text) : Except Fault Text := do
  let target ← remainder locationPrefix target
  .ok (if target = [] then "/".toList else target)

/-- The content type without its parameters. -/
def cutContentType (response : OutsideResponse) : OutsideResponse :=
  match Text.find ";".toList response.contentType with
  | some contentTypeLoc =>
      { response with contentType := response.contentType.take contentTypeLoc }
  | none => response

/-- `ProxyHandler::handle_request`, with the fuel for the redirects. -/
def handleProxyRequest (upstream : Upstream) (fuel : Nat)
    (locationPrefix host port target : Text) :
    Option (Except Fault OutsideResponse) :=
  match forwardedTarget locationPrefix target with
  | .error fault => some (.error fault)
  | .ok target =>
      (issueOutsideRequest upstream fuel 0 ⟨host, port, target⟩).map
        fun returned => returned.map cutContentType

/-! The target that a routed request is passed on with. -/

theorem remainder_append (locationPrefix rest : Text) :
    remainder locationPrefix (locationPrefix ++ rest) = .ok rest := by
  have inside : locationPrefix.length ≤ (locationPrefix ++ rest).length := by
    rw [List.length_append]
    exact Nat.le_add_right _ _
  rw [remainder, substr_ok inside]
  dsimp only
  rw [List.drop_left]

theorem forwardedTarget_append (locationPrefix rest : Text) :
    forwardedTarget locationPrefix (locationPrefix ++ rest) =
      .ok (if rest = [] then "/".toList else rest) := by
  rw [forwardedTarget, remainder_append]
  rfl

theorem handleProxyRequest_append (upstream : Upstream) (fuel : Nat)
    (locationPrefix host port rest : Text) :
    handleProxyRequest upstream fuel locationPrefix host port
        (locationPrefix ++ rest) =
      (issueOutsideRequest upstream fuel 0
          ⟨host, port, if rest = [] then "/".toList else rest⟩).map
        fun returned => returned.map cutContentType := by
  rw [handleProxyRequest, forwardedTarget_append]

/-- The dispatcher returns a proxy handler with these members. -/
def RoutesToProxy (dispatcher : Dispatcher)
    (uri locationPrefix host path port : Text) : Prop :=
  ∃ pointer, dispatcher.getRequestHandler uri = some pointer ∧
    dispatcher.objects[pointer]? =
      some (.proxyHandler locationPrefix host path port)

section Routed

variable {info lastInfo : TreeMap Text Text compare} {config : NginxConfig}
  {dispatcher : Dispatcher} {uri locationPrefix host path port : Text}

theorem RoutesToProxy.split
    (constructed : newDispatcher info config = .ok (dispatcher, lastInfo))
    (routes : RoutesToProxy dispatcher uri locationPrefix host path port) :
    ∃ rest, locationPrefix ++ rest = uri := by
  obtain ⟨pointer, routed, object⟩ := routes
  have leading :=
    (getRequestHandler_locationPrefix constructed routed object rfl).2
  exact leading.trans (popSlashes_leading uri)

/-- The location's path and the remainder are the whole target again, and the
remainder is what is asked for, in the place of nothing the root. -/
theorem remainder_whole
    (constructed : newDispatcher info config = .ok (dispatcher, lastInfo))
    (routes : RoutesToProxy dispatcher uri locationPrefix host path port) :
    ∃ rest, remainder locationPrefix uri = .ok rest ∧
      locationPrefix ++ rest = uri ∧
      ∀ upstream fuel,
        handleProxyRequest upstream fuel locationPrefix host port uri =
          (issueOutsideRequest upstream fuel 0
              ⟨host, port, if rest = [] then "/".toList else rest⟩).map
            fun returned => returned.map cutContentType := by
  obtain ⟨rest, rfl⟩ := routes.split constructed
  refine ⟨rest, remainder_append locationPrefix rest, rfl, ?_⟩
  intro upstream fuel
  exact handleProxyRequest_append upstream fuel locationPrefix host port rest

/-- A location of a proxy, written with a slash at its end. -/
def proxyConfig : NginxConfig :=
  .mk [.mk ["location".toList, "/proxy/".toList, "ProxyHandler".toList]
    (some (.mk [.mk ["host".toList, "http://www.example.com/".toList] none,
      .mk ["port".toList, "80".toList] none]))]

theorem remainder_whole_slashes :
    ∃ rest, remainder "/proxy".toList "/proxy//".toList = .ok rest ∧
      "/proxy".toList ++ rest = "/proxy//".toList ∧
      ∀ upstream fuel,
        handleProxyRequest upstream fuel "/proxy".toList
            "www.example.com".toList "80".toList "/proxy//".toList =
          (issueOutsideRequest upstream fuel 0 ⟨"www.example.com".toList,
              "80".toList, if rest = [] then "/".toList else rest⟩).map
            fun returned => returned.map cutContentType := by
  have routed : ((newDispatcher ∅ proxyConfig).map fun made =>
      (made.1.getRequestHandler "/proxy//".toList).bind (made.1.objects[·]?)) =
        .ok (some (.proxyHandler "/proxy".toList "www.example.com".toList
          "/".toList "80".toList)) := by
    decide +kernel
  obtain ⟨dispatcher, lastInfo, constructed, routes⟩ :=
    routed_of_map routed
  exact remainder_whole constructed routes

/-- The target that is passed on starts with a slash exactly when the request's
target ends with the location's path or goes on with a slash behind it. -/
theorem forwardedTarget_slash_iff
    (constructed : newDispatcher info config = .ok (dispatcher, lastInfo))
    (routes : RoutesToProxy dispatcher uri locationPrefix host path port) :
    (∃ rest, forwardedTarget locationPrefix uri = .ok ('/' :: rest)) ↔
      uri = locationPrefix ∨ locationPrefix ++ "/".toList <+: uri := by
  obtain ⟨rest, rfl⟩ := routes.split constructed
  rw [forwardedTarget_append, List.prefix_append_right_inj]
  cases rest with
  | nil => exact iff_of_true ⟨[], rfl⟩ (.inl (List.append_nil _))
  | cons first rest =>
      have longer : locationPrefix ++ first :: rest ≠ locationPrefix := by
        intro same
        exact List.cons_ne_nil _ _
          (List.append_cancel_left (same.trans (List.append_nil _).symm))
      rw [if_neg (List.cons_ne_nil _ _), or_iff_right longer]
      change _ ↔ ['/'] <+: first :: rest
      rw [List.cons_prefix_cons]
      constructor
      · rintro ⟨after, same⟩
        cases same
        exact ⟨rfl, List.nil_prefix⟩
      · rintro ⟨rfl, _⟩
        exact ⟨rest, rfl⟩

theorem forwardedTarget_slash_iff_slashes :
    ∃ rest, forwardedTarget "/proxy".toList "/proxy/a".toList =
      .ok ('/' :: rest) := by
  have routed : ((newDispatcher ∅ proxyConfig).map fun made =>
      (made.1.getRequestHandler "/proxy/a".toList).bind (made.1.objects[·]?)) =
        .ok (some (.proxyHandler "/proxy".toList "www.example.com".toList
          "/".toList "80".toList)) := by
    decide +kernel
  obtain ⟨dispatcher, lastInfo, constructed, routes⟩ :=
    routed_of_map routed
  exact (forwardedTarget_slash_iff constructed routes).mpr (.inr ⟨_, rfl⟩)

/-- A query right behind the location is passed on without a slash. -/
theorem forwardedTarget_query :
    ((newDispatcher ∅ proxyConfig).map fun made =>
        (made.1.getRequestHandler "/proxy?a=b".toList).bind
          (made.1.objects[·]?)) =
      .ok (some (.proxyHandler "/proxy".toList "www.example.com".toList
        "/".toList "80".toList)) ∧
    forwardedTarget "/proxy".toList "/proxy?a=b".toList = .ok "?a=b".toList ∧
    ¬ ∃ rest, forwardedTarget "/proxy".toList "/proxy?a=b".toList =
      .ok ('/' :: rest) := by
  refine ⟨by decide +kernel, rfl, ?_⟩
  rintro ⟨rest, forwarded⟩
  cases forwarded

end Routed

end HttpsServer.Handlers
