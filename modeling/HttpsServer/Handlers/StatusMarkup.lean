import Mathlib.Data.List.Dedup
import HttpsServer.Handlers.StatusHandler

namespace HttpsServer.Handlers

open Std
open HttpsServer.Data
open HttpsServer.Config
open HttpsServer.Dispatch
open HttpsServer.Serve

/-! What the targets of requests add to the markup of the status page. -/

/-- The number of characters that begin a tag. -/
def markup (text : Text) : Nat :=
  text.count '<'

@[simp] theorem markup_append (left right : Text) :
    markup (left ++ right) = markup left + markup right :=
  List.count_append

@[simp] theorem markup_decimal (number : Nat) : markup (decimal number) = 0 :=
  List.count_eq_zero.mpr (not_mem_decimal rfl number)

theorem markup_tableRow (cells : List Text) :
    markup (tableRow cells) = 2 + (2 * cells.length + markup cells.flatten) := by
  have row : ∀ text : Text,
      markup ("<tr>".toList ++ text ++ "</tr>".toList) = 2 + markup text := by
    intro text
    have opening : markup "<tr>".toList = 1 := by decide
    have closing : markup "</tr>".toList = 1 := by decide
    rw [markup_append, markup_append, opening, closing]
    omega
  have cell : ∀ text : Text,
      markup ("<td>".toList ++ text ++ "</td>".toList) = 2 + markup text := by
    intro text
    have opening : markup "<td>".toList = 1 := by decide
    have closing : markup "</td>".toList = 1 := by decide
    rw [markup_append, markup_append, opening, closing]
    omega
  delta tableRow
  rw [row]
  induction cells with
  | nil => rfl
  | cons first rest induction =>
      rw [List.flatMap_cons, markup_append, cell, List.flatten_cons,
        markup_append, List.length_cons]
      omega

theorem markup_row (row : Row) : markup row.text = 8 + markup row.1.1 := by
  rw [Row.text, markup_tableRow]
  simp only [List.length_cons, List.length_nil, List.flatten_cons,
    List.flatten_nil, List.append_nil, markup_append, markup_decimal]
  omega

theorem markup_rows (rows : List Row) :
    markup (rows.flatMap Row.text) =
      8 * rows.length + markup ((rows.map Prod.fst).flatMap Prod.fst) := by
  induction rows with
  | nil => rfl
  | cons row rows induction =>
      rw [List.flatMap_cons, markup_append, markup_row, induction, List.map_cons,
        List.flatMap_cons, markup_append, List.length_cons]
      omega

theorem markup_statusPage (requestCount : Nat) (requestInfo : Text)
    (handlerInfo : TreeMap Text Text compare) :
    markup (statusPage requestCount requestInfo handlerInfo) =
      markup (statusPage 0 [] handlerInfo) + markup requestInfo := by
  have none : markup [] = 0 := rfl
  unfold statusPage
  -- The summand of the rows moves behind the others.
  simp only [markup_append, markup_decimal, none, Nat.add_zero,
    Nat.add_right_comm _ (markup requestInfo)]

theorem Tabulates.perm {rows : List Row} {requests : List (Text × Nat)}
    (tabulates : Tabulates rows requests) :
    (rows.map Prod.fst).Perm requests.dedup := by
  rw [List.perm_ext_iff_of_nodup tabulates.distinct (List.nodup_dedup _)]
  intro request
  rw [List.mem_dedup, List.mem_map]
  constructor
  · rintro ⟨⟨_, number⟩, member, rfl⟩
    exact ((tabulates.exact _ number).mp member).1
  · intro listed
    exact ⟨_, (tabulates.exact request _).mpr ⟨listed, rfl⟩, rfl⟩

def distinctTargets (requests : List (Text × Nat)) : List Text :=
  requests.dedup.map Prod.fst

theorem Recorded.page_markup {statics : Statics} {requests : List (Text × Nat)}
    (recorded : Recorded statics requests)
    (handlerInfo : TreeMap Text Text compare) :
    ∃ page, handleStatusRequest statics handlerInfo = some ⟨200, page⟩ ∧
      markup page = markup (statusPage 0 [] handlerInfo) +
        (8 * requests.dedup.length + markup (distinctTargets requests).flatten) := by
  obtain ⟨rows, page, tabulates, _⟩ := recorded.page handlerInfo
  refine ⟨_, page, ?_⟩
  have targets : markup ((rows.map Prod.fst).flatMap Prod.fst) =
      markup (distinctTargets requests).flatten := by
    rw [distinctTargets, ← List.flatMap_def]
    exact (tabulates.perm.flatMap_right Prod.fst).count_eq '<'
  have length := tabulates.perm.length_eq
  rw [List.length_map] at length
  rw [markup_statusPage, markup_rows, length, targets]

/-- Two pages with the same handlers and equally many distinct pairs have the same
markup exactly when the targets of the pairs have. -/
theorem statusPage_markup_iff {first second : List (Text × Nat)}
    {firstStatics secondStatics : Statics}
    (firstRun : Run SendsResponse noRequests first firstStatics)
    (secondRun : Run SendsResponse noRequests second secondStatics)
    (alike : first.dedup.length = second.dedup.length)
    (handlerInfo : TreeMap Text Text compare) :
    ∃ firstPage secondPage,
      handleStatusRequest firstStatics handlerInfo = some ⟨200, firstPage⟩ ∧
      handleStatusRequest secondStatics handlerInfo = some ⟨200, secondPage⟩ ∧
      (markup firstPage = markup secondPage ↔
        markup (distinctTargets first).flatten =
          markup (distinctTargets second).flatten) := by
  obtain ⟨firstPage, firstReturned, firstMarkup⟩ :=
    (recorded_run firstRun).page_markup handlerInfo
  obtain ⟨secondPage, secondReturned, secondMarkup⟩ :=
    (recorded_run secondRun).page_markup handlerInfo
  refine ⟨firstPage, secondPage, firstReturned, secondReturned, ?_⟩
  rw [firstMarkup, secondMarkup, alike]
  omega

/-! A server with a status handler, before and after a target with a tag. -/

theorem statusAnswer_run {text target : Text} (clean : nul ∉ text)
    (short : text.length < maxLength) (line : lineWorld.put text = some target)
    (routed : (newDispatcher ∅ statusConfig).map (fun made =>
        (made.1.getRequestHandler target).bind (made.1.objects[·]?)) =
      .ok (some .notFoundHandler)) (isTarget : IsTarget target) :
    Run SendsResponse noRequests [(target, 404)] (noRequests.count target 404) := by
  have fits : 0 + text.length ≤ maxLength := by omega
  obtain ⟨dispatcher, lastInfo, _, found⟩ := routed_of_map routed
  have served : Served dispatcher (statusWorld lastInfo) noRequests
      (receivedSession text fits) target .notFoundHandler ⟨404, []⟩ :=
    ⟨⟨text, receivedSession_text? fits clean short, line⟩, found, rfl⟩
  have sent := SendsResponse.served served isTarget
  rw [served.counted] at sent
  exact .single sent

theorem plain_run :
    Run SendsResponse noRequests [("/a".toList, 404)]
      (noRequests.count "/a".toList 404) := by
  have clean : nul ∉ rootRequest := by decide
  exact statusAnswer_run clean (by decide) (by decide) (by decide +kernel)
    ⟨by decide, by decide⟩

def taggedRequest : Text := "GET /<b> HTTP/1.1\r\n\r\n".toList

theorem tagged_run :
    Run SendsResponse noRequests [("/<b>".toList, 404)]
      (noRequests.count "/<b>".toList 404) := by
  have clean : nul ∉ taggedRequest := by decide
  exact statusAnswer_run clean (by decide) (by decide) (by decide +kernel)
    ⟨by decide, by decide⟩

theorem statusConfig_constructed :
    ∃ dispatcher lastInfo,
      newDispatcher ∅ statusConfig = .ok (dispatcher, lastInfo) := by
  have completes : (newDispatcher ∅ statusConfig).isOk = true := by
    decide +kernel
  cases constructed : newDispatcher ∅ statusConfig with
  | error fault => rw [constructed] at completes; contradiction
  | ok made => exact ⟨made.1, made.2, rfl⟩

theorem statusPage_markup_iff_tagged :
    ∃ dispatcher handlerInfo firstPage secondPage,
      newDispatcher ∅ statusConfig = .ok (dispatcher, handlerInfo) ∧
      handleStatusRequest (noRequests.count "/a".toList 404) handlerInfo =
        some ⟨200, firstPage⟩ ∧
      handleStatusRequest (noRequests.count "/<b>".toList 404) handlerInfo =
        some ⟨200, secondPage⟩ ∧
      (markup firstPage = markup secondPage ↔
        markup (distinctTargets [("/a".toList, 404)]).flatten =
          markup (distinctTargets [("/<b>".toList, 404)]).flatten) := by
  obtain ⟨dispatcher, handlerInfo, constructed⟩ := statusConfig_constructed
  obtain ⟨firstPage, secondPage, pages⟩ :=
    statusPage_markup_iff plain_run tagged_run (by decide) handlerInfo
  exact ⟨dispatcher, handlerInfo, firstPage, secondPage, constructed, pages⟩

/-- A target with a tag adds it to the page. -/
theorem statusPage_markup_injected :
    Run SendsResponse noRequests [("/a".toList, 404)]
        (noRequests.count "/a".toList 404) ∧
      Run SendsResponse noRequests [("/<b>".toList, 404)]
        (noRequests.count "/<b>".toList 404) ∧
      [("/a".toList, 404)].dedup.length = [("/<b>".toList, 404)].dedup.length ∧
      ∃ dispatcher handlerInfo firstPage secondPage,
        newDispatcher ∅ statusConfig = .ok (dispatcher, handlerInfo) ∧
        handleStatusRequest (noRequests.count "/a".toList 404) handlerInfo =
          some ⟨200, firstPage⟩ ∧
        handleStatusRequest (noRequests.count "/<b>".toList 404) handlerInfo =
          some ⟨200, secondPage⟩ ∧
        markup secondPage = markup firstPage + 1 := by
  obtain ⟨dispatcher, handlerInfo, constructed⟩ := statusConfig_constructed
  obtain ⟨firstPage, firstReturned, firstMarkup⟩ :=
    (recorded_run plain_run).page_markup handlerInfo
  obtain ⟨secondPage, secondReturned, secondMarkup⟩ :=
    (recorded_run tagged_run).page_markup handlerInfo
  refine ⟨plain_run, tagged_run, by decide, dispatcher, handlerInfo, firstPage,
    secondPage, constructed, firstReturned, secondReturned, ?_⟩
  have plain : 8 * [("/a".toList, 404)].dedup.length +
      markup (distinctTargets [("/a".toList, 404)]).flatten = 8 := by decide
  have tagged : 8 * [("/<b>".toList, 404)].dedup.length +
      markup (distinctTargets [("/<b>".toList, 404)]).flatten = 9 := by decide
  rw [plain] at firstMarkup
  rw [tagged] at secondMarkup
  omega

end HttpsServer.Handlers
