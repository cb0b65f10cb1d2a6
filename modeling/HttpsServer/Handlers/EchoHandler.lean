import HttpsServer.Data.RequestHead

namespace HttpsServer.Handlers

open HttpsServer.Data
open HttpsServer.Data.RequestHead

/-! Requests that are sent back as text. -/

/-- The field names that the library knows, each with the text it writes for it,
and the text that stands for any other name. -/
structure FieldNames where
  known : List Text
  unknown : Text
  plain : ∀ name ∈ unknown :: known, ':' ∉ name ∧ '\r' ∉ name

/-- `http::to_string(field.name())`, where names are known up to letter case. -/
def FieldNames.toString (names : FieldNames) (name : Text) : Text :=
  (names.known.find? (foldCase · = foldCase name)).getD names.unknown

/-- A request as it comes out of the parser. -/
structure Request extends RequestHead where
  wellFormed : toRequestHead.WellFormed

structure EchoResponse where
  result : Nat
  contentType : Text
  body : Text
  deriving DecidableEq

def handleEchoRequest (names : FieldNames) (request : Request) : EchoResponse :=
  let payload := request.method ++ " ".toList ++ request.target ++
    " HTTP/".toList ++
    (if request.version = .http11 then "1.1\r\n".toList else "1.0\r\n".toList) ++
    request.fields.flatMap fun field =>
      names.toString field.name ++ ": ".toList ++ field.value ++ "\r\n".toList
  ⟨200, "text/plain".toList, payload⟩

/-! What is read back. -/

theorem echoed_version (version : HttpVersion) :
    " HTTP/".toList ++
        (if version = .http11 then "1.1\r\n".toList else "1.0\r\n".toList) =
      ' ' :: (version.text ++ endLine) := by
  cases version <;> rfl

theorem echoed_field (name value : Text) :
    name ++ ": ".toList ++ value ++ "\r\n".toList =
      HeaderField.text ⟨name, value⟩ ++ endLine := by
  rw [HeaderField.text, List.append_assoc name]
  rfl

/-- The body is the head of the request, with the library's texts for the names. -/
theorem handleEchoRequest_body (names : FieldNames) (request : Request) :
    (handleEchoRequest names request).body =
      (request.mapNames names.toString).text := by
  rw [handleEchoRequest, RequestHead.text, lines, requestLine, mapNames]
  simp only [echoed_field, List.append_assoc _ " HTTP/".toList, echoed_version]
  simp [List.flatMap_map]

/-- The name is among the library's texts, up to letter case. -/
def FieldNames.Has (names : FieldNames) (name : Text) : Prop :=
  ∃ text ∈ names.unknown :: names.known, foldCase text = foldCase name

theorem FieldNames.toString_mem (names : FieldNames) (name : Text) :
    names.toString name ∈ names.unknown :: names.known := by
  rw [FieldNames.toString]
  cases found : names.known.find? (foldCase · = foldCase name) with
  | none => exact List.mem_cons_self
  | some text => exact List.mem_cons_of_mem _ (List.mem_of_find?_eq_some found)

theorem FieldNames.toString_same_iff (names : FieldNames) (name : Text) :
    foldCase (names.toString name) = foldCase name ↔ names.Has name := by
  constructor
  · intro same
    exact ⟨_, names.toString_mem name, same⟩
  · rintro ⟨text, member, same⟩
    rw [FieldNames.toString]
    cases found : names.known.find? (foldCase · = foldCase name) with
    | some first => simpa using List.find?_some found
    | none =>
        rcases List.mem_cons.mp member with rfl | isKnown
        · exact same
        · have other := List.find?_eq_none.mp found text isKnown
          simp [same] at other

/-- The library knows the name, up to letter case. -/
def FieldNames.Knows (names : FieldNames) (name : Text) : Prop :=
  ∃ text ∈ names.known, foldCase text = foldCase name

theorem FieldNames.Knows.has {names : FieldNames} {name : Text}
    (knows : names.Knows name) : names.Has name := by
  obtain ⟨text, member, same⟩ := knows
  exact ⟨text, List.mem_cons_of_mem _ member, same⟩

theorem FieldNames.knows_iff_toString {names : FieldNames} (name : Text)
    (distinct : names.unknown ∉ names.known) :
    names.Knows name ↔ names.toString name ≠ names.unknown := by
  rw [FieldNames.toString, Knows]
  cases found : names.known.find? (foldCase · = foldCase name) with
  | none =>
      refine iff_of_false ?_ fun other => other rfl
      rintro ⟨text, member, same⟩
      have other := List.find?_eq_none.mp found text member
      simp [same] at other
  | some text =>
      have member := List.mem_of_find?_eq_some found
      refine iff_of_true ⟨text, member, by simpa using List.find?_some found⟩ ?_
      rintro rfl
      exact distinct member

theorem read_handleEchoRequest (names : FieldNames) (request : Request) :
    RequestHead.read (handleEchoRequest names request).body =
      some (request.mapNames names.toString) := by
  rw [handleEchoRequest_body]
  exact read_text (request.wellFormed.mapNames fun name =>
    names.plain _ (names.toString_mem name))

theorem handleEchoRequest_body_iff (names : FieldNames)
    (left right : Request) :
    (handleEchoRequest names left).body = (handleEchoRequest names right).body ↔
      left.mapNames names.toString = right.mapNames names.toString := by
  constructor
  · intro body
    have reads := congrArg RequestHead.read body
    rwa [read_handleEchoRequest, read_handleEchoRequest, Option.some.injEq]
      at reads
  · intro same
    rw [handleEchoRequest_body, handleEchoRequest_body, same]

/-- A request with the echo of one whose names are all known has known names
itself. -/
theorem knows_of_sameEcho {names : FieldNames} {request other : Request}
    (distinct : names.unknown ∉ names.known)
    (known : ∀ field ∈ request.fields, names.Knows field.name)
    (same : other.mapNames names.toString = request.mapNames names.toString) :
    ∀ field ∈ other.fields, names.Knows field.name := by
  intro field member
  have fields := congrArg RequestHead.fields same
  have image : { field with name := names.toString field.name } ∈
      request.fields.map fun field =>
        { field with name := names.toString field.name } := by
    rw [show request.fields.map _ = _ from fields.symm]
    exact List.mem_map.mpr ⟨field, member, rfl⟩
  obtain ⟨original, originalMember, equal⟩ := List.mem_map.mp image
  have sameName : names.toString original.name = names.toString field.name :=
    congrArg HeaderField.name equal
  rw [FieldNames.knows_iff_toString _ distinct, ← sameName,
    ← FieldNames.knows_iff_toString _ distinct]
  exact known original originalMember

/-- A request is read back from its echo exactly when its field names are among the
library's, and then no other such request has the same echo; no other request at
all when the library knows the names. -/
theorem handleEchoRequest_read_iff (names : FieldNames) (request : Request) :
    ((∃ head, RequestHead.read (handleEchoRequest names request).body = some head ∧
        head.Same request.toRequestHead) ↔
      ∀ field ∈ request.fields, names.Has field.name) ∧
    ((∀ field ∈ request.fields, names.Has field.name) →
      ∀ other : Request, (∀ field ∈ other.fields, names.Has field.name) →
        (handleEchoRequest names other).body =
          (handleEchoRequest names request).body →
        other.Same request.toRequestHead) ∧
    ((∀ field ∈ request.fields, names.Knows field.name) →
      names.unknown ∉ names.known → ∀ other : Request,
        (handleEchoRequest names other).body =
          (handleEchoRequest names request).body →
        other.Same request.toRequestHead) := by
  have same_iff : ∀ echoed : Request,
      (echoed.mapNames names.toString).Same echoed.toRequestHead ↔
        ∀ field ∈ echoed.fields, names.Has field.name := by
    intro echoed
    rw [Same, mapNames_mapNames, mapNames_eq_iff]
    simp only [names.toString_same_iff]
  have injective : (∀ field ∈ request.fields, names.Has field.name) →
      ∀ other : Request, (∀ field ∈ other.fields, names.Has field.name) →
        other.mapNames names.toString = request.mapNames names.toString →
        other.Same request.toRequestHead := by
    intro known other otherKnown same
    calc
      other.mapNames foldCase =
          (other.mapNames names.toString).mapNames foldCase :=
        ((same_iff other).mpr otherKnown).symm
      _ = (request.mapNames names.toString).mapNames foldCase := by rw [same]
      _ = request.mapNames foldCase := (same_iff request).mpr known
  refine ⟨?_, ?_, ?_⟩
  · simp only [read_handleEchoRequest, Option.some.injEq, exists_eq_left']
    exact same_iff request
  · intro known other otherKnown body
    exact injective known other otherKnown
      ((handleEchoRequest_body_iff names other request).mp body)
  · intro known distinct other body
    have same := (handleEchoRequest_body_iff names other request).mp body
    have otherKnown := knows_of_sameEcho distinct known same
    exact injective (fun field member => (known field member).has) other
      (fun field member => (otherKnown field member).has) same

def customHead (name : Text) : RequestHead where
  method := "GET".toList
  target := "/echo".toList
  version := .http11
  fields := [⟨"Host".toList, "example.com".toList⟩, ⟨name, "1".toList⟩]

theorem customHead_wellFormed {name : Text} (plain : ':' ∉ name ∧ '\r' ∉ name) :
    (customHead name).WellFormed := by
  have method : ' ' ∉ "GET".toList ∧ '\r' ∉ "GET".toList := by decide
  have target : ' ' ∉ "/echo".toList ∧ '\r' ∉ "/echo".toList := by decide
  have host : HeaderField.WellFormed ⟨"Host".toList, "example.com".toList⟩ :=
    ⟨by decide, by decide, by decide⟩
  have one : '\r' ∉ "1".toList ∧ trimBlanks "1".toList = "1".toList := by decide
  refine ⟨method, target, fun field member => ?_⟩
  rcases List.mem_cons.mp member with rfl | custom
  · exact host
  · rw [List.mem_singleton.mp custom]
    exact ⟨plain, one.1, one.2⟩

def customRequest (name : Text) (plain : ':' ∉ name ∧ '\r' ∉ name) : Request :=
  ⟨customHead name, customHead_wellFormed plain⟩

/-- Two requests with different custom names have the same echo. -/
theorem handleEchoRequest_custom :
    ∃ names : FieldNames, ∃ first second : Request,
      (handleEchoRequest names first).body =
          (handleEchoRequest names second).body ∧
        ¬ first.Same second.toRequestHead ∧
        ∃ head, RequestHead.read (handleEchoRequest names first).body = some head ∧
          ¬ head.Same first.toRequestHead := by
  refine ⟨⟨["Connection".toList, "Host".toList], "<unknown-field>".toList,
      by decide⟩, customRequest "My-Name".toList (by decide),
    customRequest "My-Other".toList (by decide), by decide, by decide, ?_⟩
  exact ⟨_, read_handleEchoRequest _ _, by decide⟩

end HttpsServer.Handlers
