import Mathlib.Data.List.DropRight
import HttpsServer.Data.Text

namespace HttpsServer.Data

/-! Heads of HTTP requests, as they are written and read back. -/

inductive HttpVersion where
  | http10
  | http11
  deriving DecidableEq

structure HeaderField where
  name : Text
  value : Text
  deriving DecidableEq

structure RequestHead where
  method : Text
  target : Text
  version : HttpVersion
  fields : List HeaderField
  deriving DecidableEq

def HttpVersion.text : HttpVersion → Text
  | .http10 => "HTTP/1.0".toList
  | .http11 => "HTTP/1.1".toList

def HttpVersion.read (text : Text) : Option HttpVersion :=
  if text = "HTTP/1.1".toList then some .http11
  else if text = "HTTP/1.0".toList then some .http10
  else none

theorem HttpVersion.read_text (version : HttpVersion) :
    HttpVersion.read version.text = some version := by
  cases version <;> rfl

/-! Lines. -/

def endLine : Text := ['\r', '\n']

/-- The lines of a text; none when the last one has no end. -/
def readLines : Text → Option (List Text)
  | [] => some []
  | '\r' :: '\n' :: rest => (readLines rest).map ([] :: ·)
  | c :: rest =>
      match readLines rest with
      | some (line :: lines) => some ((c :: line) :: lines)
      | _ => none

theorem readLines_line {line : Text} (plain : '\r' ∉ line) (rest : Text) :
    readLines (line ++ (endLine ++ rest)) =
      (readLines rest).map (line :: ·) := by
  induction line with
  | nil => rfl
  | cons c line induction =>
      have plainLine := List.not_mem_of_not_mem_cons plain
      rw [List.cons_append, readLines, induction plainLine]
      · cases readLines rest <;> rfl
      · rintro _ rfl
        exact absurd List.mem_cons_self plain

theorem readLines_lines {lines : List Text}
    (plain : ∀ line ∈ lines, '\r' ∉ line) :
    readLines (lines.flatMap (· ++ endLine)) = some lines := by
  induction lines with
  | nil => rfl
  | cons line lines induction =>
      obtain ⟨plainLine, plainLines⟩ := List.forall_mem_cons.mp plain
      rw [List.flatMap_cons, List.append_assoc, readLines_line plainLine,
        induction plainLines]
      rfl

/-! Header fields. -/

def isHeaderBlank (c : Char) : Bool :=
  c = ' ' || c = '\t'

/-- The text without the blanks at its two ends. -/
def trimBlanks (text : Text) : Text :=
  (text.dropWhile isHeaderBlank).rdropWhile isHeaderBlank

namespace HeaderField

def text (field : HeaderField) : Text :=
  field.name ++ ':' :: ' ' :: field.value

def read (line : Text) : Option HeaderField :=
  match line.dropWhile (· ≠ ':') with
  | [] => none
  | _ :: value => some ⟨line.takeWhile (· ≠ ':'), trimBlanks value⟩

structure WellFormed (field : HeaderField) : Prop where
  name : ':' ∉ field.name ∧ '\r' ∉ field.name
  value : '\r' ∉ field.value
  trimmed : trimBlanks field.value = field.value

theorem read_text {field : HeaderField} (wellFormed : field.WellFormed) :
    read field.text = some field := by
  have before : ∀ c ∈ field.name, decide (c ≠ ':') = true := by
    intro c member
    rw [decide_eq_true_eq]
    rintro rfl
    exact wellFormed.name.1 member
  rw [read, text, List.dropWhile_append_of_pos before,
    List.takeWhile_append_of_pos before]
  have trimmed : trimBlanks (' ' :: field.value) = field.value :=
    wellFormed.trimmed
  simp [trimmed]

theorem WellFormed.text {field : HeaderField} (wellFormed : field.WellFormed) :
    '\r' ∉ field.text := by
  simp [HeaderField.text, wellFormed.name.2, wellFormed.value]

end HeaderField

/-! Heads. -/

namespace RequestHead

def requestLine (head : RequestHead) : Text :=
  head.method ++ ' ' :: (head.target ++ ' ' :: head.version.text)

def lines (head : RequestHead) : List Text :=
  head.requestLine :: head.fields.map HeaderField.text

/-- The head without the empty line that follows it in a message. -/
def text (head : RequestHead) : Text :=
  head.lines.flatMap (· ++ endLine)

def readRequestLine (line : Text) : Option (Text × Text × HttpVersion) :=
  match line.splitOn ' ' with
  | [method, target, version] =>
      (HttpVersion.read version).map fun version => (method, target, version)
  | _ => none

def readFields : List Text → Option (List HeaderField)
  | [] => some []
  | line :: lines => do
      let field ← HeaderField.read line
      let fields ← readFields lines
      some (field :: fields)

def read (text : Text) : Option RequestHead := do
  match ← readLines text with
  | [] => none
  | first :: rest =>
      let (method, target, version) ← readRequestLine first
      let fields ← readFields rest
      some ⟨method, target, version, fields⟩

/-- What the grammar of messages says about a head, as far as a reader needs it. -/
structure WellFormed (head : RequestHead) : Prop where
  method : ' ' ∉ head.method ∧ '\r' ∉ head.method
  target : ' ' ∉ head.target ∧ '\r' ∉ head.target
  fields : ∀ field ∈ head.fields, field.WellFormed

theorem readRequestLine_requestLine {head : RequestHead}
    (wellFormed : head.WellFormed) :
    readRequestLine head.requestLine =
      some (head.method, head.target, head.version) := by
  have version : ' ' ∉ head.version.text := by
    cases head.version <;> decide
  rw [readRequestLine, requestLine,
    List.splitOn_append_cons_self_of_not_mem wellFormed.method.1,
    List.splitOn_append_cons_self_of_not_mem wellFormed.target.1,
    List.splitOn_eq_singleton version]
  dsimp only
  rw [HttpVersion.read_text]
  rfl

theorem readFields_texts {fields : List HeaderField}
    (wellFormed : ∀ field ∈ fields, field.WellFormed) :
    readFields (fields.map HeaderField.text) = some fields := by
  induction fields with
  | nil => rfl
  | cons field fields induction =>
      obtain ⟨first, rest⟩ := List.forall_mem_cons.mp wellFormed
      rw [List.map_cons, readFields, HeaderField.read_text first,
        induction rest]
      rfl

theorem WellFormed.lines {head : RequestHead} (wellFormed : head.WellFormed) :
    ∀ line ∈ head.lines, '\r' ∉ line := by
  intro line member
  rcases List.mem_cons.mp member with rfl | fieldLine
  · have version : '\r' ∉ head.version.text := by
      cases head.version <;> decide
    simp [requestLine, wellFormed.method.2, wellFormed.target.2, version]
  · obtain ⟨field, fieldMember, rfl⟩ := List.mem_map.mp fieldLine
    exact (wellFormed.fields field fieldMember).text

theorem read_text {head : RequestHead} (wellFormed : head.WellFormed) :
    read head.text = some head := by
  rw [read, text, readLines_lines wellFormed.lines]
  simp [RequestHead.lines, readRequestLine_requestLine wellFormed,
    readFields_texts wellFormed.fields]

/-! Heads with other names in their fields. -/

def mapNames (rename : Text → Text) (head : RequestHead) : RequestHead :=
  { head with fields := head.fields.map fun field =>
      { field with name := rename field.name } }

theorem mapNames_mapNames (inner outer : Text → Text) (head : RequestHead) :
    (head.mapNames inner).mapNames outer =
      head.mapNames fun name => outer (inner name) := by
  simp [mapNames]

theorem mapNames_eq_iff {left right : Text → Text} (head : RequestHead) :
    head.mapNames left = head.mapNames right ↔
      ∀ field ∈ head.fields, left field.name = right field.name := by
  simp [mapNames]

theorem WellFormed.mapNames {head : RequestHead} (wellFormed : head.WellFormed)
    {rename : Text → Text}
    (plain : ∀ name, ':' ∉ rename name ∧ '\r' ∉ rename name) :
    (head.mapNames rename).WellFormed where
  method := wellFormed.method
  target := wellFormed.target
  fields := by
    intro field member
    obtain ⟨original, originalMember, rfl⟩ := List.mem_map.mp member
    have originalField := wellFormed.fields original originalMember
    exact ⟨plain original.name, originalField.value, originalField.trimmed⟩

def foldCase (name : Text) : Text :=
  name.map Char.toLower

/-- The same head, up to the letter case of its field names. -/
abbrev Same (left right : RequestHead) : Prop :=
  left.mapNames foldCase = right.mapNames foldCase

end RequestHead

end HttpsServer.Data
