import HttpsServer.Data.LexicalPath
import HttpsServer.Dispatch.Routing

namespace HttpsServer.Handlers

open Std
open HttpsServer.Data
open HttpsServer.Data.LexicalPath
open HttpsServer.Config
open HttpsServer.Dispatch

/-! Files that are read for a request. -/

inductive Verb where
  | get
  | other
  deriving DecidableEq

structure FileResponse where
  result : Nat
  contentType : Text
  body : Text
  deriving DecidableEq

def fileNotFound : FileResponse :=
  ⟨404, "text/html".toList, "<h1>404 Not Found</h1>".toList⟩

def contains (text pattern : Text) : Bool :=
  (Text.find pattern text).isSome

def mimeType (target : Text) : Text :=
  if !contains target ".".toList then []
  else if contains target ".html".toList then "text/html".toList
  else if contains target ".txt".toList then "text/plain".toList
  else if contains target ".jpg".toList || contains target ".jpeg".toList then
    "image/jpeg".toList
  else if contains target ".zip".toList then "application/zip".toList
  else "unsupported".toList

/-- The target from its second slash on, unless that is missing or its last
character. -/
def filePart? (target : Text) : Option Text :=
  match Text.findFrom "/".toList target 1 with
  | none => none
  | some fileStartPos =>
      if fileStartPos = target.length - 1 then none
      else some (target.drop fileStartPos)

/-- The paths that are opened, and the response. `readFile` is the content of a
file that can be opened. -/
def handleFileRequest (root : Text) (readFile : Text → Option Text) (verb : Verb)
    (target : Text) : List Text × FileResponse :=
  match verb with
  | .get =>
      match filePart? target with
      | none => ([], fileNotFound)
      | some file =>
          let path := root ++ file
          match readFile path with
          | none => ([path], fileNotFound)
          | some payload =>
              ([path, path], ⟨200, mimeType target, payload⟩)
  | .other => ([], ⟨200, [], []⟩)

theorem opened_of_mem {root target path : Text} {readFile : Text → Option Text}
    {verb : Verb}
    (opened : path ∈ (handleFileRequest root readFile verb target).1) :
    ∃ file, filePart? target = some file ∧ path = root ++ file := by
  cases verb with
  | other => cases opened
  | get =>
      rw [handleFileRequest] at opened
      dsimp only at opened
      split at opened
      next => cases opened
      next file found =>
        refine ⟨file, found, ?_⟩
        cases read : readFile (root ++ file) with
        | none =>
            rw [read] at opened
            exact List.mem_singleton.mp opened
        | some payload =>
            rw [read] at opened
            simpa using opened

theorem filePart_slash {target file : Text}
    (found : filePart? target = some file) : ∃ rest, file = '/' :: rest := by
  rw [filePart?] at found
  split at found
  next => cases found
  next position located =>
    split at found
    next => cases found
    next =>
      cases found
      obtain ⟨rest, split⟩ := Text.findFrom_occurs located
      exact ⟨rest, split.symm⟩

/-! The place that is reached from the root. -/

/-- The root is not empty, and the file part of a target, resolved on its own, goes
no further up than it comes down again by the names at the end of the root. -/
def ReturnsToRoot (root file : Text) : Prop :=
  root ≠ [] ∧
    ((resolve root).absolute = true ∨
      (Place.here.follow (segments file)).ups ≤
        (resolve root).names.length) ∧
    (resolve root).names.drop ((resolve root).names.length -
        (Place.here.follow (segments file)).ups) <+:
      (Place.here.follow (segments file)).names

theorem returnsToRoot_of_noClimb {root file : Text} (nonempty : root ≠ [])
    (noClimb : (Place.here.follow (segments file)).ups = 0) :
    ReturnsToRoot root file := by
  rw [ReturnsToRoot, noClimb, Nat.sub_zero, List.drop_length]
  exact ⟨nonempty, .inr (Nat.zero_le _), List.nil_prefix⟩

/-- What is opened is the root or below it exactly when the file part of the target
returns to the root. -/
theorem handleFileRequest_below_iff {root target path : Text}
    {readFile : Text → Option Text} {verb : Verb}
    (opened : path ∈ (handleFileRequest root readFile verb target).1) :
    (resolve path).Below (resolve root) ↔
      ∃ file, filePart? target = some file ∧ ReturnsToRoot root file := by
  obtain ⟨file, found, rfl⟩ := opened_of_mem opened
  obtain ⟨rest, rfl⟩ := filePart_slash found
  have same_iff : (∃ other, filePart? target = some other ∧
      ReturnsToRoot root other) ↔ ReturnsToRoot root ('/' :: rest) := by
    rw [found]
    simp
  rw [same_iff, ReturnsToRoot]
  by_cases empty : root = []
  · -- The path is then absolute, and its root is not.
    subst empty
    refine iff_of_false ?_ fun returns => returns.1 rfl
    intro below
    have sameStart := below.sameStart
    rw [List.nil_append, resolve_absolute, resolve_absolute] at sameStart
    cases sameStart
  · rw [resolve_append_slash empty, Place.follow_below_iff]
    exact (and_iff_right empty).symm

theorem handleFileRequest_below_dots :
    (resolve "/bar/a/../b.txt".toList).Below (resolve "/bar".toList) := by
  have opened : "/bar/a/../b.txt".toList ∈
      (handleFileRequest "/bar".toList (fun _ => none) .get
        "/static/a/../b.txt".toList).1 := by
    decide
  apply (handleFileRequest_below_iff opened).mpr
  refine ⟨"/a/../b.txt".toList, by decide, ?_⟩
  exact returnsToRoot_of_noClimb (by decide) (by decide)

def fileConfig : NginxConfig :=
  .mk [.mk ["location".toList, "/static".toList, "FileHandler".toList]
    (some (.mk [.mk ["root".toList, "/bar".toList] none]))]

/-- A target with two dots leads the handler out of its root. -/
theorem handleFileRequest_escapes :
    ((newDispatcher ∅ fileConfig).map fun made =>
        (made.1.getRequestHandler "/static/../etc/passwd".toList).bind
          (made.1.objects[·]?)) =
      .ok (some (.fileHandler "/static".toList "/bar".toList)) ∧
    (handleFileRequest "/bar".toList (fun _ => none) .get
        "/static/../etc/passwd".toList).1 = ["/bar/../etc/passwd".toList] ∧
    ¬ (resolve "/bar/../etc/passwd".toList).Below (resolve "/bar".toList) := by
  refine ⟨by decide +kernel, by decide, ?_⟩
  intro below
  have within := below.within
  revert within
  decide

/-! The cut of the target and the path that routing has matched. -/

theorem opened_of_filePart {root target file : Text}
    {readFile : Text → Option Text} (found : filePart? target = some file) :
    ∀ path, path ∈ (handleFileRequest root readFile .get target).1 ↔
      path = root ++ file := by
  intro path
  rw [handleFileRequest, found]
  dsimp only
  cases readFile (root ++ file) with
  | none => exact List.mem_singleton
  | some payload => simp

theorem filePart_of_first {first : Char} {before after : Text}
    (noSlash : '/' ∉ before) (nonempty : after ≠ []) :
    filePart? (first :: (before ++ '/' :: after)) = some ('/' :: after) := by
  have located : Text.findFrom "/".toList (first :: (before ++ '/' :: after)) 1 =
      some (before.length + 1) := by
    have found : Text.find "/".toList (before ++ '/' :: after) =
        some before.length := Text.find_singleton noSlash after
    rw [Text.findFrom, List.drop_succ_cons, List.drop_zero, found]
    rfl
  have notLast : before.length + 1 ≠
      (first :: (before ++ '/' :: after)).length - 1 := by
    have positive := List.length_pos_iff.mpr nonempty
    simp only [List.length_cons, List.length_append]
    omega
  rw [filePart?, located]
  dsimp only
  rw [if_neg notLast, List.drop_succ_cons, List.drop_left]

/-- Exactly the location's path is replaced by the root precisely when it has no
slash behind its first character. -/
theorem handleFileRequest_replaces_iff {info lastInfo : TreeMap Text Text compare}
    {config : NginxConfig} {dispatcher : Dispatcher}
    (constructed : newDispatcher info config = .ok (dispatcher, lastInfo))
    {path stored root rest : Text} {pointer : HandlerPtr}
    (registered : dispatcher.handlers[path]? = some pointer)
    (object : dispatcher.objects[pointer]? = some (.fileHandler stored root))
    (routed : dispatcher.getRequestHandler (path ++ '/' :: rest) = some pointer)
    (nonempty : rest ≠ []) (readFile : Text → Option Text) :
    (∀ opened, opened ∈
        (handleFileRequest root readFile .get (path ++ '/' :: rest)).1 ↔
      opened = root ++ '/' :: rest) ↔
    '/' ∉ path.tail := by
  have kept := (newDispatcher_declared constructed registered).locationPrefix
    object rfl
  subst kept
  obtain ⟨pathNonempty, _⟩ :=
    getRequestHandler_locationPrefix constructed routed object rfl
  obtain ⟨first, segments, rfl⟩ := List.exists_cons_of_ne_nil pathNonempty
  rw [List.tail_cons]
  constructor
  · intro opens slash
    obtain ⟨before, after, rfl, noSlash⟩ := List.eq_append_cons_of_mem slash
    have file : filePart? (first :: (before ++ '/' :: (after ++ '/' :: rest))) =
        some ('/' :: (after ++ '/' :: rest)) :=
      filePart_of_first noSlash
        (List.append_ne_nil_of_right_ne_nil after (List.cons_ne_nil '/' rest))
    have cut := @opened_of_filePart root _ _ readFile file
    rw [List.cons_append, List.append_assoc, List.cons_append] at opens
    have same := (cut _).mp ((opens _).mpr rfl)
    have lengths := congrArg List.length same
    simp only [List.length_append, List.length_cons] at lengths
    omega
  · intro noSlash
    exact opened_of_filePart (filePart_of_first noSlash nonempty)

theorem handleFileRequest_replaces_deep :
    (∀ opened, opened ∈ (handleFileRequest "/bar".toList (fun _ => none) .get
        "/static/a/b.txt".toList).1 ↔ opened = "/bar/a/b.txt".toList) ↔
      '/' ∉ "/static".toList.tail := by
  have lookups : (newDispatcher ∅ fileConfig).map (fun made =>
      (made.1.handlers["/static".toList]?, made.1.objects[1]?,
        made.1.getRequestHandler "/static/a/b.txt".toList)) =
      .ok (some 1, some (.fileHandler "/static".toList "/bar".toList),
        some 1) := by
    decide +kernel
  obtain ⟨made, constructed, found⟩ := Fold.map_ok lookups
  obtain ⟨registered, found⟩ := Prod.mk.inj found
  obtain ⟨object, routed⟩ := Prod.mk.inj found
  have target : made.1.getRequestHandler
      ("/static".toList ++ '/' :: "a/b.txt".toList) = some 1 := routed
  exact handleFileRequest_replaces_iff constructed registered object target
    (by decide) (fun _ => none)

/-- A location of two segments. -/
def deepConfig : NginxConfig :=
  .mk [.mk ["location".toList, "/static/one".toList, "FileHandler".toList]
    (some (.mk [.mk ["root".toList, "/bar".toList] none]))]

/-- The second segment of the location stays in the path that is opened. -/
theorem handleFileRequest_keepsSegment :
    (newDispatcher ∅ deepConfig).map (fun made =>
      (made.1.handlers["/static/one".toList]?, made.1.objects[1]?,
        made.1.getRequestHandler "/static/one/a.txt".toList)) =
      .ok (some 1, some (.fileHandler "/static/one".toList "/bar".toList),
        some 1) ∧
    (handleFileRequest "/bar".toList (fun _ => none) .get
        "/static/one/a.txt".toList).1 = ["/bar/one/a.txt".toList] ∧
    ¬ ∀ opened, opened ∈ (handleFileRequest "/bar".toList (fun _ => none) .get
        "/static/one/a.txt".toList).1 ↔ opened = "/bar/a.txt".toList := by
  refine ⟨by decide +kernel, by decide, ?_⟩
  intro opens
  have opened := (opens "/bar/one/a.txt".toList).mp (by decide)
  revert opened
  decide

end HttpsServer.Handlers
