import Mathlib.Data.List.Induction
import HttpsServer.Data.Text

namespace HttpsServer.Data.LexicalPath

/-! File paths, resolved by their text alone. -/

inductive Segment (Name : Type) where
  | up
  | down (name : Name)

/-- Where a path leads: some levels above its start, and down from there. Nothing
is above the root, at which an absolute path starts. -/
@[ext] structure Place (Name : Type) where
  absolute : Bool
  ups : Nat
  names : List Name
  rooted : absolute = true → ups = 0

namespace Place

variable {Name : Type}

def top : Place Name where
  absolute := true
  ups := 0
  names := []
  rooted := fun _ => rfl

def here : Place Name where
  absolute := false
  ups := 0
  names := []
  rooted := fun _ => rfl

/-- Some levels up, for which the names are given up first. -/
def climb (place : Place Name) (levels : Nat) : Place Name where
  absolute := place.absolute
  ups := if place.absolute then 0
    else place.ups + (levels - place.names.length)
  names := place.names.take (place.names.length - levels)
  rooted := fun isAbsolute => if_pos isAbsolute

def descend (place : Place Name) (names : List Name) : Place Name :=
  { place with names := place.names ++ names }

def step (place : Place Name) : Segment Name → Place Name
  | .up => place.climb 1
  | .down name => place.descend [name]

def follow (place : Place Name) (segments : List (Segment Name)) :
    Place Name :=
  segments.foldl step place

@[simp] theorem descend_nil (place : Place Name) :
    place.descend [] = place := by
  ext1 <;> simp [descend]

theorem climb_zero (place : Place Name) : place.climb 0 = place := by
  ext1
  · rfl
  · simp only [climb, Nat.zero_sub, Nat.add_zero]
    split
    next isAbsolute => exact (place.rooted isAbsolute).symm
    next => rfl
  · simp [climb]

theorem climb_climb (place : Place Name) (first second : Nat) :
    (place.climb first).climb second = place.climb (first + second) := by
  ext1
  · rfl
  · simp only [climb, List.length_take]
    split
    · rfl
    · omega
  · simp only [climb, List.take_take, List.length_take]
    congr 1
    omega

theorem descend_descend (place : Place Name) (first second : List Name) :
    (place.descend first).descend second = place.descend (first ++ second) := by
  ext1
  · rfl
  · rfl
  · exact List.append_assoc _ _ _

theorem climb_descend_concat (place : Place Name) (names : List Name)
    (name : Name) :
    (place.descend (names ++ [name])).climb 1 = place.descend names := by
  ext1
  · rfl
  · simp only [climb, descend, List.length_append, List.length_singleton]
    split
    next isAbsolute => exact (place.rooted isAbsolute).symm
    next => omega
  · simp only [climb, descend]
    rw [← List.append_assoc, List.length_append, List.length_singleton,
      Nat.add_sub_cancel, List.take_left]

theorem follow_append (place : Place Name)
    (first second : List (Segment Name)) :
    place.follow (first ++ second) = (place.follow first).follow second :=
  List.foldl_append

theorem follow_concat (place : Place Name) (segments : List (Segment Name))
    (segment : Segment Name) :
    place.follow (segments ++ [segment]) =
      (place.follow segments).step segment :=
  follow_append place segments [segment]

theorem follow_absolute (place : Place Name) (segments : List (Segment Name)) :
    (place.follow segments).absolute = place.absolute := by
  induction segments using List.reverseRecOn with
  | nil => rfl
  | append_singleton before segment induction =>
      rw [follow_concat, ← induction]
      cases segment <;> rfl

theorem climb_of_empty {place : Place Name} (relative : place.absolute = false)
    (empty : place.names = []) :
    (place.climb 1).ups = place.ups + 1 ∧ (place.climb 1).names = [] := by
  simp [climb, relative, empty]

theorem climb_of_concat {place : Place Name} (relative : place.absolute = false)
    {before : List Name} {name : Name} (ended : place.names = before ++ [name]) :
    (place.climb 1).ups = place.ups ∧ (place.climb 1).names = before := by
  simp [climb, relative, ended]

/-- Segments lead from everywhere as far up, and from there down, as they do from
here. -/
theorem follow_eq (place : Place Name) (segments : List (Segment Name)) :
    place.follow segments =
      (place.climb (here.follow segments).ups).descend
        (here.follow segments).names := by
  induction segments using List.reverseRecOn with
  | nil =>
      change place = (place.climb 0).descend []
      rw [descend_nil, climb_zero]
  | append_singleton before segment induction =>
      rw [follow_concat, follow_concat, induction]
      cases segment with
      | down name => exact descend_descend _ _ _
      | up =>
          have relative : (here.follow before).absolute = false :=
            follow_absolute here before
          change ((place.climb _).descend _).climb 1 =
            (place.climb ((here.follow before).climb 1).ups).descend
              ((here.follow before).climb 1).names
          rcases List.eq_nil_or_concat (here.follow before).names with
            empty | ⟨names, name, ended⟩
          · obtain ⟨ups, none_left⟩ := climb_of_empty relative empty
            rw [empty, ups, none_left, descend_nil, descend_nil, climb_climb]
          · rw [List.concat_eq_append] at ended
            obtain ⟨ups, left⟩ := climb_of_concat relative ended
            rw [ended, ups, left, climb_descend_concat]

/-- The one place is the other, or is reached from it by going down. -/
structure Below (inner outer : Place Name) : Prop where
  sameStart : inner.absolute = outer.absolute
  sameUps : inner.ups = outer.ups
  within : outer.names <+: inner.names

/-- Going up and down again stays below a place exactly when the names that were
given up are the first ones gone down by. -/
theorem climb_descend_below_iff (place : Place Name) (levels : Nat)
    (names : List Name) :
    ((place.climb levels).descend names).Below place ↔
      (place.absolute = true ∨ levels ≤ place.names.length) ∧
      place.names.drop (place.names.length - levels) <+: names := by
  have within_iff : place.names <+:
        place.names.take (place.names.length - levels) ++ names ↔
      place.names.drop (place.names.length - levels) <+: names := by
    conv => lhs; lhs; rw [← List.take_append_drop
      (place.names.length - levels) place.names]
    exact List.prefix_append_right_inj _
  have ups_iff : (if place.absolute then 0
        else place.ups + (levels - place.names.length)) = place.ups ↔
      place.absolute = true ∨ levels ≤ place.names.length := by
    split
    next isAbsolute =>
      exact iff_of_true (place.rooted isAbsolute).symm (.inl isAbsolute)
    next relative =>
      rw [or_iff_right relative]
      omega
  constructor
  · intro below
    exact ⟨ups_iff.mp below.sameUps, within_iff.mp below.within⟩
  · intro stays
    exact ⟨rfl, ups_iff.mpr stays.1, within_iff.mpr stays.2⟩

theorem follow_below_iff (place : Place Name) (segments : List (Segment Name)) :
    (place.follow segments).Below place ↔
      (place.absolute = true ∨
        (here.follow segments).ups ≤ place.names.length) ∧
      place.names.drop (place.names.length - (here.follow segments).ups) <+:
        (here.follow segments).names := by
  rw [follow_eq]
  exact climb_descend_below_iff _ _ _

end Place

/-! The segments of a text. -/

/-- Nothing for an empty piece, which a repeated slash gives, and for a dot. -/
def segment? (piece : Text) : Option (Segment Text) :=
  if piece = [] ∨ piece = ".".toList then none
  else if piece = "..".toList then some .up
  else some (.down piece)

def segments (path : Text) : List (Segment Text) :=
  (path.splitOn '/').filterMap segment?

def start (path : Text) : Place Text :=
  if path.head? = some '/' then .top else .here

def resolve (path : Text) : Place Text :=
  (start path).follow (segments path)

theorem segments_append_slash (before after : Text) :
    segments (before ++ '/' :: after) = segments before ++ segments after := by
  rw [segments, List.splitOn_append_cons_self, List.filterMap_append]
  rfl

theorem segments_slash (path : Text) : segments ('/' :: path) = segments path :=
  segments_append_slash [] path

theorem resolve_append_slash {base : Text} (nonempty : base ≠ []) (path : Text) :
    resolve (base ++ '/' :: path) =
      (resolve base).follow (segments ('/' :: path)) := by
  have sameStart : start (base ++ '/' :: path) = start base := by
    cases base with
    | nil => contradiction
    | cons first base => rfl
  rw [resolve, sameStart, segments_append_slash, segments_slash,
    Place.follow_append, resolve]

theorem resolve_absolute (path : Text) :
    (resolve path).absolute = decide (path.head? = some '/') := by
  rw [resolve, Place.follow_absolute, start]
  split
  next slash => exact (decide_eq_true slash).symm
  next other => exact (decide_eq_false other).symm

end HttpsServer.Data.LexicalPath
