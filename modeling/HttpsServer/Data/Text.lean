namespace HttpsServer.Data

/-! Character sequences and the substring search of the standard string type. -/

/-- A string as the list of its characters. -/
abbrev Text := List Char

namespace Text

variable {Symbol : Type} [DecidableEq Symbol]

/-- The position of the first occurrence of `pattern`, if there is one. -/
def find (pattern : List Symbol) : List Symbol → Option Nat
  | [] => if pattern = [] then some 0 else none
  | head :: tail =>
      if pattern.isPrefixOf (head :: tail) then some 0
      else (find pattern tail).map (· + 1)

/-- The position of the first occurrence at or after `start`. -/
def findFrom (pattern text : List Symbol) (start : Nat) : Option Nat :=
  (find pattern (text.drop start)).map (· + start)

theorem find_isSome (pattern text : List Symbol) :
    (find pattern text).isSome = true ↔ pattern <:+: text := by
  induction text with
  | nil =>
      simp only [find, List.infix_nil]
      split <;> simp_all
  | cons head tail induction =>
      rw [find, List.infix_cons_iff, ← induction]
      split
      next leading =>
        simp [List.isPrefixOf_iff_prefix.mp leading]
      next other =>
        have notPrefix : ¬ pattern <+: head :: tail := fun leading =>
          other (List.isPrefixOf_iff_prefix.mpr leading)
        simp [notPrefix]

theorem find_leading (pattern rest : List Symbol) :
    find pattern (pattern ++ rest) = some 0 := by
  cases whole : pattern ++ rest with
  | nil => rw [find, if_pos (List.append_eq_nil_iff.mp whole).1]
  | cons head tail =>
      rw [find, if_pos]
      rw [List.isPrefixOf_iff_prefix, ← whole]
      exact List.prefix_append pattern rest

theorem find_bound {pattern text : List Symbol} {position : Nat}
    (found : find pattern text = some position) :
    position + pattern.length ≤ text.length := by
  induction text generalizing position with
  | nil =>
      rw [find] at found
      split at found
      next empty => cases found; rw [empty]; exact Nat.le_refl _
      next => cases found
  | cons head tail induction =>
      rw [find] at found
      split at found
      next leading =>
        cases found
        rw [Nat.zero_add]
        exact (List.isPrefixOf_iff_prefix.mp leading).length_le
      next =>
        obtain ⟨offset, further, rfl⟩ := Option.map_eq_some_iff.mp found
        have bound := induction further
        rw [List.length_cons]
        omega

theorem find_occurs {pattern text : List Symbol} {position : Nat}
    (found : find pattern text = some position) :
    pattern <+: text.drop position := by
  induction text generalizing position with
  | nil =>
      rw [find] at found
      split at found
      next empty => rw [empty]; exact List.nil_prefix
      next => cases found
  | cons head tail induction =>
      rw [find] at found
      split at found
      next leading =>
        cases found
        exact List.isPrefixOf_iff_prefix.mp leading
      next =>
        obtain ⟨offset, further, rfl⟩ := Option.map_eq_some_iff.mp found
        exact induction further

theorem findFrom_occurs {pattern text : List Symbol} {start position : Nat}
    (found : findFrom pattern text start = some position) :
    pattern <+: text.drop position := by
  obtain ⟨offset, further, rfl⟩ := Option.map_eq_some_iff.mp found
  rw [Nat.add_comm, ← List.drop_drop]
  exact find_occurs further

theorem find_append {pattern text : List Symbol} {position : Nat}
    (found : find pattern text = some position) (rest : List Symbol) :
    find pattern (text ++ rest) = some position := by
  induction text generalizing position with
  | nil =>
      rw [find] at found
      split at found
      next empty =>
        cases found
        subst empty
        cases rest <;> rfl
      next => cases found
  | cons head tail induction =>
      have bound := find_bound found
      rw [find] at found
      rw [List.cons_append, find, ← List.cons_append]
      split at found
      next leading =>
        have longer := List.isPrefixOf_iff_prefix.mpr
          ((List.isPrefixOf_iff_prefix.mp leading).trans
            (List.prefix_append _ rest))
        rw [if_pos longer]
        exact found
      next other =>
        have notPrefix : ¬ pattern.isPrefixOf (head :: tail ++ rest) = true := by
          intro leading
          have within := List.prefix_of_prefix_length_le
            (List.isPrefixOf_iff_prefix.mp leading)
            (List.prefix_append (head :: tail) rest) (by omega)
          exact other (List.isPrefixOf_iff_prefix.mpr within)
        obtain ⟨offset, further, rfl⟩ := Option.map_eq_some_iff.mp found
        rw [if_neg notPrefix, induction further, Option.map_some]

theorem find_singleton {c : Symbol} {before : List Symbol} (outside : c ∉ before)
    (after : List Symbol) :
    find [c] (before ++ c :: after) = some before.length := by
  induction before with
  | nil => simp [find]
  | cons head before induction =>
      have other : ¬ [c].isPrefixOf (head :: (before ++ c :: after)) = true := by
        rw [List.isPrefixOf_iff_prefix, List.cons_prefix_cons]
        intro leading
        exact outside (leading.1 ▸ List.mem_cons_self)
      rw [List.cons_append, find, if_neg other, induction fun member =>
        outside (List.mem_cons_of_mem _ member), Option.map_some,
        List.length_cons]

theorem find_singleton_eq_none {c : Symbol} {text : List Symbol}
    (outside : c ∉ text) : find [c] text = none := by
  apply Option.not_isSome_iff_eq_none.mp
  rw [find_isSome]
  intro occurs
  exact outside (occurs.subset List.mem_cons_self)

omit [DecidableEq Symbol] in
theorem takeWhile_append_stop {wanted : Symbol → Bool} {stop : Symbol}
    (stops : wanted stop = false) (before after : List Symbol) :
    (before ++ stop :: after).takeWhile wanted = before.takeWhile wanted := by
  have refused : ¬ wanted stop = true := by
    rw [stops]
    exact Bool.false_ne_true
  rw [List.takeWhile_append]
  split
  next whole =>
    rw [List.takeWhile_cons_of_neg refused, List.append_nil]
    exact ((List.takeWhile_prefix wanted).eq_of_length whole).symm
  next => rfl

/-! What follows the first occurrence. -/

/-- The rest of a text from behind the first occurrence of `pattern`. -/
def behind (pattern text : List Symbol) : Option (List Symbol) :=
  (find pattern text).map fun position =>
    text.drop (position + pattern.length)

theorem behind_nil {pattern : List Symbol} (nonempty : pattern ≠ []) :
    behind pattern [] = none := by
  rw [behind, find, if_neg nonempty, Option.map_none]

theorem behind_of_leading {pattern : List Symbol} {head : Symbol}
    {tail : List Symbol} (leading : pattern <+: head :: tail) :
    behind pattern (head :: tail) =
      some ((head :: tail).drop pattern.length) := by
  rw [behind, find, if_pos (List.isPrefixOf_iff_prefix.mpr leading),
    Option.map_some, Nat.zero_add]

theorem behind_of_not_leading {pattern : List Symbol} {head : Symbol}
    {tail : List Symbol} (other : ¬ pattern <+: head :: tail) :
    behind pattern (head :: tail) = behind pattern tail := by
  have notPrefix : ¬ pattern.isPrefixOf (head :: tail) = true := fun leading =>
    other (List.isPrefixOf_iff_prefix.mp leading)
  rw [behind, find, if_neg notPrefix, Option.map_map, behind]
  congr 1
  funext position
  change (head :: tail).drop (position + 1 + pattern.length) = _
  rw [Nat.add_right_comm, List.drop_succ_cons]

omit [DecidableEq Symbol] in
theorem prefix_append_cons {pattern : List Symbol} {c : Symbol}
    (outside : c ∉ pattern) (before after : List Symbol) :
    pattern <+: before ++ c :: after ↔ pattern <+: before := by
  constructor
  · intro leading
    induction before generalizing pattern with
    | nil =>
        cases pattern with
        | nil => exact List.nil_prefix
        | cons first pattern =>
            rw [List.nil_append, List.cons_prefix_cons] at leading
            obtain ⟨rfl, _⟩ := leading
            exact absurd List.mem_cons_self outside
    | cons head before induction =>
        cases pattern with
        | nil => exact List.nil_prefix
        | cons first pattern =>
            rw [List.cons_append, List.cons_prefix_cons] at leading
            obtain ⟨rfl, leading⟩ := leading
            rw [List.cons_prefix_cons]
            exact ⟨rfl, induction (fun member =>
              outside (List.mem_cons_of_mem _ member)) leading⟩
  · intro leading
    exact leading.trans (List.prefix_append _ _)

/-- No occurrence reaches over a symbol that the pattern does not have. -/
theorem behind_append_cons {pattern : List Symbol} {c : Symbol}
    (nonempty : pattern ≠ []) (outside : c ∉ pattern)
    (before after : List Symbol) :
    behind pattern (before ++ c :: after) =
      ((behind pattern before).map (· ++ c :: after)).or
        (behind pattern after) := by
  induction before with
  | nil =>
      have notPrefix : ¬ pattern <+: c :: after := by
        intro leading
        have none_found := (prefix_append_cons outside [] after).mp leading
        exact nonempty (List.prefix_nil.mp none_found)
      rw [List.nil_append, behind_of_not_leading notPrefix, behind_nil nonempty]
      rfl
  | cons head before induction =>
      have across := prefix_append_cons outside (head :: before) after
      rw [List.cons_append] at across
      by_cases leading : pattern <+: head :: before
      · rw [behind_of_leading leading, List.cons_append,
          behind_of_leading (across.mpr leading), ← List.cons_append,
          List.drop_append_of_le_length leading.length_le]
        rfl
      · rw [behind_of_not_leading leading, List.cons_append,
          behind_of_not_leading fun reached => leading (across.mp reached)]
        exact induction

theorem behind_append_of_outside {pattern : List Symbol}
    (nonempty : pattern ≠ []) {before : List Symbol}
    (outside : ∀ c ∈ before, c ∉ pattern) (after : List Symbol) :
    behind pattern (before ++ after) = behind pattern after := by
  induction before with
  | nil => rfl
  | cons c before induction =>
      have skip := behind_append_cons nonempty (outside c List.mem_cons_self) []
        (before ++ after)
      rw [List.nil_append, behind_nil nonempty] at skip
      rw [List.cons_append, skip]
      exact induction fun other member =>
        outside other (List.mem_cons_of_mem _ member)

/-- An occurrence lies on one side of a symbol that the pattern does not have. -/
theorem infix_append_cons {pattern : List Symbol} {c : Symbol}
    (nonempty : pattern ≠ []) (outside : c ∉ pattern)
    (before after : List Symbol) :
    pattern <:+: before ++ c :: after ↔
      pattern <:+: before ∨ pattern <:+: after := by
  have apart := congrArg Option.isSome
    (behind_append_cons nonempty outside before after)
  rw [Option.isSome_or, Option.isSome_map] at apart
  simp only [behind, Option.isSome_map] at apart
  rw [← find_isSome, apart, Bool.or_eq_true, find_isSome, find_isSome]

theorem infix_append_of_outside {pattern : List Symbol}
    (nonempty : pattern ≠ []) {before : List Symbol}
    (outside : ∀ c ∈ before, c ∉ pattern) (after : List Symbol) :
    pattern <:+: before ++ after ↔ pattern <:+: after := by
  have skipped := congrArg Option.isSome
    (behind_append_of_outside nonempty outside after)
  simp only [behind, Option.isSome_map] at skipped
  rw [← find_isSome, skipped, find_isSome]

/-! Spans of a text. -/

/-- `find_first_of` with the predicate of the wanted symbols. -/
def findFirst (wanted : Symbol → Bool) (text : List Symbol) (start : Nat) :
    Option Nat :=
  ((text.drop start).findIdx? wanted).map (· + start)

/-- The symbols from `start` up to `stop`, or up to the end. -/
def slice (text : List Symbol) (start : Nat) : Option Nat → List Symbol
  | none => text.drop start
  | some stop => (text.drop start).take (stop - start)

omit [DecidableEq Symbol] in
theorem drop_findFirst {wanted : Symbol → Bool} {text : List Symbol}
    {start position : Nat} (found : findFirst wanted text start = some position) :
    text.drop position = (text.drop start).dropWhile fun c => !wanted c := by
  obtain ⟨offset, located, rfl⟩ := Option.map_eq_some_iff.mp found
  have first := (List.findIdx?_eq_some_iff_findIdx_eq.mp located).2
  rw [List.dropWhile_eq_drop_findIdx_not, List.drop_drop, Nat.add_comm]
  simp only [Bool.not_not, first]

omit [DecidableEq Symbol] in
theorem findFirst_lt {wanted : Symbol → Bool} {text : List Symbol}
    {start position : Nat} (found : findFirst wanted text start = some position) :
    position < text.length := by
  obtain ⟨offset, located, rfl⟩ := Option.map_eq_some_iff.mp found
  have inside := (List.findIdx?_eq_some_iff_findIdx_eq.mp located).1
  rw [List.length_drop] at inside
  omega

omit [DecidableEq Symbol] in
theorem findFirst_isNone {wanted : Symbol → Bool} {text : List Symbol}
    {start : Nat} :
    findFirst wanted text start = none ↔
      ∀ c ∈ text.drop start, wanted c = false := by
  rw [findFirst, Option.map_eq_none_iff, List.findIdx?_eq_none_iff]

omit [DecidableEq Symbol] in
theorem slice_findFirst (wanted : Symbol → Bool) (text : List Symbol)
    (start : Nat) :
    slice text start (findFirst wanted text start) =
      (text.drop start).takeWhile fun c => !wanted c := by
  cases located : (text.drop start).findIdx? wanted with
  | none =>
      have first := List.findIdx_eq_length.mpr
        (List.findIdx?_eq_none_iff.mp located)
      rw [findFirst, located, Option.map_none, slice,
        List.takeWhile_eq_take_findIdx_not]
      simp only [Bool.not_not, first, List.take_length]
  | some offset =>
      have first := (List.findIdx?_eq_some_iff_findIdx_eq.mp located).2
      rw [findFirst, located, Option.map_some, slice, Nat.add_sub_cancel,
        List.takeWhile_eq_take_findIdx_not]
      simp only [Bool.not_not, first]

omit [DecidableEq Symbol] in
/-- The search stops where it starts exactly when nothing lies between. -/
theorem findFirst_eq_start_iff {wanted : Symbol → Bool} {text : List Symbol}
    {start : Nat} (inside : start < text.length) :
    findFirst wanted text start = some start ↔
      slice text start (findFirst wanted text start) = [] := by
  rw [slice_findFirst, findFirst, List.drop_eq_getElem_cons inside,
    List.findIdx?_cons, List.takeWhile_cons]
  cases wanted text[start] with
  | true => simp
  | false =>
      refine iff_of_false ?_ (List.cons_ne_nil _ _)
      rw [if_neg Bool.false_ne_true, Option.map_map, Option.map_eq_some_iff]
      rintro ⟨offset, _, same⟩
      rw [Function.comp_apply] at same
      omega

end Text

end HttpsServer.Data
