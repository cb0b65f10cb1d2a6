import Mathlib.Data.List.Induction

namespace HttpsServer.Data.Fold

/-! Loops over a list that stop at the first error. -/

variable {Item State Error : Type} {step : State → Item → Except Error State}

theorem bind_ok {Value Result : Type} {action : Except Error Value}
    {next : Value → Except Error Result} {result : Result}
    (run : (action >>= next) = .ok result) :
    ∃ value, action = .ok value ∧ next value = .ok result := by
  cases action with
  | error error => cases run
  | ok value => exact ⟨value, rfl, run⟩

theorem bind_error {Value Result : Type} {action : Except Error Value}
    {next : Value → Except Error Result} {error : Error}
    (failed : (action >>= next) = .error error) :
    action = .error error ∨
      ∃ value, action = .ok value ∧ next value = .error error := by
  cases action with
  | error other =>
      cases failed
      exact .inl rfl
  | ok value => exact .inr ⟨value, rfl, failed⟩

theorem map_ok {Value Result : Type} {action : Except Error Value}
    {image : Value → Result} {result : Result}
    (mapped : action.map image = .ok result) :
    ∃ value, action = .ok value ∧ image value = result := by
  cases action with
  | error error => cases mapped
  | ok value => exact ⟨value, rfl, Except.ok.inj mapped⟩

theorem bind_pure_error {Value Result : Type} {action : Except Error Value}
    {next : Value → Result} {error : Error}
    (failed : (action >>= fun value => .ok (next value)) = .error error) :
    action = .error error := by
  rcases bind_error failed with stopped | ⟨value, _, failed⟩
  · exact stopped
  · contradiction

theorem cons_ok {item : Item} {items : List Item} {first next : State}
    (head : step first item = .ok next) :
    (item :: items).foldlM step first = items.foldlM step next := by
  rw [List.foldlM_cons, head]
  rfl

theorem cons_error {item : Item} {items : List Item} {first : State}
    {error : Error} (head : step first item = .error error) :
    (item :: items).foldlM step first = .error error := by
  rw [List.foldlM_cons, head]
  rfl

theorem append_ok {before after : List Item} {first middle : State}
    (run : before.foldlM step first = .ok middle) :
    (before ++ after).foldlM step first = after.foldlM step middle := by
  rw [List.foldlM_append, run]
  rfl

theorem append_error {before after : List Item} {first : State} {error : Error}
    (run : before.foldlM step first = .error error) :
    (before ++ after).foldlM step first = .error error := by
  rw [List.foldlM_append, run]
  rfl

theorem drop_item {before after : List Item} {item : Item} {first middle : State}
    (run : before.foldlM step first = .ok middle)
    (idle : step middle item = .ok middle) :
    (before ++ item :: after).foldlM step first =
      (before ++ after).foldlM step first := by
  rw [append_ok run, append_ok run, cons_ok idle]

/-- A loop that ends well passes through a state before each of its items. -/
theorem split_ok {before after : List Item} {item : Item} {first last : State}
    (run : (before ++ item :: after).foldlM step first = .ok last) :
    ∃ middle next, before.foldlM step first = .ok middle ∧
      step middle item = .ok next ∧ after.foldlM step next = .ok last := by
  rw [List.foldlM_append] at run
  obtain ⟨middle, prior, run⟩ := bind_ok run
  rw [List.foldlM_cons] at run
  obtain ⟨next, head, run⟩ := bind_ok run
  exact ⟨middle, next, prior, head, run⟩

theorem error_iff {items : List Item} {first : State} {error : Error} :
    items.foldlM step first = .error error ↔
      ∃ before item after middle, items = before ++ item :: after ∧
        before.foldlM step first = .ok middle ∧
        step middle item = .error error := by
  constructor
  · intro failed
    induction items generalizing first with
    | nil => contradiction
    | cons item items induction =>
        cases head : step first item with
        | error other =>
            rw [cons_error head] at failed
            cases failed
            exact ⟨[], item, items, first, rfl, rfl, head⟩
        | ok next =>
            rw [cons_ok head] at failed
            obtain ⟨before, failing, after, middle, rfl, run, stopped⟩ :=
              induction failed
            exact ⟨item :: before, failing, after, middle, rfl,
              (cons_ok head).trans run, stopped⟩
  · rintro ⟨before, item, after, middle, rfl, run, stopped⟩
    rw [append_ok run, cons_error stopped]

/-- A property of the items done so far and the state they led to, kept by each
item that does not fail, holds at the end. -/
theorem preserves (property : List Item → State → Prop) {first last : State}
    {items : List Item} (initial : property [] first)
    (kept : ∀ done item before after, done.foldlM step first = .ok before →
      property done before → step before item = .ok after →
      property (done ++ [item]) after)
    (run : items.foldlM step first = .ok last) : property items last := by
  induction items using List.reverseRecOn generalizing last with
  | nil =>
      cases run
      exact initial
  | append_singleton done item induction =>
      obtain ⟨before, after, prior, head, rest⟩ := split_ok run
      cases rest
      exact kept done item before last prior (induction prior) head

/-- A loop follows another whose states stay related to its own. -/
theorem simulates {OtherState : Type}
    {otherStep : OtherState → Item → Except Error OtherState}
    {related : State → OtherState → Prop} {first last : State}
    {items : List Item} {other : OtherState}
    (run : items.foldlM step first = .ok last) (initial : related first other)
    (follows : ∀ before after item other, related before other →
      step before item = .ok after →
      ∃ next, otherStep other item = .ok next ∧ related after next) :
    ∃ next, items.foldlM otherStep other = .ok next ∧ related last next := by
  induction items generalizing first other with
  | nil =>
      cases run
      exact ⟨other, rfl, initial⟩
  | cons item items induction =>
      rw [List.foldlM_cons] at run
      obtain ⟨middle, head, rest⟩ := bind_ok run
      obtain ⟨next, otherHead, nextRelated⟩ := follows _ _ _ _ initial head
      obtain ⟨final, otherRest, finalRelated⟩ := induction rest nextRelated
      exact ⟨final, (cons_ok otherHead).trans otherRest, finalRelated⟩

/-- A part of the state that each item may give anew is, at the end, what the last
item to give it has given. -/
theorem last_given {Part : Type} (part : State → Part)
    (given : Item → Option Part)
    (assigns : ∀ before item after, step before item = .ok after →
      part after = (given item).getD (part before))
    {first last : State} {items : List Item}
    (run : items.foldlM step first = .ok last) :
    part last = ((items.filterMap given).getLast?).getD (part first) := by
  refine preserves (fun done state =>
    part state = ((done.filterMap given).getLast?).getD (part first)) rfl ?_ run
  intro done item before after _ holds head
  rw [assigns before item after head, holds, List.filterMap_append]
  cases gives : given item with
  | none => simp [gives]
  | some value => simp [gives]

end HttpsServer.Data.Fold
