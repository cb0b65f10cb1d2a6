import HttpsServer.Data.Run

namespace HttpsServer.Serve

open HttpsServer.Data

/-! Who is responsible for a session at each moment of its life. -/

inductive Phase where
  /-- An accept is outstanding on its socket. -/
  | waiting
  /-- A thread is to start it. -/
  | spawned
  | handshaking
  | reading
  | writing
  /-- Nothing will happen to it any more, and it has not been deleted. -/
  | finished
  | deleted
  deriving DecidableEq

/-- What is reported for a session, with whether it is an error. -/
inductive Signal where
  | accepted (error : Bool)
  | started
  | shaken (error : Bool)
  | received (error : Bool)
  | written (error : Bool)
  deriving DecidableEq

inductive Moves : Phase → Signal → Phase → Prop
  | accepted : Moves .waiting (.accepted false) .spawned
  | notAccepted : Moves .waiting (.accepted true) .deleted
  | handshake : Moves .spawned .started .handshaking
  | read : Moves .spawned .started .reading
  | shaken : Moves .handshaking (.shaken false) .reading
  | notShaken : Moves .handshaking (.shaken true) .deleted
  | append : Moves .reading (.received false) .reading
  | respond : Moves .reading (.received false) .writing
  | notReceived : Moves .reading (.received true) .deleted
  | written : Moves .writing (.written false) .finished
  | notWritten : Moves .writing (.written true) .deleted

/-- One signal for one of the sessions that have been allocated. An accept makes
room for the next session. -/
inductive Advances : List Phase → Nat × Signal → List Phase → Prop
  | accept {phases : List Phase} {session : Nat} {error : Bool} {next : Phase}
      (found : phases[session]? = some .waiting)
      (move : Moves .waiting (.accepted error) next) :
      Advances phases (session, .accepted error)
        (phases.set session next ++ [.waiting])
  | move {phases : List Phase} {session : Nat} {signal : Signal}
      {phase next : Phase} (found : phases[session]? = some phase)
      (later : phase ≠ .waiting) (move : Moves phase signal next) :
      Advances phases (session, signal) (phases.set session next)

theorem getElem?_append_singleton (phases : List Phase) (next : Phase)
    (session : Nat) :
    (phases ++ [next])[session]? =
      if session = phases.length then some next else phases[session]? := by
  split
  next same =>
    rw [same]
    exact List.getElem?_concat_length
  next other =>
    by_cases bound : session < phases.length
    · exact List.getElem?_append_left bound
    · rw [List.getElem?_eq_none (by rw [List.length_append]; simp; omega),
        List.getElem?_eq_none (Nat.le_of_not_lt bound)]

theorem getElem?_set_found {Item : Type} {items : List Item} {index : Nat}
    {item : Item} (found : items[index]? = some item) (next : Item)
    (other : Nat) :
    (items.set index next)[other]? =
      if index = other then some next else items[other]? := by
  obtain ⟨bound, _⟩ := List.getElem?_eq_some_iff.mp found
  rw [List.getElem?_set, if_pos bound]

theorem Moves.next_ne_waiting {phase next : Phase} {signal : Signal}
    (move : Moves phase signal next) : next ≠ .waiting := by
  cases move <;> decide

theorem Moves.next_ne_spawned {phase next : Phase} {signal : Signal}
    (move : Moves phase signal next) (later : phase ≠ .waiting) :
    next ≠ .spawned := by
  cases move with
  | accepted => contradiction
  | _ => decide

def LastWaits (phases : List Phase) : Prop :=
  ∀ session, phases[session]? = some .waiting ↔ session + 1 = phases.length

theorem Advances.lastWaits {before after : List Phase} {label : Nat × Signal}
    (step : Advances before label after) (waits : LastWaits before) :
    LastWaits after := by
  intro session
  cases step with
  | accept found move =>
      rename_i accepted error next
      have last := (waits accepted).mp found
      have notWaiting := move.next_ne_waiting
      rw [getElem?_append_singleton, getElem?_set_found found, List.length_set,
        List.length_append, List.length_set, List.length_singleton]
      by_cases new : session = before.length
      · rw [if_pos new]
        exact iff_of_true rfl (by omega)
      · rw [if_neg new]
        refine iff_of_false ?_ (by omega)
        split
        next => simp [notWaiting]
        next other =>
          rw [waits session]
          omega
  | move found later move =>
      rename_i moved signal phase next
      have notWaiting := move.next_ne_waiting
      rw [getElem?_set_found found, List.length_set, ← waits session]
      split
      next same =>
        subst same
        rw [found]
        simp [notWaiting, later]
      next => rfl

theorem Advances.nonempty {before after : List Phase} {label : Nat × Signal}
    (step : Advances before label after) : after ≠ [] := by
  cases step with
  | accept found move => simp
  | move found later move =>
      obtain ⟨bound, _⟩ := List.getElem?_eq_some_iff.mp found
      apply List.ne_nil_of_length_pos
      rw [List.length_set]
      exact Nat.lt_of_le_of_lt (Nat.zero_le _) bound

/-! When a session is left finished. -/

theorem Moves.finished_iff {phase next : Phase} {signal : Signal}
    (move : Moves phase signal next) :
    next = .finished ↔ signal = .written false := by
  cases move <;> simp

theorem Moves.not_finished {phase next : Phase} {signal : Signal}
    (move : Moves phase signal next) : phase ≠ .finished := by
  cases move <;> decide

theorem finished_mem_set_iff {phases : List Phase} {session : Nat}
    {phase next : Phase} (found : phases[session]? = some phase)
    (notFinished : phase ≠ .finished) :
    .finished ∈ phases.set session next ↔
      next = .finished ∨ .finished ∈ phases := by
  simp only [List.mem_iff_getElem?, getElem?_set_found found]
  constructor
  · rintro ⟨other, held⟩
    split at held
    next => exact .inl (Option.some.inj held)
    next => exact .inr ⟨other, held⟩
  · rintro (rfl | ⟨other, held⟩)
    · exact ⟨session, if_pos rfl⟩
    · refine ⟨other, ?_⟩
      rw [if_neg, held]
      rintro rfl
      rw [found] at held
      exact notFinished (Option.some.inj held)

theorem Advances.finished_mem_iff {before after : List Phase}
    {label : Nat × Signal} (step : Advances before label after) :
    .finished ∈ after ↔ label.2 = .written false ∨ .finished ∈ before := by
  cases step with
  | accept found move =>
      rw [List.mem_append, finished_mem_set_iff found move.not_finished,
        move.finished_iff]
      simp
  | move found later move =>
      rw [finished_mem_set_iff found move.not_finished, move.finished_iff]

theorem finished_not_mem_iff {first last : List Phase}
    {labels : List (Nat × Signal)} (run : Run Advances first labels last)
    (initial : .finished ∉ first) :
    .finished ∉ last ↔ ∀ label ∈ labels, label.2 ≠ .written false := by
  rw [← run.restrict_labels_iff fun label => label.2 ≠ .written false]
  refine run.restrict_iff (fun phases => .finished ∉ phases)
    (fun _ label => label.2 ≠ .written false) ?_ ?_ initial
  · intro before label after step notFinished
    rw [step.finished_mem_iff, not_or]
    exact and_iff_left notFinished
  · intro before label after step notFinished finished
    exact notFinished (step.finished_mem_iff.mpr (.inr finished))

end HttpsServer.Serve
