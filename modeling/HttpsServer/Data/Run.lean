namespace HttpsServer.Data

/-! Labelled runs of a transition relation, and the induction principles that
carry facts along them. -/

/-- A finite run: the labels of its steps, in order, between two states. -/
inductive Run (step : State → Label → State → Prop) :
    State → List Label → State → Prop
  | nil (state : State) : Run step state [] state
  | cons {first middle last : State} {label : Label} {labels : List Label}
      (head : step first label middle) (tail : Run step middle labels last) :
      Run step first (label :: labels) last

namespace Run

variable {State Label : Type} {step : State → Label → State → Prop}

theorem single {first last : State} {label : Label}
    (head : step first label last) : Run step first [label] last :=
  .cons head (.nil last)

theorem append {first middle last : State} {left right : List Label}
    (before : Run step first left middle)
    (after : Run step middle right last) :
    Run step first (left ++ right) last := by
  induction before with
  | nil => exact after
  | cons head _ induction => exact .cons head (induction after)

theorem snoc {first middle last : State} {labels : List Label} {label : Label}
    (before : Run step first labels middle) (final : step middle label last) :
    Run step first (labels ++ [label]) last :=
  before.append (single final)

theorem split {first last : State} {left right : List Label}
    (whole : Run step first (left ++ right) last) :
    ∃ middle, Run step first left middle ∧ Run step middle right last := by
  induction left generalizing first with
  | nil => exact ⟨first, .nil first, whole⟩
  | cons label labels induction =>
      cases whole with
      | cons head tail =>
          obtain ⟨middle, before, after⟩ := induction tail
          exact ⟨middle, .cons head before, after⟩

/-- A property kept by every step holds at the end of a run that starts in it. -/
theorem preserves {property : State → Prop}
    (kept : ∀ {first label last}, step first label last →
      property first → property last)
    {first last : State} {labels : List Label}
    (run : Run step first labels last) (initial : property first) :
    property last := by
  induction run with
  | nil => exact initial
  | cons head _ induction => exact induction (kept head initial)

/-- A property of the labels so far and the state they led to holds at the end when
each step keeps it. -/
theorem preserves_trace (property : List Label → State → Prop)
    (kept : ∀ {done first label last}, step first label last →
      property done first → property (done ++ [label]) last)
    {first last : State} {done labels : List Label}
    (run : Run step first labels last) (initial : property done first) :
    property (done ++ labels) last := by
  induction run generalizing done with
  | nil =>
      rw [List.append_nil]
      exact initial
  | cons head _ induction =>
      rw [List.append_cons]
      exact induction (kept head initial)

/-- A measure that grows by one at each step with a counted label. -/
theorem counts (measure : State → Nat) (counted : Label → Bool)
    (adds : ∀ {first label last}, step first label last →
      measure last = measure first + if counted label = true then 1 else 0)
    {first last : State} {labels : List Label}
    (run : Run step first labels last) :
    measure last = measure first + labels.countP counted := by
  induction run with
  | nil => rfl
  | cons head _ induction =>
      rw [induction, adds head, List.countP_cons, Nat.add_assoc,
        Nat.add_comm (List.countP _ _)]

/-- What no step can establish held at the start of a run if it holds at the
end. -/
theorem reflects {property : State → Prop}
    (lasting : ∀ {first label last}, step first label last →
      property last → property first)
    {first last : State} {labels : List Label}
    (run : Run step first labels last) (final : property last) :
    property first := by
  induction run with
  | nil => exact final
  | cons head _ induction => exact lasting head (induction final)

/-- A property that steps can only lose, and keep exactly when they are allowed,
survives a run exactly when all its steps are allowed. -/
theorem restrict_iff (property : State → Prop)
    (allowed : State → Label → Prop)
    (survives : ∀ {first label last}, step first label last → property first →
      (property last ↔ allowed first label))
    (lasting : ∀ {first label last}, step first label last → property last →
      property first)
    {first last : State} {labels : List Label}
    (run : Run step first labels last) (initial : property first) :
    property last ↔
      Run (fun before label after => step before label after ∧
        allowed before label) first labels last := by
  constructor
  · intro final
    induction run with
    | nil state => exact .nil state
    | cons head tail induction =>
        have middle := tail.reflects (fun step => lasting step) final
        exact .cons ⟨head, (survives head initial).mp middle⟩
          (induction middle final)
  · intro restricted
    refine restricted.preserves ?_ initial
    rintro before label after ⟨head, permitted⟩ holds
    exact (survives head holds).mpr permitted

/-- A run to a state that no step leads to has no steps. -/
theorem unreached {first last : State} {labels : List Label}
    (run : Run step first labels last)
    (never : ∀ before label, ¬ step before label last) :
    first = last ∧ labels = [] := by
  induction run with
  | nil => exact ⟨rfl, rfl⟩
  | cons head _ induction =>
      obtain ⟨same, _⟩ := induction never
      subst same
      exact absurd head (never _ _)

theorem deterministic
    (functional : ∀ {first label left right}, step first label left →
      step first label right → left = right)
    {first left right : State} {labels : List Label}
    (leftRun : Run step first labels left)
    (rightRun : Run step first labels right) : left = right := by
  induction leftRun with
  | nil => cases rightRun; rfl
  | cons head _ induction =>
      cases rightRun with
      | cons otherHead otherTail =>
          cases functional head otherHead
          exact induction otherTail

/-- A relation that is simulated step by step, with one step for each, is simulated
run by run. -/
theorem simulate {Abstract AbstractLabel : Type}
    {abstractStep : Abstract → AbstractLabel → Abstract → Prop}
    (related : State → Abstract → Prop) (image : Label → AbstractLabel)
    (simulates : ∀ {first label last abstract}, step first label last →
      related first abstract →
      ∃ next, abstractStep abstract (image label) next ∧ related last next)
    {first last : State} {labels : List Label} {abstract : Abstract}
    (run : Run step first labels last) (initial : related first abstract) :
    ∃ next, Run abstractStep abstract (labels.map image) next ∧
      related last next := by
  induction run generalizing abstract with
  | nil => exact ⟨abstract, .nil abstract, initial⟩
  | cons head _ induction =>
      obtain ⟨middle, moved, middleRelated⟩ := simulates head initial
      obtain ⟨next, rest, nextRelated⟩ := induction middleRelated
      exact ⟨next, .cons moved rest, nextRelated⟩

/-- Restricting the steps by their labels restricts the labels of the run. -/
theorem restrict_labels_iff (allowed : Label → Prop) {first last : State}
    {labels : List Label} (run : Run step first labels last) :
    Run (fun before label after => step before label after ∧ allowed label)
      first labels last ↔ ∀ label ∈ labels, allowed label := by
  constructor
  · intro restricted
    clear run
    induction restricted with
    | nil => exact nofun
    | cons head _ induction =>
        exact List.forall_mem_cons.mpr ⟨head.2, induction⟩
  · intro every
    induction run with
    | nil state => exact .nil state
    | cons head _ induction =>
        obtain ⟨permitted, rest⟩ := List.forall_mem_cons.mp every
        exact .cons ⟨head, permitted⟩ (induction rest)

end Run

/-- A loop with a bound on its rounds makes one before the bound matters. -/
theorem above_of_succ {need : Nat} {property : Nat → Prop}
    (more : ∀ rounds, need ≤ rounds → property (rounds + 1)) :
    ∀ rounds, need < rounds → property rounds := by
  intro rounds enough
  cases rounds with
  | zero => exact absurd enough (Nat.not_lt_zero need)
  | succ rounds => exact more rounds (Nat.le_of_lt_succ enough)

end HttpsServer.Data
