import Mathlib.Algebra.BigOperators.Group.Finset.Basic
import HttpsServer.Data.Run

namespace HttpsServer.Data

/-! Components that take turns, each with a state of its own and all with one that
they share. -/

structure Together (Index Local Shared : Type) where
  component : Index → Local
  shared : Shared

/-- The labels of one component, out of those of all. -/
def own {Index Label : Type} [DecidableEq Index] (index : Index)
    (labels : List (Index × Label)) : List Label :=
  (labels.filter (·.1 = index)).map Prod.snd

theorem mem_own {Index Label : Type} [DecidableEq Index] {index : Index}
    {label : Label} {labels : List (Index × Label)} :
    label ∈ own index labels ↔ (index, label) ∈ labels := by
  simp [own]

/-- A sum over items of which one is replaced by one that adds to its part. -/
theorem sum_set {Item Total : Type} [AddCommMonoid Total] (part : Item → Total)
    {items : List Item} {index : Nat} {item next : Item} {more : Total}
    (found : items[index]? = some item) (added : part next = part item + more) :
    ((items.set index next).map part).sum = (items.map part).sum + more := by
  induction items generalizing index with
  | nil => contradiction
  | cons head items induction =>
      cases index with
      | zero =>
          cases found
          rw [List.set_cons_zero, List.map_cons, List.sum_cons, added,
            List.map_cons, List.sum_cons, add_right_comm]
      | succ index =>
          rw [List.set_cons_succ, List.map_cons, List.sum_cons,
            induction found, List.map_cons, List.sum_cons, add_assoc]

namespace Together

variable {Index Local Shared Label : Type} [DecidableEq Index]

/-- One component makes a step with what is shared, and the others keep still. -/
inductive Turns (step : Local × Shared → Label → Local × Shared → Prop) :
    Together Index Local Shared → Index × Label →
      Together Index Local Shared → Prop
  | turn {state : Together Index Local Shared} {index : Index} {label : Label}
      {next : Local} {shared : Shared}
      (moves : step (state.component index, state.shared) label (next, shared)) :
      Turns step state (index, label)
        ⟨Function.update state.component index next, shared⟩

section Project

variable {step : Local × Shared → Label → Local × Shared → Prop}

/-- What a component does while the others may change what is shared before each
of its steps. -/
def Amid (step : Local × Shared → Label → Local × Shared → Prop)
    (before : Local) (label : Label) (after : Local) : Prop :=
  ∃ shared last, step (before, shared) label (after, last)

theorem own_cons (index : Index) (label : Index × Label)
    (labels : List (Index × Label)) :
    own index (label :: labels) =
      if label.1 = index then label.2 :: own index labels
      else own index labels := by
  by_cases same : label.1 = index
  · simp [own, same]
  · simp [own, same]

/-- An interleaved run is a run of each of its components. -/
theorem project {first last : Together Index Local Shared}
    {labels : List (Index × Label)} (run : Run (Turns step) first labels last)
    (index : Index) :
    Run (Amid step) (first.component index) (own index labels)
      (last.component index) := by
  induction run with
  | nil => exact .nil _
  | cons head tail induction =>
      cases head with
      | @turn turned label next shared moves =>
          rw [own_cons]
          dsimp only at induction ⊢
          by_cases same : turned = index
          · subst same
            rw [if_pos rfl]
            rw [Function.update_self] at induction
            exact .cons ⟨_, shared, moves⟩ induction
          · rw [if_neg same]
            rwa [Function.update_of_ne (Ne.symm same)] at induction

end Project

section Ledger

variable {step : Local × Shared → Label → Local × Shared → Prop}
variable {Total : Type} [AddCommMonoid Total] [Fintype Index]

/-- What is shared is a ledger of what the components have contributed. -/
def Balanced (contribution : Local → Total) (ledger : Shared → Total → Prop)
    (state : Together Index Local Shared) : Prop :=
  ledger state.shared (∑ index, contribution (state.component index))

theorem sum_update (contribution : Local → Total) (component : Index → Local)
    (index : Index) (next : Local) {more : Total}
    (contributed : contribution next = contribution (component index) + more) :
    ∑ other, contribution (Function.update component index next other) =
      (∑ other, contribution (component other)) + more := by
  have member := Finset.mem_univ index
  have others :
      ∑ other ∈ Finset.univ.erase index,
        contribution (Function.update component index next other) =
      ∑ other ∈ Finset.univ.erase index, contribution (component other) := by
    apply Finset.sum_congr rfl
    intro other listed
    rw [Function.update_of_ne (Finset.ne_of_mem_erase listed)]
  rw [← Finset.add_sum_erase _ _ member, others, Function.update_self,
    contributed, ← Finset.add_sum_erase Finset.univ
      (fun other => contribution (component other)) member, add_right_comm]

/-- A ledger that each component keeps up with its own steps stays balanced,
whatever the order in which they are taken. -/
theorem balanced_run {contribution : Local → Total}
    {ledger : Shared → Total → Prop} {permitted : Label → Prop}
    (kept : ∀ {before label after shared last},
      step (before, shared) label (after, last) → permitted label →
      ∃ more, contribution after = contribution before + more ∧
        ∀ total, ledger shared total → ledger last (total + more))
    {first last : Together Index Local Shared} {labels : List (Index × Label)}
    (run : Run (Turns step) first labels last)
    (every : ∀ label ∈ labels, permitted label.2)
    (initial : Balanced contribution ledger first) :
    Balanced contribution ledger last := by
  have restricted := (run.restrict_labels_iff fun label => permitted label.2).mpr
    every
  refine restricted.preserves ?_ initial
  rintro before label after ⟨turns, allowed⟩ balanced
  cases turns with
  | @turn index label next shared moves =>
      obtain ⟨more, contributed, adds⟩ := kept moves allowed
      rw [Balanced, sum_update contribution before.component index next
        contributed]
      exact adds _ balanced

end Ledger

end Together

end HttpsServer.Data
