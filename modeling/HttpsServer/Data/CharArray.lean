import HttpsServer.Data.Text

namespace HttpsServer.Data

/-! A fixed array of characters, read as a string that the first NUL ends. -/

def nul : Char := '\x00'

structure CharArray (size : Nat) where
  cells : Text
  length_cells : cells.length = size

namespace CharArray

variable {size : Nat}

/-- `memset` of all cells to NUL. -/
def zeroed (size : Nat) : CharArray size where
  cells := List.replicate size nul
  length_cells := List.length_replicate

/-- The characters before the first NUL; none when no cell holds one. -/
def text? (array : CharArray size) : Option Text :=
  if nul ∈ array.cells then some (array.cells.takeWhile (· ≠ nul)) else none

def store (array : CharArray size) (offset : Nat) (chunk : Text)
    (fits : offset + chunk.length ≤ size) : CharArray size where
  cells := array.cells.take offset ++ chunk ++
    array.cells.drop (offset + chunk.length)
  length_cells := by
    have length := array.length_cells
    simp only [List.length_append, List.length_take, List.length_drop]
    omega

/-- The array holds a text at its start, and NUL everywhere behind it. -/
def Holds (array : CharArray size) (text : Text) : Prop :=
  text.length ≤ size ∧
    array.cells = text ++ List.replicate (size - text.length) nul

theorem holds_zeroed : (zeroed size).Holds [] :=
  ⟨Nat.zero_le size, rfl⟩

theorem Holds.store {array : CharArray size} {text chunk : Text}
    (holds : array.Holds text) (fits : text.length + chunk.length ≤ size) :
    (array.store text.length chunk fits).Holds (text ++ chunk) := by
  obtain ⟨_, cells⟩ := holds
  refine ⟨by rwa [List.length_append], ?_⟩
  change array.cells.take text.length ++ chunk ++
    array.cells.drop (text.length + chunk.length) = _
  rw [cells, List.take_left, List.drop_append, List.drop_replicate,
    List.length_append, Nat.sub_sub]
  have behind : text.drop (text.length + chunk.length) = [] :=
    List.drop_eq_nil_of_le (Nat.le_add_right _ _)
  have offset : text.length + chunk.length - text.length = chunk.length :=
    Nat.add_sub_cancel_left _ _
  rw [behind, offset, List.nil_append]

theorem Holds.text? {array : CharArray size} {text : Text}
    (holds : array.Holds text) (clean : nul ∉ text)
    (short : text.length < size) : array.text? = some text := by
  obtain ⟨_, cells⟩ := holds
  have positive : size - text.length ≠ 0 := by omega
  have terminated : nul ∈ array.cells := by
    rw [cells]
    exact List.mem_append_right _ (List.mem_replicate.mpr ⟨positive, rfl⟩)
  rw [CharArray.text?, if_pos terminated, cells]
  have before : ∀ character ∈ text, decide (character ≠ nul) = true := by
    intro character member
    rw [decide_eq_true_eq]
    rintro rfl
    exact clean member
  rw [List.takeWhile_append_of_pos before, List.takeWhile_replicate]
  simp

end CharArray

end HttpsServer.Data
