import Mathlib.Data.List.Basic

namespace HttpsServer.Data

/-- An input stream with its position between the items taken so far, the last
one first, and those that are still unread. -/
structure InputStream (Item : Type) where
  taken : List Item
  unread : List Item
  good : Bool

namespace InputStream

variable {Item : Type}

def ofList (items : List Item) : InputStream Item := ⟨[], items, true⟩

/-- The next item. A read that fails returns `endOfFile`, and the stream is not
good from then on. -/
def get (endOfFile : Item) : InputStream Item → Item × InputStream Item
  | ⟨taken, item :: unread, true⟩ => (item, ⟨item :: taken, unread, true⟩)
  | ⟨taken, unread, _⟩ => (endOfFile, ⟨taken, unread, false⟩)

/-- Puts the last item back that was taken. -/
def unget : InputStream Item → InputStream Item
  | ⟨item :: taken, unread, true⟩ => ⟨taken, item :: unread, true⟩
  | ⟨taken, unread, _⟩ => ⟨taken, unread, false⟩

@[simp] theorem get_cons (endOfFile : Item) (taken unread : List Item)
    (item : Item) :
    (InputStream.mk taken (item :: unread) true).get endOfFile =
      (item, ⟨item :: taken, unread, true⟩) := rfl

@[simp] theorem get_nil (endOfFile : Item) (taken : List Item) (good : Bool) :
    (InputStream.mk taken [] good).get endOfFile =
      (endOfFile, ⟨taken, [], false⟩) := rfl

@[simp] theorem unget_cons (taken unread : List Item) (item : Item) :
    (InputStream.mk (item :: taken) unread true).unget =
      ⟨taken, item :: unread, true⟩ := rfl

/-- What the stream was made of; no operation changes it. -/
def contents (input : InputStream Item) : List Item :=
  input.taken.reverse ++ input.unread

theorem contents_cons (taken unread : List Item) (item : Item)
    (good other : Bool) :
    (InputStream.mk (item :: taken) unread good).contents =
      (InputStream.mk taken (item :: unread) other).contents := by
  simp only [contents, List.reverse_cons, List.append_assoc,
    List.singleton_append]

theorem get_contents (endOfFile : Item) (input : InputStream Item) :
    (input.get endOfFile).2.contents = input.contents := by
  unfold get
  split
  · exact contents_cons _ _ _ _ _
  · rfl

theorem unget_contents (input : InputStream Item) :
    input.unget.contents = input.contents := by
  unfold unget
  split
  · exact (contents_cons _ _ _ _ _).symm
  · rfl

def remaining (input : InputStream Item) : List Item :=
  if input.good then input.unread else []

theorem remaining_length_le (input : InputStream Item) :
    input.remaining.length ≤ input.unread.length := by
  unfold remaining
  split
  · exact Nat.le_refl _
  · exact Nat.zero_le _

/-- `after` is `input` with its position moved to where `rest` is left. -/
structure MovedTo (input : InputStream Item) (rest : List Item)
    (after : InputStream Item) : Prop where
  unread : after.unread = rest
  contents : after.contents = input.contents
  ended : after.good = false → rest = []

theorem MovedTo.remaining {input after : InputStream Item} {rest : List Item}
    (moved : input.MovedTo rest after) : after.remaining = rest := by
  unfold InputStream.remaining
  split
  next => exact moved.unread
  next ended => exact (moved.ended (Bool.eq_false_iff.mpr ended)).symm

theorem MovedTo.of_contents {input other after : InputStream Item}
    {rest : List Item} (moved : other.MovedTo rest after)
    (same : other.contents = input.contents) : input.MovedTo rest after :=
  ⟨moved.unread, moved.contents.trans same, moved.ended⟩

end InputStream

end HttpsServer.Data
