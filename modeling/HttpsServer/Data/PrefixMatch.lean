import Std.Data.TreeMap.Lemmas

namespace HttpsServer.Data.PrefixMatch

open Std

/-! The entry with the longest key that is a prefix of a given list, found by one
pass with a running maximum. -/

variable {Symbol Value : Type}

theorem take_length_eq_iff (key text : List Symbol) :
    text.take key.length = key ↔ key <+: text :=
  ⟨fun equal => List.prefix_iff_eq_take.mpr equal.symm,
    fun leading => (List.prefix_iff_eq_take.mp leading).symm⟩

theorem prefix_unique {left right text : List Symbol}
    (leftPrefix : left <+: text) (rightPrefix : right <+: text)
    (sameLength : left.length = right.length) : left = right := by
  rw [List.prefix_iff_eq_take.mp leftPrefix,
    List.prefix_iff_eq_take.mp rightPrefix, sameLength]

variable [DecidableEq Symbol]

/-- Takes over an entry whose key matches and is longer than the best so far. -/
def improve (text : List Symbol) (best entry : List Symbol × Value) :
    List Symbol × Value :=
  if text.take entry.1.length = entry.1 ∧ best.1.length < entry.1.length then
    entry
  else best

/-- The pass over all entries, from the empty key and a value of its own. -/
def longest (text : List Symbol) (absent : Value)
    (entries : List (List Symbol × Value)) : List Symbol × Value :=
  entries.foldl (improve text) ([], absent)

/-- `best` is a longest match among `entries` and what was there before them. -/
structure Best (text : List Symbol) (entries : List (List Symbol × Value))
    (before best : List Symbol × Value) : Prop where
  origin : best = before ∨ best ∈ entries ∧ best.1 <+: text
  improves : before.1.length ≤ best.1.length
  strict : best ≠ before → before.1.length < best.1.length
  maximal : ∀ entry ∈ entries, entry.1 <+: text →
    entry.1.length ≤ best.1.length

theorem best_foldl (text : List Symbol) (entries : List (List Symbol × Value))
    (before : List Symbol × Value) :
    Best text entries before (entries.foldl (improve text) before) := by
  induction entries generalizing before with
  | nil => exact ⟨.inl rfl, Nat.le_refl _, absurd rfl, nofun⟩
  | cons entry entries induction =>
      rw [List.foldl_cons]
      by_cases better : text.take entry.1.length = entry.1 ∧
          before.1.length < entry.1.length
      · have improved : improve text before entry = entry := if_pos better
        rw [improved]
        have rest := induction entry
        have leading := (take_length_eq_iff _ _).mp better.1
        have longer := Nat.lt_of_lt_of_le better.2 rest.improves
        refine ⟨.inr ?_, Nat.le_of_lt longer, fun _ => longer, ?_⟩
        · rcases rest.origin with same | ⟨member, isPrefix⟩
          · rw [same]
            exact ⟨List.mem_cons_self, leading⟩
          · exact ⟨List.mem_cons_of_mem _ member, isPrefix⟩
        · intro other member isPrefix
          rcases List.mem_cons.mp member with rfl | member
          · exact rest.improves
          · exact rest.maximal other member isPrefix
      · have kept : improve text before entry = before := if_neg better
        rw [kept]
        have rest := induction before
        refine ⟨?_, rest.improves, rest.strict, ?_⟩
        · rcases rest.origin with same | ⟨member, isPrefix⟩
          · exact .inl same
          · exact .inr ⟨List.mem_cons_of_mem _ member, isPrefix⟩
        · intro other member isPrefix
          rcases List.mem_cons.mp member with rfl | member
          · have notLonger : ¬ before.1.length < other.1.length := fun longer =>
              better ⟨(take_length_eq_iff _ _).mpr isPrefix, longer⟩
            exact Nat.le_trans (Nat.le_of_not_lt notLonger) rest.improves
          · exact rest.maximal other member isPrefix

/-- The pass finds an entry with a non-empty key that matches and is at least as
long as every other match, or there is no such entry. -/
theorem longest_cases (text : List Symbol) (absent : Value)
    (entries : List (List Symbol × Value)) :
    (∃ key value, longest text absent entries = (key, value) ∧ key ≠ [] ∧
      (key, value) ∈ entries ∧ key <+: text ∧
      ∀ entry ∈ entries, entry.1 <+: text → entry.1.length ≤ key.length) ∨
    (longest text absent entries = ([], absent) ∧
      ∀ entry ∈ entries, entry.1 <+: text → entry.1 = []) := by
  have best := best_foldl text entries ([], absent)
  rcases best.origin with same | ⟨member, isPrefix⟩
  · refine .inr ⟨same, fun entry entryMember leading => ?_⟩
    have bound := best.maximal entry entryMember leading
    rw [same] at bound
    exact List.eq_nil_of_length_eq_zero (Nat.le_zero.mp bound)
  · by_cases same : entries.foldl (improve text) ([], absent) = ([], absent)
    · refine .inr ⟨same, fun entry entryMember leading => ?_⟩
      have bound := best.maximal entry entryMember leading
      rw [same] at bound
      exact List.eq_nil_of_length_eq_zero (Nat.le_zero.mp bound)
    · refine .inl ⟨_, _, rfl, ?_, member, isPrefix, best.maximal⟩
      intro empty
      have longer := best.strict same
      rw [empty] at longer
      exact Nat.lt_irrefl _ longer

theorem longest_map_cases {Image : Type}
    {order : List Symbol → List Symbol → Ordering} [TransCmp order]
    [LawfulEqCmp order] (text : List Symbol) (absent : Image)
    (map : TreeMap (List Symbol) Value order) (image : Value → Image) :
    (∃ key value,
      (longest text absent
        (map.toList.map fun entry => (entry.1, image entry.2))).2 = image value ∧
      key ≠ [] ∧ map[key]? = some value ∧ key <+: text ∧
      ∀ other, map.contains other = true → other <+: text →
        other.length ≤ key.length) ∨
    ((longest text absent
        (map.toList.map fun entry => (entry.1, image entry.2))).2 = absent ∧
      ∀ other, map.contains other = true → other <+: text → other = []) := by
  have listed : ∀ other, map.contains other = true → ∃ value,
      (other, image value) ∈
        map.toList.map fun entry => (entry.1, image entry.2) := by
    intro other present
    rw [TreeMap.contains_eq_isSome_getElem?] at present
    obtain ⟨value, found⟩ := Option.isSome_iff_exists.mp present
    refine ⟨value, List.mem_map.mpr ⟨(other, value), ?_, rfl⟩⟩
    exact TreeMap.mem_toList_iff_getElem?_eq_some.mpr found
  rcases longest_cases text absent
      (map.toList.map fun entry => (entry.1, image entry.2)) with
    ⟨key, value, found, nonempty, member, isPrefix, maximal⟩ |
    ⟨found, unmatched⟩
  · obtain ⟨⟨mapKey, mapValue⟩, inMap, equal⟩ := List.mem_map.mp member
    cases equal
    refine .inl ⟨mapKey, mapValue, congrArg Prod.snd found, nonempty,
      TreeMap.mem_toList_iff_getElem?_eq_some.mp inMap, isPrefix, ?_⟩
    intro other present leading
    obtain ⟨otherValue, entry⟩ := listed other present
    exact maximal _ entry leading
  · refine .inr ⟨congrArg Prod.snd found, ?_⟩
    intro other present leading
    obtain ⟨otherValue, entry⟩ := listed other present
    exact unmatched _ entry leading

end HttpsServer.Data.PrefixMatch
