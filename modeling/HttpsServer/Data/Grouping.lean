import Mathlib.Algebra.GroupWithZero.Nat
import Mathlib.Data.List.Basic

namespace HttpsServer.Data.Grouping

open Std

/-! Keyed values collected in a map, and occurrences counted in one. -/

section PermFilter

variable {Item Key : Type} [DecidableEq Key]

theorem flatMap_filter_perm {keyOf : Item → Key} {keys : List Key}
    {items : List Item} (nodup : keys.Nodup)
    (covers : ∀ item ∈ items, keyOf item ∈ keys) :
    (keys.flatMap fun key => items.filter (keyOf · = key)).Perm items := by
  induction keys generalizing items with
  | nil =>
      cases items with
      | nil => exact .nil
      | cons item items =>
          have member := covers item List.mem_cons_self
          cases member
  | cons key keys induction =>
      obtain ⟨fresh, nodup⟩ := List.nodup_cons.mp nodup
      let others := items.filter fun item => !decide (keyOf item = key)
      have otherCovers : ∀ item ∈ others, keyOf item ∈ keys := by
        intro item member
        obtain ⟨listed, different⟩ := List.mem_filter.mp member
        rcases List.mem_cons.mp (covers item listed) with same | later
        · simp [same] at different
        · exact later
      -- The items of the other keys are left when those of `key` are taken out.
      have same : (keys.flatMap fun other => others.filter (keyOf · = other)) =
          keys.flatMap fun other => items.filter (keyOf · = other) := by
        apply List.flatMap_congr
        intro other member
        rw [List.filter_filter]
        apply List.filter_congr
        intro item _
        have different : other ≠ key := fun equal => fresh (equal ▸ member)
        by_cases equal : keyOf item = other
        · simp [equal, different]
        · simp [equal]
      rw [List.flatMap_cons, ← same]
      exact ((induction nodup otherCovers).append_left _).trans
        (List.filter_append_perm _ items)

end PermFilter

section Groups

variable {Key Value : Type} [DecidableEq Key] {order : Key → Key → Ordering}

def valuesOf (items : List (Key × Value)) (key : Key) : List Value :=
  (items.filter (·.1 = key)).map Prod.snd

/-- The map has the values of each key, in the order of the items, and no key
without a value. -/
def Groups (groups : TreeMap Key (List Value) order)
    (items : List (Key × Value)) : Prop :=
  ∀ key, groups[key]? =
    if valuesOf items key = [] then none else some (valuesOf items key)

theorem valuesOf_append (items : List (Key × Value)) (item : Key × Value)
    (key : Key) :
    valuesOf (items ++ [item]) key =
      valuesOf items key ++ if item.1 = key then [item.2] else [] := by
  rw [valuesOf, List.filter_append, List.map_append, valuesOf]
  congr 1
  by_cases same : item.1 = key
  · simp [same]
  · simp [same]

theorem getD_groups {groups : TreeMap Key (List Value) order}
    {items : List (Key × Value)}
    (grouped : Groups groups items) (key : Key) :
    (groups[key]?).getD [] = valuesOf items key := by
  rw [grouped key]
  split
  next empty => exact empty.symm
  next => rfl

theorem groups_empty [TransCmp order] :
    Groups (∅ : TreeMap Key (List Value) order) ([] : List (Key × Value)) := by
  intro key
  rw [TreeMap.getElem?_emptyc]
  rfl

variable [TransCmp order] [LawfulEqCmp order]

theorem Groups.insert {groups : TreeMap Key (List Value) order}
    {items : List (Key × Value)} (grouped : Groups groups items)
    (item : Key × Value) :
    Groups (groups.insert item.1 ((groups[item.1]?).getD [] ++ [item.2]))
      (items ++ [item]) := by
  intro key
  rw [TreeMap.getElem?_insert, getD_groups grouped, valuesOf_append]
  by_cases same : item.1 = key
  · have equal : order item.1 key = .eq := LawfulEqCmp.compare_eq_iff_eq.mpr same
    have nonempty : valuesOf items key ++ [item.2] ≠ [] :=
      List.append_ne_nil_of_right_ne_nil _ (List.cons_ne_nil _ _)
    rw [if_pos equal, if_pos same, if_neg nonempty, same]
  · have different : ¬ order item.1 key = .eq := fun equal =>
      same (LawfulEqCmp.compare_eq_iff_eq.mp equal)
    rw [if_neg different, if_neg same, List.append_nil]
    exact grouped key

/-- The values of the map with their keys, in its order. -/
def flatten (groups : TreeMap Key (List Value) order) : List (Key × Value) :=
  groups.toList.flatMap fun entry => entry.2.map fun value => (entry.1, value)

theorem filter_eq_map_valuesOf (items : List (Key × Value)) (key : Key) :
    items.filter (·.1 = key) = (valuesOf items key).map fun value =>
      (key, value) := by
  rw [valuesOf, List.map_map]
  have unchanged : (items.filter (·.1 = key)).map id =
      items.filter (·.1 = key) := List.map_id _
  rw [← unchanged, List.map_map]
  apply List.map_congr_left
  intro item member
  have same := of_decide_eq_true (List.mem_filter.mp member).2
  exact Prod.ext same rfl

theorem Groups.flatten_perm {groups : TreeMap Key (List Value) order}
    {items : List (Key × Value)} (grouped : Groups groups items) :
    (flatten groups).Perm items := by
  have keysNodup : groups.keys.Nodup := TreeMap.nodup_keys
  have covers : ∀ item ∈ items, item.1 ∈ groups.keys := by
    intro item member
    have value : item.2 ∈ valuesOf items item.1 := List.mem_map.mpr
      ⟨item, List.mem_filter.mpr ⟨member, decide_eq_true rfl⟩, rfl⟩
    have present : groups[item.1]? = some (valuesOf items item.1) := by
      rw [grouped item.1, if_neg (List.ne_nil_of_mem value)]
    have entry := TreeMap.mem_toList_iff_getElem?_eq_some.mpr present
    rw [← TreeMap.map_fst_toList_eq_keys]
    exact List.mem_map.mpr ⟨_, entry, rfl⟩
  have flattened : flatten groups =
      groups.keys.flatMap fun key => items.filter (·.1 = key) := by
    rw [← TreeMap.map_fst_toList_eq_keys, List.flatMap_map, flatten]
    apply List.flatMap_congr
    intro entry member
    have found := TreeMap.mem_toList_iff_getElem?_eq_some.mp member
    have values := getD_groups grouped entry.1
    rw [found, Option.getD_some] at values
    rw [filter_eq_map_valuesOf, values]
  rw [flattened]
  exact flatMap_filter_perm keysNodup covers

end Groups

section Tally

variable {Key : Type} [DecidableEq Key] {order : Key → Key → Ordering}

/-- One more occurrence, of a key that may be new to the map. -/
def tallyOne (counts : TreeMap Key Nat order) (key : Key) :
    TreeMap Key Nat order :=
  if counts.contains key then
    counts.insert key ((counts[key]?).getD 0 + 1)
  else counts.insert key 1

def occurrences (keys : List Key) (key : Key) : Nat :=
  keys.countP (· = key)

/-- The map counts the occurrences of each key, and has no other keys. -/
def Counts (counts : TreeMap Key Nat order) (keys : List Key) : Prop :=
  ∀ key, counts[key]? = if key ∈ keys then some (occurrences keys key) else none

theorem occurrences_append (keys : List Key) (key other : Key) :
    occurrences (keys ++ [key]) other =
      occurrences keys other + if key = other then 1 else 0 := by
  rw [occurrences, List.countP_append, occurrences, List.countP_singleton]
  simp only [decide_eq_true_eq]

theorem occurrences_of_not_mem {keys : List Key} {key : Key}
    (absent : key ∉ keys) : occurrences keys key = 0 := by
  rw [occurrences, List.countP_eq_zero]
  intro other listed
  simpa using ne_of_mem_of_not_mem listed absent

theorem Counts.perm {counts : TreeMap Key Nat order} {left right : List Key}
    (counted : Counts counts left) (same : left.Perm right) :
    Counts counts right := by
  intro key
  rw [counted key, occurrences, occurrences, same.countP_eq,
    if_congr same.mem_iff rfl rfl]

variable [TransCmp order] [LawfulEqCmp order]

theorem tallyOne_getElem? (counts : TreeMap Key Nat order) (key other : Key) :
    (tallyOne counts key)[other]? =
      if key = other then some ((counts[key]?).getD 0 + 1)
      else counts[other]? := by
  have equal_iff : order key other = .eq ↔ key = other :=
    LawfulEqCmp.compare_eq_iff_eq
  rw [tallyOne]
  split
  next => rw [TreeMap.getElem?_insert, if_congr equal_iff rfl rfl]
  next absent =>
    have missing : counts[key]? = none := by
      rw [TreeMap.contains_eq_isSome_getElem?] at absent
      exact Option.not_isSome_iff_eq_none.mp absent
    rw [TreeMap.getElem?_insert, if_congr equal_iff rfl rfl, missing]
    rfl

theorem Counts.tallyOne {counts : TreeMap Key Nat order} {keys : List Key}
    (counted : Counts counts keys) (key : Key) :
    Counts (tallyOne counts key) (keys ++ [key]) := by
  intro other
  rw [tallyOne_getElem?, counted other, counted key, occurrences_append]
  by_cases same : key = other
  · subst same
    by_cases member : key ∈ keys
    · simp [member]
    · simp [member, occurrences_of_not_mem member]
  · have different : other ≠ key := Ne.symm same
    simp [same, different]

theorem counts_foldl {counts : TreeMap Key Nat order} {keys : List Key}
    (counted : Counts counts keys) (more : List Key) :
    Counts (more.foldl Grouping.tallyOne counts) (keys ++ more) := by
  induction more generalizing counts keys with
  | nil =>
      rw [List.append_nil]
      exact counted
  | cons key more induction =>
      rw [List.foldl_cons, List.append_cons]
      exact induction (counted.tallyOne key)

omit [LawfulEqCmp order] in
theorem counts_empty : Counts (∅ : TreeMap Key Nat order) [] := by
  intro key
  rw [TreeMap.getElem?_emptyc]
  rfl

theorem Counts.mem_toList {counts : TreeMap Key Nat order} {keys : List Key}
    (counted : Counts counts keys) (key : Key) (number : Nat) :
    (key, number) ∈ counts.toList ↔ key ∈ keys ∧ occurrences keys key = number := by
  rw [TreeMap.mem_toList_iff_getElem?_eq_some, counted key]
  split
  next member => simp [member]
  next absent => simp [absent]

/-- The counts add up to the number of occurrences. -/
theorem Counts.sum {counts : TreeMap Key Nat order} {keys : List Key}
    (counted : Counts counts keys) :
    (counts.toList.map Prod.snd).sum = keys.length := by
  have covers : ∀ key ∈ keys, id key ∈ counts.keys := by
    intro key member
    have entry := (counted.mem_toList key _).mpr ⟨member, rfl⟩
    rw [← TreeMap.map_fst_toList_eq_keys]
    exact List.mem_map.mpr ⟨_, entry, rfl⟩
  have grouped := flatMap_filter_perm TreeMap.nodup_keys covers
  rw [← grouped.length_eq, List.length_flatMap, ← TreeMap.map_fst_toList_eq_keys,
    List.map_map]
  congr 1
  apply List.map_congr_left
  intro entry member
  have number := ((counted.mem_toList entry.1 entry.2).mp member).2
  rw [← number, occurrences, List.countP_eq_length_filter]
  rfl

end Tally

end HttpsServer.Data.Grouping
