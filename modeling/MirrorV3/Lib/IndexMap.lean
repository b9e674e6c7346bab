import Mathlib.Algebra.GroupWithZero.Nat
import Mathlib.Data.List.Basic

/-! A map that keeps its entries in the order their keys were first inserted. -/

/-- Entries in insertion order, the first entry of a key being the one that counts. -/
abbrev IndexMap (κ α : Type) := List (κ × α)

namespace IndexMap

variable {κ α : Type} [DecidableEq κ]

/-- The value of a key. -/
def get? (map : IndexMap κ α) (key : κ) : Option α := map.lookup key

/-- Give a key a value: in its place when it is there, at the end when it is new. -/
def insert (map : IndexMap κ α) (key : κ) (value : α) : IndexMap κ α :=
  match map with
  | [] => [(key, value)]
  | (first, held) :: rest =>
    if first = key then (key, value) :: rest else (first, held) :: insert rest key value

/-- Take a key out, moving every later entry down. -/
def shiftRemove (map : IndexMap κ α) (key : κ) : IndexMap κ α := map.filter (·.1 ≠ key)

variable {map : IndexMap κ α} {key other : κ} {value : α}

/-- An inserted key has the value it was given. -/
@[simp] theorem get?_insert_self : (map.insert key value).get? key = some value := by
  induction map with
  | nil => simp [insert, get?]
  | cons entry rest ih =>
    obtain ⟨first, held⟩ := entry
    by_cases same : first = key
    · simp [insert, get?, same]
    · -- The search passes the first entry on both sides.
      have passed : (key == first) = false := by simpa using Ne.symm same
      simpa [insert, get?, same, List.lookup_cons, passed] using ih

/-- Inserting a key leaves the value of every other key as it is. -/
theorem get?_insert_of_ne (differs : other ≠ key) :
    (map.insert key value).get? other = map.get? other := by
  have passed : (other == key) = false := by simpa using differs
  induction map with
  | nil => simp [insert, get?, List.lookup_cons, passed]
  | cons entry rest ih =>
    obtain ⟨first, held⟩ := entry
    by_cases same : first = key
    · subst same
      simp [insert, get?, List.lookup_cons, passed]
    · simp only [insert, if_neg same, get?, List.lookup_cons]
      cases (other == first) with
      | true => rfl
      | false => exact ih

/-- A key that was taken out is not there. -/
@[simp] theorem get?_shiftRemove_self : (map.shiftRemove key).get? key = none := by
  induction map with
  | nil => rfl
  | cons entry rest ih =>
    obtain ⟨first, held⟩ := entry
    by_cases same : first = key
    · simpa [shiftRemove, get?, same] using ih
    · have passed : (key == first) = false := by simpa using Ne.symm same
      simpa [shiftRemove, get?, same, List.lookup_cons, passed] using ih

/-- Taking a key out leaves the value of every other key as it is. -/
theorem get?_shiftRemove_of_ne (differs : other ≠ key) :
    (map.shiftRemove key).get? other = map.get? other := by
  induction map with
  | nil => rfl
  | cons entry rest ih =>
    obtain ⟨first, held⟩ := entry
    by_cases same : first = key
    · subst same
      have passed : (other == first) = false := by simpa using differs
      simpa [shiftRemove, get?, List.lookup_cons, passed] using ih
    · simp only [shiftRemove, get?] at ih ⊢
      simp only [ne_eq, same, not_false_eq_true, decide_true, List.filter_cons_of_pos, List.lookup_cons]
      cases (other == first) with
      | true => rfl
      | false => exact ih

/-- Inserting a key adds it to the keys when it is new and leaves them as they are when it is not. -/
theorem mem_keys_insert :
    other ∈ (map.insert key value).map (·.1) ↔ other = key ∨ other ∈ map.map (·.1) := by
  induction map with
  | nil => simp [insert]
  | cons entry rest ih =>
    obtain ⟨first, held⟩ := entry
    by_cases same : first = key
    · subst same
      simp [insert]
    · simp only [insert, if_neg same, List.map_cons, List.mem_cons, ih]
      tauto

/-- No key occurs twice after an insertion when none did before. -/
theorem nodup_insert (nodup : (map.map (·.1)).Nodup) : ((map.insert key value).map (·.1)).Nodup := by
  induction map with
  | nil => simp [insert]
  | cons entry rest ih =>
    obtain ⟨first, held⟩ := entry
    rw [List.map_cons, List.nodup_cons] at nodup
    by_cases same : first = key
    · subst same
      simpa [insert] using nodup
    · rw [insert, if_neg same, List.map_cons, List.nodup_cons]
      refine ⟨fun mem => ?_, ih nodup.2⟩
      rcases mem_keys_insert.mp mem with here | later
      · exact same here
      · exact nodup.1 later

/-- No key occurs twice after one is taken out when none did before. -/
theorem nodup_shiftRemove (nodup : (map.map (·.1)).Nodup) :
    ((map.shiftRemove key).map (·.1)).Nodup :=
  nodup.sublist (List.filter_sublist.map _)

/-- A key is among the keys exactly when it has a value. -/
theorem mem_keys : key ∈ map.map (·.1) ↔ (map.get? key).isSome := by
  simp [get?]

/-- Where no key occurs twice, every entry is the one its key finds. -/
theorem get?_of_mem (nodup : (map.map (·.1)).Nodup) {entry : κ × α} (mem : entry ∈ map) :
    map.get? entry.1 = some entry.2 := by
  induction map with
  | nil => exact absurd mem List.not_mem_nil
  | cons head rest ih =>
    obtain ⟨headKey, headValue⟩ := head
    rw [List.map_cons, List.nodup_cons] at nodup
    rcases List.mem_cons.mp mem with rfl | later
    · simp [get?]
    · -- The head's key is not the entry's, which occurs further down.
      have passed : (entry.1 == headKey) = false := by
        have there : entry.1 ∈ rest.map (·.1) := List.mem_map_of_mem later
        simpa using fun same : entry.1 = headKey => nodup.1 (same ▸ there)
      simpa [get?, List.lookup_cons, passed] using ih nodup.2 later

end IndexMap
