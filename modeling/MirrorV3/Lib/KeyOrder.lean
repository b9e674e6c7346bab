import MirrorV3.Lib.Keyed

/-! The order in which a map built from a log lists its keys. -/

namespace IndexMap

variable {κ α : Type} [DecidableEq κ] {map : IndexMap κ α} {key : κ}

/-- A key that is there keeps its place. -/
theorem keys_insert_of_mem (value : α) (there : key ∈ map.map (·.1)) :
    (map.insert key value).map (·.1) = map.map (·.1) := by
  induction map with
  | nil => exact absurd there List.not_mem_nil
  | cons entry rest ih =>
    obtain ⟨first, held⟩ := entry
    by_cases same : first = key
    · simp [insert, same]
    · have later : key ∈ rest.map (·.1) :=
        (List.mem_cons.mp there).resolve_left (Ne.symm same)
      rw [insert, if_neg same, List.map_cons, ih later, List.map_cons]

/-- A new key goes to the end. -/
theorem keys_insert_of_notMem (value : α) (absent : key ∉ map.map (·.1)) :
    (map.insert key value).map (·.1) = map.map (·.1) ++ [key] := by
  induction map with
  | nil => rfl
  | cons entry rest ih =>
    obtain ⟨first, held⟩ := entry
    obtain ⟨other, later⟩ := not_or.mp (List.mem_cons.not.mp absent)
    rw [insert, if_neg (Ne.symm other), List.map_cons, ih later, List.map_cons, List.cons_append]

/-- Taking a key out leaves the others in their order. -/
theorem keys_shiftRemove (map : IndexMap κ α) (key : κ) :
    (map.shiftRemove key).map (·.1) = (map.map (·.1)).filter (· ≠ key) := by
  rw [shiftRemove, List.filter_map]
  rfl

end IndexMap

namespace Keyed

variable {κ α β : Type}

section Places

variable (key : α → Option κ) (value : α → Option β) (k : κ) (items : List α)

/-- Whether a place of a log holds a write of the key. -/
def WritesAt (i : Nat) : Prop :=
  ∃ item, items[i]? = some item ∧ key item = some k ∧ (value item).isSome

/-- Whether a place of a log holds a deletion of the key. -/
def DeletesAt (i : Nat) : Prop :=
  ∃ item, items[i]? = some item ∧ key item = some k ∧ value item = none

/-- Whether a place of a log holds the first write of the key since its last deletion. -/
structure OpenedAt (i : Nat) : Prop where
  writes : WritesAt key value k items i
  kept : ∀ j, i ≤ j → ¬ DeletesAt key value k items j
  first : ∀ j < i, WritesAt key value k items j →
    ∃ d, j < d ∧ d < i ∧ DeletesAt key value k items d

/-- Whether one key was first written, since its last deletion, before another was. -/
def OpenedBefore (a b : κ) : Prop :=
  ∃ i j, OpenedAt key value a items i ∧ OpenedAt key value b items j ∧ i < j

/-- A map whose keys are those not deleted since their last write, in the order of their first
write since. -/
structure InOrderOf (map : IndexMap κ β) : Prop where
  opened : ∀ k ∈ map.map (·.1), ∃ i, OpenedAt key value k items i
  closed : ∀ k, k ∉ map.map (·.1) → ∀ i, WritesAt key value k items i →
    ∃ d, i < d ∧ DeletesAt key value k items d
  listed : (map.map (·.1)).Pairwise (OpenedBefore key value items)

end Places

variable {key : α → Option κ} {value : α → Option β} {k : κ} {items : List α} {item : α} {i : Nat}

/-- A place is there before an item is added, or it is the place of that item. -/
theorem getElem?_concat {found : α} (at_ : (items ++ [item])[i]? = some found) :
    items[i]? = some found ∨ i = items.length ∧ found = item := by
  rcases Nat.lt_trichotomy i items.length with inside | rfl | past
  · rw [List.getElem?_append_left inside] at at_
    exact .inl at_
  · rw [List.getElem?_concat_length] at at_
    exact .inr ⟨rfl, (Option.some.inj at_).symm⟩
  · rw [List.getElem?_eq_none (by simp; omega)] at at_
    cases at_

/-- What was there stays there when an item is added. -/
theorem getElem?_concat_of_some {found : α} (at_ : items[i]? = some found) :
    (items ++ [item])[i]? = some found := by
  obtain ⟨inside, -⟩ := List.getElem?_eq_some_iff.mp at_
  rw [List.getElem?_append_left inside, at_]

/-- An item that does not delete the key leaves the place of its first write. -/
theorem OpenedAt.concat (opened : OpenedAt key value k items i)
    (keeps : key item = some k → value item ≠ none) :
    OpenedAt key value k (items ++ [item]) i := by
  obtain ⟨⟨written, at_, named, holds⟩, kept, first⟩ := opened
  refine ⟨⟨written, getElem?_concat_of_some at_, named, holds⟩, ?_, ?_⟩
  · rintro j after ⟨deleted, there, of, none_⟩
    rcases getElem?_concat there with before | ⟨-, rfl⟩
    · exact kept j after ⟨deleted, before, of, none_⟩
    · exact keeps of none_
  · rintro j earlier ⟨other, there, of, some_⟩
    have inside : i < items.length := (List.getElem?_eq_some_iff.mp at_).1
    rw [List.getElem?_append_left (by omega)] at there
    obtain ⟨d, after, before, deleted, where_, rest⟩ := first j earlier ⟨other, there, of, some_⟩
    exact ⟨d, after, before, deleted, getElem?_concat_of_some where_, rest⟩

/-- A write of a key that is not there opens it at its own place. -/
theorem OpenedAt.fresh (named : key item = some k) (holds : (value item).isSome)
    (closed : ∀ i, WritesAt key value k items i → ∃ d, i < d ∧ DeletesAt key value k items d) :
    OpenedAt key value k (items ++ [item]) items.length := by
  refine ⟨⟨item, List.getElem?_concat_length, named, holds⟩, ?_, ?_⟩
  · rintro j after ⟨deleted, there, of, none_⟩
    rcases getElem?_concat there with before | ⟨-, rfl⟩
    · have inside := (List.getElem?_eq_some_iff.mp before).1
      omega
    · rw [none_] at holds
      cases holds
  · rintro j earlier ⟨other, there, of, some_⟩
    rw [List.getElem?_append_left earlier] at there
    obtain ⟨d, after, deleted, where_, rest⟩ := closed j ⟨other, there, of, some_⟩
    have inside := (List.getElem?_eq_some_iff.mp where_).1
    exact ⟨d, after, inside, deleted, getElem?_concat_of_some where_, rest⟩

/-- A key that every write of was followed by a deletion stays so until it is written. -/
theorem closed_concat
    (closed : ∀ i, WritesAt key value k items i → ∃ d, i < d ∧ DeletesAt key value k items d)
    (unwritten : key item = some k → value item = none) :
    ∀ i, WritesAt key value k (items ++ [item]) i →
      ∃ d, i < d ∧ DeletesAt key value k (items ++ [item]) d := by
  rintro i ⟨other, there, of, some_⟩
  rcases getElem?_concat there with before | ⟨-, rfl⟩
  · obtain ⟨d, after, deleted, where_, rest⟩ := closed i ⟨other, before, of, some_⟩
    exact ⟨d, after, deleted, getElem?_concat_of_some where_, rest⟩
  · rw [unwritten of] at some_
    cases some_

/-- Keys that are not deleted stay in the order they are in. -/
theorem OpenedBefore.concat {a b : κ} (before : OpenedBefore key value items a b)
    (keeps : ∀ k, k = a ∨ k = b → key item = some k → value item ≠ none) :
    OpenedBefore key value (items ++ [item]) a b := by
  obtain ⟨i, j, one, other, less⟩ := before
  exact ⟨i, j, one.concat (keeps a (.inl rfl)), other.concat (keeps b (.inr rfl)), less⟩

variable [DecidableEq κ] {map : IndexMap κ β}

omit [DecidableEq κ] in
/-- An item that writes nothing leaves the keys as they are. -/
theorem InOrderOf.skip (ordered : InOrderOf key value items map) (unnamed : key item = none) :
    InOrderOf key value (items ++ [item]) map := by
  have other : ∀ k, key item ≠ some k := fun k same => by rw [unnamed] at same; cases same
  refine ⟨?_, ?_, ?_⟩
  · intro k mem
    obtain ⟨i, opened⟩ := ordered.opened k mem
    exact ⟨i, opened.concat fun same => absurd same (other k)⟩
  · intro k absent
    exact closed_concat (ordered.closed k absent) fun same => absurd same (other k)
  · exact ordered.listed.imp fun before => before.concat fun k _ same => absurd same (other k)

/-- A write opens a key that was not there at the end, and leaves the place of one that was. -/
theorem InOrderOf.write {v : β} (ordered : InOrderOf key value items map)
    (named : key item = some k) (holds : value item = some v) :
    InOrderOf key value (items ++ [item]) (map.insert k v) := by
  have keeps : value item ≠ none := by simp [holds]
  refine ⟨?_, ?_, ?_⟩
  · intro other mem
    by_cases there : other ∈ map.map (·.1)
    · obtain ⟨i, opened⟩ := ordered.opened other there
      exact ⟨i, opened.concat fun _ => keeps⟩
    · obtain rfl : other = k := (IndexMap.mem_keys_insert.mp mem).resolve_right there
      exact ⟨items.length, .fresh named (by simp [holds]) (ordered.closed other there)⟩
  · intro other absent
    obtain ⟨differs, gone⟩ := not_or.mp (IndexMap.mem_keys_insert.not.mp absent)
    refine closed_concat (ordered.closed other gone) fun same => ?_
    rw [named] at same
    exact absurd (Option.some.inj same).symm differs
  · have before : (map.map (·.1)).Pairwise (OpenedBefore key value (items ++ [item])) :=
      ordered.listed.imp fun before => before.concat fun _ _ _ => keeps
    by_cases there : k ∈ map.map (·.1)
    · rw [IndexMap.keys_insert_of_mem v there]
      exact before
    · rw [IndexMap.keys_insert_of_notMem v there, List.pairwise_append]
      refine ⟨before, List.pairwise_singleton _ _, ?_⟩
      intro other mem last isLast
      rw [List.mem_singleton.mp isLast]
      -- Whatever was opened was opened at a place of the log so far.
      obtain ⟨i, opened⟩ := ordered.opened other mem
      obtain ⟨_, at_, -⟩ := opened.writes
      have inside := (List.getElem?_eq_some_iff.mp at_).1
      exact ⟨i, items.length, opened.concat fun _ => keeps,
        .fresh named (by simp [holds]) (ordered.closed k there), inside⟩

/-- A deletion takes its key out and leaves the others in their order. -/
theorem InOrderOf.delete (ordered : InOrderOf key value items map) (named : key item = some k)
    (deletes : value item = none) :
    InOrderOf key value (items ++ [item]) (map.shiftRemove k) := by
  -- Only the key that is deleted has an item more, and only it is no longer in the map.
  have other : ∀ k', k' ≠ k → key item ≠ some k' := by
    rintro k' differs same
    rw [named] at same
    exact differs (Option.some.inj same).symm
  have left : ∀ k', k' ∈ (map.shiftRemove k).map (·.1) ↔ k' ∈ map.map (·.1) ∧ k' ≠ k := by
    intro k'
    simp [IndexMap.keys_shiftRemove]
  refine ⟨?_, ?_, ?_⟩
  · intro k' mem
    obtain ⟨there, differs⟩ := (left k').mp mem
    obtain ⟨i, opened⟩ := ordered.opened k' there
    exact ⟨i, opened.concat fun same => absurd same (other k' differs)⟩
  · intro k' absent
    by_cases same : k' = k
    · -- The deletion itself is behind every write of the key.
      subst same
      rintro i ⟨written, there, of, some_⟩
      have deletion : DeletesAt key value k' (items ++ [item]) items.length :=
        ⟨item, List.getElem?_concat_length, named, deletes⟩
      rcases getElem?_concat there with before | ⟨-, rfl⟩
      · exact ⟨items.length, (List.getElem?_eq_some_iff.mp before).1, deletion⟩
      · rw [deletes] at some_
        cases some_
    · have gone : k' ∉ map.map (·.1) := fun there => absent ((left k').mpr ⟨there, same⟩)
      exact closed_concat (ordered.closed k' gone) fun same' => absurd same' (other k' same)
  · rw [IndexMap.keys_shiftRemove]
    refine (ordered.listed.filter (· ≠ k)).imp_of_mem ?_
    intro a b mem mem' before
    refine before.concat fun k' either same => ?_
    have notDeleted : k' ≠ k := by
      rcases either with rfl | rfl
      · simpa using (List.mem_filter.mp mem).2
      · simpa using (List.mem_filter.mp mem').2
    exact absurd same (other k' notDeleted)

/-- A map built from a log lists its keys in the order of their first write since their last
deletion. -/
theorem inOrderOf_build (items : List α) :
    InOrderOf key value items (items.foldl (apply key value) []) := by
  induction items using List.reverseRecOn with
  | nil => exact ⟨by simp, by simp [WritesAt], .nil⟩
  | append_singleton items item ih =>
    rw [List.foldl_concat, apply]
    cases named : key item with
    | none => exact ih.skip named
    | some k =>
      cases holds : value item with
      | some v => exact ih.write named holds
      | none => exact ih.delete named holds

end Keyed
