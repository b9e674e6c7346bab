import Mathlib.Data.List.Induction
import Mathlib.Logic.Function.Basic
import MirrorV3.Lib.IndexMap

/-! Logs of keyed writes and deletions: what the last entry of each key leaves. -/

namespace Keyed

variable {κ α β : Type} [DecidableEq κ]

/-- The last item of a key, if the key has one. -/
def latest (key : α → Option κ) (k : κ) (items : List α) : Option α :=
  (items.filter (key · = some k)).getLast?

/-- What the last item of a key holds; a deletion holds nothing. -/
def held (key : α → Option κ) (value : α → Option β) (k : κ) (items : List α) : Option β :=
  (latest key k items).bind value

variable {key : α → Option κ} {value : α → Option β} {k : κ} {items : List α} {item : α}

/-- An item of the key is the last one once it is added. -/
theorem latest_concat_self (here : key item = some k) :
    latest key k (items ++ [item]) = some item := by
  simp [latest, List.filter_append, here]

/-- An item of another key, or of none, changes nothing for this one. -/
theorem latest_concat_of_ne (elsewhere : key item ≠ some k) :
    latest key k (items ++ [item]) = latest key k items := by
  simp [latest, List.filter_append, elsewhere]

/-- Of two stretches the later one decides, unless it has nothing of the key. -/
theorem latest_append (earlier later : List α) :
    latest key k (earlier ++ later) = (latest key k later).or (latest key k earlier) := by
  simp [latest, List.filter_append, List.getLast?_append]

/-- The last item of a key is an item of that key. -/
theorem of_latest (found : latest key k items = some item) : item ∈ items ∧ key item = some k := by
  simpa using List.mem_filter.mp (List.mem_of_getLast? found)

/-- A key without an item has no last one. -/
theorem latest_eq_none_iff : latest key k items = none ↔ ∀ item ∈ items, key item ≠ some k := by
  simp [latest]

/-- Apply one item to a map: set its key, delete it, or pass over an item without a key. -/
def apply (key : α → Option κ) (value : α → Option β) (map : IndexMap κ β) (item : α) :
    IndexMap κ β :=
  match key item with
  | none => map
  | some k =>
    match value item with
    | some v => map.insert k v
    | none => map.shiftRemove k

/-- After one item its own key answers what it holds, and every other key what it answered. -/
theorem get?_apply (map : IndexMap κ β) (item : α) :
    (apply key value map item).get? k = if key item = some k then value item else map.get? k := by
  unfold apply
  cases named : key item with
  | none => simp
  | some other =>
    by_cases same : other = k
    · subst same
      cases held : value item with
      | none => simp
      | some v => simp
    · have differs : k ≠ other := Ne.symm same
      cases held : value item with
      | none => simpa [same] using IndexMap.get?_shiftRemove_of_ne differs
      | some v => simpa [same] using IndexMap.get?_insert_of_ne differs

/--
What a log leaves in any kind of map, read one key at a time.

It is enough that one item changes the answer for its own key to what it holds, and no other.
-/
theorem answer_foldl {μ : Type} {answer : μ → Option β} {step : μ → α → μ}
    (steps : ∀ map item,
      answer (step map item) = if key item = some k then value item else answer map)
    (map : μ) (items : List α) :
    answer (items.foldl step map) = (latest key k items).elim (answer map) value := by
  induction items using List.reverseRecOn with
  | nil => rfl
  | append_singleton items item ih =>
    rw [List.foldl_concat, steps]
    by_cases here : key item = some k
    · rw [if_pos here, latest_concat_self here, Option.elim_some]
    · rw [if_neg here, latest_concat_of_ne here, ih]

/-- What a log leaves of each key when every item in turn sets it or deletes it. -/
def folded (key : α → Option κ) (value : α → Option β) (items : List α) : κ → Option β :=
  items.foldl
    (fun state item =>
      match key item with
      | none => state
      | some k => Function.update state k (value item))
    fun _ => none

/-- Item by item, a log leaves of each key what its last item holds. -/
theorem folded_eq_held (k : κ) (items : List α) : folded key value items k = held key value k items := by
  have steps : ∀ (state : κ → Option β) (item : α),
      (match key item with
        | none => state
        | some k => Function.update state k (value item)) k
        = if key item = some k then value item else state k := by
    intro state item
    cases named : key item with
    | none => simp
    | some other => simp [Function.update_apply, eq_comm]
  have answers := @answer_foldl _ _ _ _ _ _ _ (κ → Option β) (fun state => state k) _ steps
    (fun _ => none) items
  rw [folded, answers, held]
  cases latest key k items <;> rfl

/-- A map built from a log answers for every key what the last item of the key holds. -/
theorem get?_foldl_apply (map : IndexMap κ β) (items : List α) :
    (items.foldl (apply key value) map).get? k
      = match latest key k items with
        | some item => value item
        | none => map.get? k := by
  have answers : (items.foldl (apply key value) map).get? k
      = (latest key k items).elim (map.get? k) value :=
    @answer_foldl _ _ _ _ _ _ _ _ (fun map : IndexMap κ β => map.get? k) _ get?_apply map items
  rw [answers]
  cases latest key k items <;> rfl

/-- A map built from a log and nothing else holds what the last item of each key holds. -/
theorem get?_build (items : List α) :
    (items.foldl (apply key value) []).get? k = held key value k items := by
  rw [get?_foldl_apply, held]
  cases latest key k items <;> rfl

/-- No key occurs twice in a map built from a log. -/
theorem nodup_foldl_apply {map : IndexMap κ β} (nodup : (map.map (·.1)).Nodup) (items : List α) :
    ((items.foldl (apply key value) map).map (·.1)).Nodup := by
  induction items generalizing map with
  | nil => exact nodup
  | cons item items ih =>
    apply ih
    unfold apply
    -- Each item inserts a key, takes one out, or leaves the map alone.
    split
    · exact nodup
    · split
      · exact IndexMap.nodup_insert nodup
      · exact IndexMap.nodup_shiftRemove nodup

/-- In a list without repetitions the last item of a key is the last one of any part that has it. -/
theorem latest_of_sublist {part : List α} (distinct : items.Nodup) (sub : part.Sublist items)
    (last : latest key k items = some item) (kept : item ∈ part) :
    latest key k part = some item := by
  have named := (of_latest last).2
  obtain ⟨before, split⟩ := List.getLast?_eq_some_iff.mp last
  have apart : item ∉ before := by
    have unique : (items.filter (key · = some k)).Nodup := distinct.filter _
    rw [split, List.nodup_append] at unique
    intro mem
    exact unique.2.2 item mem item (by simp) rfl
  have within := sub.filter (key · = some k)
  rw [split, List.sublist_append_iff] at within
  obtain ⟨early, late, parts, earlySub, lateSub⟩ := within
  have mem : item ∈ early ++ late := by
    rw [← parts]
    exact List.mem_filter.mpr ⟨kept, by simpa using named⟩
  -- The item is not among the earlier ones, so it is what the part ends with.
  have ends : item ∈ late := by
    rcases List.mem_append.mp mem with inEarly | inLate
    · exact absurd (earlySub.subset inEarly) apart
    · exact inLate
  rcases List.sublist_singleton.mp lateSub with empty | single
  · simp [empty] at ends
  · rw [latest, parts, single, List.getLast?_concat]

/-- What is left of a log when of each key all but the last item may go, and a deletion may too. -/
structure Compaction (key : α → Option κ) (value : α → Option β) (items part : List α) : Prop where
  sublist : part.Sublist items
  lasts : ∀ k item, latest key k items = some item → value item ≠ none → item ∈ part

/--
Reading on in what compaction left of the later part of a log gives what the whole log gives,
except where a deletion went and the key holds something without it.
-/
theorem Compaction.held_append_iff {later left : List α} (cleaned : Compaction key value later left)
    (distinct : later.Nodup) (earlier : List α) :
    held key value k (earlier ++ left) = held key value k (earlier ++ later) ↔
      ∀ item, latest key k later = some item → value item = none → item ∉ left →
        held key value k (earlier ++ left) = none := by
  cases last : latest key k later with
  | none =>
    -- Nothing of the key was there to be removed.
    have absent : latest key k left = none := latest_eq_none_iff.mpr fun item mem =>
      latest_eq_none_iff.mp last item (cleaned.sublist.subset mem)
    simp [held, latest_append, last, absent]
  | some item =>
    cases holds : value item with
    | some v =>
      have found := latest_of_sublist distinct cleaned.sublist last
        (cleaned.lasts k item last (by simp [holds]))
      simp [held, latest_append, last, found, holds]
    | none =>
      have whole : held key value k (earlier ++ later) = none := by
        simp [held, latest_append, last, holds]
      rw [whole]
      by_cases kept : item ∈ left
      · have found := latest_of_sublist distinct cleaned.sublist last kept
        simp [held, latest_append, found, holds]
      · simp [holds, kept]

end Keyed
