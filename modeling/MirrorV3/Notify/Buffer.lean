import MirrorV3.Core.Record
import MirrorV3.Lib.IndexMap

/-! The debounce buffer of a notifier: what records since the last drain it will tell of, as one batch. -/

namespace MirrorV3

/-- The batch that is being collected. -/
structure Buffer where
  /-- Distinct keys in insertion order. -/
  keys : List String
  /-- The highest source offset across the batch. -/
  maxOffset : Nat
  /-- The records appended since the last drain, counted up to `u64::MAX`. -/
  seenRecords : Nat
  /-- When the first record of the batch came, in milliseconds. -/
  firstAt : Option Nat
  deriving Repr, DecidableEq

/-- What is handed to the dispatcher: an offset by partition, and keys whose updates are all null. -/
structure DrainedBatch where
  offsets : IndexMap String Nat
  updates : List String
  deriving Repr, DecidableEq

/-- The highest source offset across every partition of a batch. -/
def DrainedBatch.highOffset (batch : DrainedBatch) : Nat := ((batch.offsets.map (·.2)).max?).getD 0

namespace Buffer

/-- A buffer nothing was appended to. -/
def empty : Buffer := ⟨[], 0, 0, none⟩

/-- Take note of a record's key and offset. -/
def append (key : String) (sourceOffset now : Nat) (b : Buffer) : Buffer where
  firstAt := some (b.firstAt.getD now)
  keys := if key ∈ b.keys then b.keys else b.keys ++ [key]
  -- The offset only goes up within a batch.
  maxOffset := if b.seenRecords = 0 ∨ b.maxOffset < sourceOffset then sourceOffset else b.maxOffset
  seenRecords := min (b.seenRecords + 1) (2 ^ 64 - 1)

/-- Whether no record was appended since the last drain. -/
def isEmpty (b : Buffer) : Bool := b.seenRecords = 0

/-- Drain the buffer as one batch, if there is anything in it. -/
def take (partition : Int32) (b : Buffer) : Option DrainedBatch × Buffer :=
  if b.isEmpty then (none, b)
  else (some ⟨[(toString partition, b.maxOffset)], b.keys⟩, empty)

/-- A buffer is what these records, with their keys, were appended to. -/
structure Collects (records : List Record) (b : Buffer) : Prop where
  keys : b.keys = (records.filterMap (·.utf8Key)).eraseDups
  highest : b.maxOffset = ((records.map (·.sourceOffset)).max?).getD 0
  counted : b.seenRecords = min records.length (2 ^ 64 - 1)
  started : b.firstAt.isSome = !records.isEmpty

variable {records : List Record} {b : Buffer}

/-- Nothing was appended to an empty buffer. -/
theorem collects_empty : Collects [] empty := ⟨rfl, rfl, rfl, rfl⟩

/-- A buffer is empty exactly when nothing was appended to it. -/
theorem Collects.isEmpty_iff (collects : Collects records b) : b.isEmpty = true ↔ records = [] := by
  rw [isEmpty, decide_eq_true_eq, collects.counted, ← List.length_eq_zero_iff]
  omega

/-- One more offset is the greatest of all if it is greater than the others. -/
theorem max?_concat {offsets : List Nat} {highest : Nat} (most : offsets.max? = some highest)
    (offset : Nat) :
    (offsets ++ [offset]).max? = some (if highest < offset then offset else highest) := by
  obtain ⟨mem, above⟩ := List.max?_eq_some_iff.mp most
  rw [List.max?_eq_some_iff]
  by_cases greater : highest < offset
  · rw [if_pos greater]
    refine ⟨by simp, fun other mem => ?_⟩
    rcases List.mem_append.mp mem with old | new
    · have := above other old
      omega
    · simp [List.mem_singleton.mp new]
  · rw [if_neg greater]
    refine ⟨List.mem_append_left _ mem, fun other mem => ?_⟩
    rcases List.mem_append.mp mem with old | new
    · exact above other old
    · rw [List.mem_singleton.mp new]
      omega

/-- One more record is collected as it is appended. -/
theorem Collects.append (collects : Collects records b) {record : Record} {key : String}
    (keyed : record.utf8Key = some key) (now : Nat) :
    Collects (records ++ [record]) (b.append key record.sourceOffset now) where
  keys := by
    have last : [record].filterMap (·.utf8Key) = [key] := by simp [keyed]
    have known : key ∈ b.keys ↔ key ∈ records.filterMap (·.utf8Key) := by
      rw [collects.keys, List.mem_eraseDups]
    show (if key ∈ b.keys then b.keys else b.keys ++ [key]) = _
    rw [List.filterMap_append, last, List.eraseDups_append, ← collects.keys]
    -- A key that came before keeps its place.
    by_cases old : key ∈ b.keys
    · have none_ : [key].removeAll (records.filterMap (·.utf8Key)) = [] := by
        rw [List.removeAll, List.filter_cons_of_neg (by simpa using known.mp old), List.filter_nil]
      rw [if_pos old, none_, List.eraseDups_nil, List.append_nil]
    · have itself : [key].removeAll (records.filterMap (·.utf8Key)) = [key] := by
        rw [known] at old
        rw [List.removeAll, List.filter_cons_of_pos (by simpa using old), List.filter_nil]
      rw [if_neg old, itself, List.eraseDups_cons]
      rfl
  highest := by
    show (if b.seenRecords = 0 ∨ b.maxOffset < record.sourceOffset then record.sourceOffset
      else b.maxOffset) = _
    rw [collects.counted, collects.highest, List.map_append]
    cases most : (records.map (·.sourceOffset)).max? with
    | none =>
      obtain rfl : records = [] := by simpa using most
      rfl
    | some highest =>
      have some_ : records.length ≠ 0 := by
        intro empty
        rw [List.length_eq_zero_iff.mp empty] at most
        cases most
      have counted : ¬ min records.length (2 ^ 64 - 1) = 0 := by omega
      rw [List.map_singleton, max?_concat most]
      simp only [counted, false_or, Option.getD_some]
  counted := by
    show min (b.seenRecords + 1) (2 ^ 64 - 1) = _
    rw [collects.counted, List.length_append, List.length_singleton]
    omega
  started := by
    show (some (b.firstAt.getD now)).isSome = _
    simp

/-- What a drain hands on of the records it drains. -/
structure Drains (records : List Record) (batch : DrainedBatch) : Prop where
  updates : batch.updates = (records.filterMap (·.utf8Key)).eraseDups
  highest : some batch.highOffset = (records.map (·.sourceOffset)).max?

/-- A drain takes all that was collected, and there is nothing to take of an empty buffer. -/
theorem Collects.take (collects : Collects records b) (partition : Int32) :
    ((b.take partition).1 = none ∧ (b.take partition).2 = b ∧ records = [])
      ∨ ∃ batch, (b.take partition).1 = some batch ∧ (b.take partition).2 = empty
        ∧ Drains records batch ∧ records ≠ [] := by
  unfold Buffer.take
  by_cases nothing : b.isEmpty = true
  · rw [if_pos nothing]
    exact .inl ⟨rfl, rfl, collects.isEmpty_iff.mp nothing⟩
  · rw [if_neg nothing]
    have some_ : records ≠ [] := fun none_ => nothing (collects.isEmpty_iff.mpr none_)
    refine .inr ⟨_, rfl, rfl, ⟨collects.keys, ?_⟩, some_⟩
    rw [DrainedBatch.highOffset]
    simp only [List.map_cons, List.map_nil, List.max?_singleton, Option.getD_some]
    rw [collects.highest]
    cases most : (records.map (·.sourceOffset)).max? with
    | none => simp [some_] at most
    | some highest => rfl

end Buffer

end MirrorV3
