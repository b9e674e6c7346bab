import MirrorV3.Lib.Keyed
import MirrorV3.Cache.Reads

/-! The view of one mirror after the records of a log were applied to it in order. -/

namespace MirrorV3

/-- The partition a record is from, as the last-seen offsets name it. -/
def Record.topicPartition (record : Record) : TopicPartition :=
  ⟨record.topic, record.partition.toUInt32⟩

/-- What the view keeps of a record: its value with its offset, and nothing of a deletion. -/
def Record.entry (record : Record) : Option Entry :=
  record.value.map fun value => ⟨value, record.sourceOffset⟩

/-- The last record of a key in a log, as the view answers it. -/
def lastWritten (key : String) (records : List Record) : Option Entry :=
  Keyed.held Record.utf8Key Record.entry key records

/-- Applying a value is one write or deletion of a keyed log. -/
theorem applyValue_eq (view : IndexMap String Entry) (record : Record) :
    applyValue view record = Keyed.apply Record.utf8Key Record.entry view record := by
  unfold applyValue Keyed.apply Record.entry
  cases record.utf8Key with
  | none => rfl
  | some key => cases record.value <;> rfl

namespace MirrorSlot

/-- Whether the slot has seen this offset of the record's partition, or a higher one, already. -/
def hasSeen (slot : MirrorSlot) (record : Record) : Bool :=
  (slot.data.offsets.get? record.topicPartition).any (record.sourceOffset ≤ ·)

/-- What one write lock changes: the view and the last-seen offsets. -/
def see (slot : MirrorSlot) (record : Record) : MirrorSlot :=
  { slot with
    data := {
      view := slot.data.view.map (applyValue · record)
      offsets := slot.data.offsets.insert record.topicPartition record.sourceOffset } }

/-- What follows the write lock: the counter and then the status. -/
def count (slot : MirrorSlot) (tolerance : Nat) (record : Record) : MirrorSlot :=
  recomputeStatus
    { slot with lastAppliedOffset := max slot.lastAppliedOffset (addOne record.sourceOffset) }
    tolerance

/-- A record that was not seen is first put into the data and then counted. -/
theorem applyRecord_eq (slot : MirrorSlot) (tolerance : Nat) (record : Record) :
    slot.applyRecord tolerance record
      = if slot.hasSeen record then slot else (slot.see record).count tolerance record := rfl

/-- Recomputing the status moves nothing else. -/
theorem recomputeStatus_eq (slot : MirrorSlot) (tolerance : Nat) :
    ∃ status, slot.recomputeStatus tolerance = { slot with status } := by
  unfold recomputeStatus
  split <;> exact ⟨_, rfl⟩

/-- A slot that a mirror was just registered with. -/
structure Fresh (bootstrapHwm : Nat) (keepsValues : Bool) (slot : MirrorSlot) : Prop where
  bootstrapHwm : slot.bootstrapHwm = bootstrapHwm
  data : slot.data = ⟨if keepsValues then some [] else none, []⟩
  lastAppliedOffset : slot.lastAppliedOffset = 0

/-- A slot that records were applied to, in order and nothing else. -/
structure Applied (bootstrapHwm : Nat) (keepsValues : Bool) (records : List Record)
    (slot : MirrorSlot) : Prop where
  bootstrapHwm : slot.bootstrapHwm = bootstrapHwm
  view : slot.data.view = if keepsValues then some (records.foldl applyValue []) else none
  offsets : ∀ tp, slot.data.offsets.get? tp
    = (Keyed.latest (fun r => some r.topicPartition) tp records).map (·.sourceOffset)
  lastAppliedOffset : slot.lastAppliedOffset
    = (records.getLast?.map (·.sourceOffset + 1)).getD 0

variable {bootstrapHwm tolerance : Nat} {keepsValues : Bool} {records : List Record}
  {record : Record} {slot : MirrorSlot}

/-- Before the first record a slot is fresh. -/
theorem Applied.of_fresh (fresh : Fresh bootstrapHwm keepsValues slot) :
    Applied bootstrapHwm keepsValues [] slot where
  bootstrapHwm := fresh.bootstrapHwm
  view := by
    rw [fresh.data]
    cases keepsValues <;> rfl
  offsets tp := by
    rw [fresh.data]
    rfl
  lastAppliedOffset := fresh.lastAppliedOffset

/-- A record above every applied one was not seen before. -/
theorem Applied.hasSeen_eq_false (applied : Applied bootstrapHwm keepsValues records slot)
    (above : ∀ r ∈ records, r.sourceOffset < record.sourceOffset) :
    slot.hasSeen record = false := by
  unfold hasSeen
  rw [applied.offsets]
  cases last : Keyed.latest (fun r => some r.topicPartition) record.topicPartition records with
  | none => rfl
  | some r =>
    have := above r (Keyed.of_latest last).1
    simpa using this

/-- The data after a record is that of one more record. -/
theorem Applied.see (applied : Applied bootstrapHwm keepsValues records slot) (record : Record) :
    (slot.see record).data.view
        = (if keepsValues then some ((records ++ [record]).foldl applyValue []) else none)
      ∧ ∀ tp, (slot.see record).data.offsets.get? tp
        = (Keyed.latest (fun r => some r.topicPartition) tp (records ++ [record])).map
            (·.sourceOffset) := by
  constructor
  · simp only [MirrorSlot.see, applied.view, List.foldl_concat]
    cases keepsValues <;> rfl
  · intro tp
    simp only [MirrorSlot.see]
    by_cases same : tp = record.topicPartition
    · have last : Keyed.latest (fun r => some r.topicPartition) tp (records ++ [record])
          = some record := Keyed.latest_concat_self (congrArg some same.symm)
      rw [last, same, IndexMap.get?_insert_self]
      rfl
    · rw [IndexMap.get?_insert_of_ne same, Keyed.latest_concat_of_ne (by simpa using Ne.symm same)]
      exact applied.offsets tp

/-- The records applied before are all below the next one, so it is applied as well. -/
theorem Applied.snoc (applied : Applied bootstrapHwm keepsValues records slot)
    (above : ∀ r ∈ records, r.sourceOffset < record.sourceOffset)
    (inRange : record.sourceOffset + 1 < 2 ^ 64) :
    Applied bootstrapHwm keepsValues (records ++ [record]) (slot.applyRecord tolerance record) := by
  rw [applyRecord_eq, applied.hasSeen_eq_false above]
  obtain ⟨view, offsets⟩ := applied.see record
  obtain ⟨status, recomputed⟩ := recomputeStatus_eq
    { slot.see record with
      lastAppliedOffset := max (slot.see record).lastAppliedOffset (addOne record.sourceOffset) }
    tolerance
  rw [if_neg Bool.false_ne_true, count, recomputed]
  refine ⟨applied.bootstrapHwm, view, offsets, ?_⟩
  -- The counter stood one past the last record, which is below this one.
  have counted : slot.lastAppliedOffset ≤ record.sourceOffset + 1 := by
    rw [applied.lastAppliedOffset]
    cases last : records.getLast? with
    | none => exact Nat.zero_le _
    | some r =>
      have := above r (List.mem_of_getLast? last)
      simp only [Option.map_some, Option.getD_some]
      omega
  show max slot.lastAppliedOffset (addOne record.sourceOffset) = _
  rw [addOne_eq inRange, Nat.max_eq_right counted]
  simp

/-- Records in increasing order are all applied. -/
theorem Applied.foldl (tolerance : Nat) (fresh : Fresh bootstrapHwm keepsValues slot)
    (increasing : records.Pairwise (·.sourceOffset < ·.sourceOffset))
    (inRange : ∀ r ∈ records, r.sourceOffset + 1 < 2 ^ 64) :
    Applied bootstrapHwm keepsValues records
      (records.foldl (·.applyRecord tolerance ·) slot) := by
  induction records using List.reverseRecOn with
  | nil => exact .of_fresh fresh
  | append_singleton records record ih =>
    rw [List.pairwise_append] at increasing
    obtain ⟨earlier, -, above⟩ := increasing
    rw [List.foldl_concat]
    apply (ih earlier fun r mem => inRange r (by simp [mem])).snoc
    · exact fun r mem => above r mem record (by simp)
    · exact inRange record (by simp)

/-- The view after a log is the map built from its writes and deletions. -/
theorem foldl_applyValue (records : List Record) :
    records.foldl applyValue [] = records.foldl (Keyed.apply Record.utf8Key Record.entry) [] := by
  have same : applyValue = Keyed.apply Record.utf8Key Record.entry := by
    funext view record
    exact applyValue_eq view record
  rw [same]

/-- The view answers for every key what the last applied record of the key wrote. -/
theorem get?_view (records : List Record) (key : String) :
    IndexMap.get? (records.foldl applyValue []) key = lastWritten key records := by
  rw [foldl_applyValue]
  exact Keyed.get?_build records

/-- No key occurs twice in the view. -/
theorem nodup_view (records : List Record) :
    ((records.foldl applyValue []).map (·.1)).Nodup := by
  rw [foldl_applyValue]
  have empty : (([] : IndexMap String Entry).map (·.1)).Nodup := List.nodup_nil
  exact Keyed.nodup_foldl_apply empty records

end MirrorSlot

namespace CacheState

/-- Apply records to one mirror, one after the other. -/
def applyAll (s : CacheState) (mirrorName : String) (records : List Record) : CacheState :=
  records.foldl (·.applyRecord mirrorName ·) s

variable {s : CacheState} {mirrorName : String}

/-- Applying a record to a mirror applies it to its slot. -/
theorem get?_applyRecord (record : Record) :
    (s.applyRecord mirrorName record).mirrors.get? mirrorName
      = (s.mirrors.get? mirrorName).map (·.applyRecord s.readinessLagTolerance record) := by
  unfold applyRecord
  cases found : s.mirrors.get? mirrorName with
  | none => simpa using found
  | some slot => simp

/-- No record changes how much lag is tolerated. -/
theorem readinessLagTolerance_applyRecord (record : Record) :
    (s.applyRecord mirrorName record).readinessLagTolerance = s.readinessLagTolerance := by
  unfold applyRecord
  split <;> rfl

/-- Applying records to a mirror applies them to its slot. -/
theorem get?_applyAll (s : CacheState) (mirrorName : String) (records : List Record) :
    (s.applyAll mirrorName records).mirrors.get? mirrorName
      = (s.mirrors.get? mirrorName).map fun slot =>
          records.foldl (·.applyRecord s.readinessLagTolerance ·) slot := by
  induction records generalizing s with
  | nil => simp [applyAll]
  | cons record records ih =>
    simp only [applyAll, List.foldl_cons] at ih ⊢
    rw [ih, get?_applyRecord, readinessLagTolerance_applyRecord, Option.map_map]
    rfl

/-- A mirror that was just registered has a fresh slot. -/
theorem get?_insertSlot (s : CacheState) (mirrorName : String) (bootstrapHwm : Nat)
    (committed : Option Nat) (topic : String) (partition : UInt32) (keepsValues : Bool) :
    ∃ slot, (s.insertSlot mirrorName bootstrapHwm committed topic partition keepsValues).mirrors.get?
        mirrorName = some slot
      ∧ MirrorSlot.Fresh bootstrapHwm keepsValues slot :=
  ⟨_, IndexMap.get?_insert_self, rfl, rfl, rfl⟩

/-- A mirror that was just registered to serve its values has a fresh slot. -/
theorem get?_registerMirrorWithTopic (s : CacheState) (mirrorName : String) (bootstrapHwm : Nat)
    (committed : Option Nat) (isMain : Bool) (topic : String) (partition : UInt32) :
    ∃ slot, (s.registerMirrorWithTopic mirrorName bootstrapHwm committed isMain topic
        partition).mirrors.get? mirrorName = some slot
      ∧ MirrorSlot.Fresh bootstrapHwm true slot := by
  unfold registerMirrorWithTopic
  cases isMain <;> exact get?_insertSlot _ _ bootstrapHwm committed topic partition true

end CacheState

end MirrorV3
