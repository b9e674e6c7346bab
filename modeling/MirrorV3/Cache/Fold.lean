import MirrorV3.Cache.Applied
import MirrorV3.Lib.KeyOrder

/-! A cache under rewinds and replays: only records that go beyond all before them count. -/

namespace MirrorV3

/-- Whether a record is above every earlier one of its partition. -/
def Record.advances (before : List Record) (record : Record) : Bool :=
  before.all fun earlier =>
    earlier.topicPartition ≠ record.topicPartition || earlier.sourceOffset < record.sourceOffset

/-- The records that are above every earlier one of their partition. -/
def advancing (before : List Record) : List Record → List Record
  | [] => []
  | record :: records =>
    if record.advances before then record :: advancing (before ++ [record]) records
    else advancing (before ++ [record]) records

/-- A record advances when it is above each earlier one of its partition. -/
theorem Record.advances_iff {before : List Record} {record : Record} :
    record.advances before = true ↔ ∀ earlier ∈ before,
      earlier.topicPartition = record.topicPartition → earlier.sourceOffset < record.sourceOffset := by
  simp only [advances, List.all_eq_true, Bool.or_eq_true, decide_eq_true_eq]
  exact forall₂_congr fun earlier mem => by tauto

/-- With one more record before it, a record has to be above that one too. -/
theorem Record.advances_concat (before : List Record) (last record : Record) :
    record.advances (before ++ [last]) = true ↔ record.advances before = true
      ∧ (last.topicPartition = record.topicPartition → last.sourceOffset < record.sourceOffset) := by
  simp only [advances_iff, List.mem_append, List.mem_singleton]
  constructor
  · exact fun all => ⟨fun earlier mem => all earlier (.inl mem), all last (.inr rfl)⟩
  · rintro ⟨all, above⟩ earlier (mem | rfl)
    · exact all earlier mem
    · exact above

namespace MirrorSlot

variable {slot : MirrorSlot} {before records : List Record} {record : Record} {tolerance : Nat}

/-- A slot that has seen the records of a list and no others. -/
def HasSeenAll (before : List Record) (slot : MirrorSlot) : Prop :=
  ∀ record, slot.hasSeen record = false ↔ record.advances before = true

/-- A slot that nothing was applied to has seen nothing. -/
theorem HasSeenAll.of_fresh {bootstrapHwm : Nat} {keepsValues : Bool}
    (fresh : Fresh bootstrapHwm keepsValues slot) : HasSeenAll [] slot := by
  intro record
  simp [hasSeen, fresh.data, Record.advances, IndexMap.get?]

/-- A record that does not advance leaves the slot as it is. -/
theorem applyRecord_of_seen (seen : HasSeenAll before slot)
    (behind : record.advances before = false) : slot.applyRecord tolerance record = slot := by
  have known : slot.hasSeen record = true := by
    by_contra fresh
    rw [Bool.not_eq_true, seen record, behind] at fresh
    cases fresh
  rw [applyRecord_eq, if_pos known]

/-- A record that advances is put into the data and counted. -/
theorem applyRecord_of_advances (seen : HasSeenAll before slot)
    (advances : record.advances before = true) :
    slot.applyRecord tolerance record = (slot.see record).count tolerance record := by
  rw [applyRecord_eq, (seen record).mpr advances, if_neg Bool.false_ne_true]

/-- Counting a record does not change what was seen. -/
theorem data_count (slot : MirrorSlot) (tolerance : Nat) (record : Record) :
    (slot.count tolerance record).data = slot.data := by
  obtain ⟨status, recomputed⟩ := recomputeStatus_eq
    { slot with lastAppliedOffset := max slot.lastAppliedOffset (addOne record.sourceOffset) }
    tolerance
  rw [count, recomputed]

/-- After a record was applied it has been seen as well. -/
theorem HasSeenAll.applyRecord (seen : HasSeenAll before slot) (tolerance : Nat)
    (record : Record) : HasSeenAll (before ++ [record]) (slot.applyRecord tolerance record) := by
  intro other
  rw [Record.advances_concat]
  cases advances : record.advances before with
  | false =>
    -- What is above everything before is above this record, which something before is not below.
    rw [applyRecord_of_seen seen advances, seen]
    refine ⟨fun above => ⟨above, fun same => ?_⟩, And.left⟩
    by_contra below
    refine Bool.false_ne_true (advances.symm.trans (Record.advances_iff.mpr ?_))
    intro earlier mem of
    have less := Record.advances_iff.mp above earlier mem (of.trans same)
    omega
  | true =>
    rw [applyRecord_of_advances seen advances, hasSeen, data_count]
    simp only [see]
    by_cases same : other.topicPartition = record.topicPartition
    · -- The partition's last offset is now that of this record.
      rw [same, IndexMap.get?_insert_self, Option.any_some, decide_eq_false_iff_not, Nat.not_le]
      refine ⟨fun above => ⟨?_, fun _ => above⟩, fun both => both.2 rfl⟩
      refine Record.advances_iff.mpr fun earlier mem of => ?_
      have less := Record.advances_iff.mp advances earlier mem (of.trans same)
      omega
    · rw [IndexMap.get?_insert_of_ne same]
      refine (seen other).trans ⟨fun above => ⟨above, fun back => ?_⟩, And.left⟩
      exact absurd back.symm same

/-- After records were applied they have all been seen as well. -/
theorem HasSeenAll.foldl (seen : HasSeenAll before slot) (tolerance : Nat) (records : List Record) :
    HasSeenAll (before ++ records) (records.foldl (·.applyRecord tolerance ·) slot) := by
  induction records generalizing slot before with
  | nil => rwa [List.append_nil]
  | cons record records ih =>
    rw [List.append_cons]
    exact ih (seen.applyRecord tolerance record)

/-- Applying records leaves what applying the advancing ones of them does. -/
theorem foldl_advancing (seen : HasSeenAll before slot) (tolerance : Nat) (records : List Record) :
    records.foldl (·.applyRecord tolerance ·) slot
      = (advancing before records).foldl (·.applyRecord tolerance ·) slot := by
  induction records generalizing slot before with
  | nil => rfl
  | cons record records ih =>
    have next := ih (seen.applyRecord tolerance record)
    rw [List.foldl_cons, advancing]
    by_cases advances : record.advances before = true
    · rw [if_pos advances, List.foldl_cons, next]
    · rw [if_neg advances, next, applyRecord_of_seen seen (by simpa using advances)]

/-- The view holds the values of the advancing records, applied in order. -/
theorem view_foldl_applyRecord (seen : HasSeenAll before slot) (tolerance : Nat)
    (records : List Record) :
    (records.foldl (·.applyRecord tolerance ·) slot).data.view
      = slot.data.view.map ((advancing before records).foldl applyValue) := by
  induction records generalizing slot before with
  | nil => simp [advancing]
  | cons record records ih =>
    have next := ih (seen.applyRecord tolerance record)
    rw [List.foldl_cons, next, advancing]
    by_cases advances : record.advances before = true
    · rw [if_pos advances, applyRecord_of_advances seen advances, data_count]
      simp [see, Function.comp_def]
    · rw [if_neg advances, applyRecord_of_seen seen (by simpa using advances)]

end MirrorSlot

namespace CacheState

variable {s : CacheState} {mirrorName : String} {slot : MirrorSlot} {bootstrapHwm : Nat}
  {keepsValues : Bool}

/-- A mirror stands where the advancing records alone would have brought it. -/
theorem get?_applyAll_advancing (there : s.mirrors.get? mirrorName = some slot)
    (fresh : MirrorSlot.Fresh bootstrapHwm keepsValues slot) (records : List Record) :
    (s.applyAll mirrorName records).mirrors.get? mirrorName
      = (s.applyAll mirrorName (advancing [] records)).mirrors.get? mirrorName := by
  rw [get?_applyAll, get?_applyAll, there, Option.map_some, Option.map_some,
    MirrorSlot.foldl_advancing (.of_fresh fresh)]

/-- A mirror that keeps values holds those of the advancing records. -/
theorem view_applyAll (there : s.mirrors.get? mirrorName = some slot)
    (fresh : MirrorSlot.Fresh bootstrapHwm true slot) (records : List Record) :
    ∃ slot', (s.applyAll mirrorName records).mirrors.get? mirrorName = some slot'
      ∧ slot'.data.view = some ((advancing [] records).foldl applyValue []) := by
  refine ⟨_, by rw [get?_applyAll, there]; rfl, ?_⟩
  rw [MirrorSlot.view_foldl_applyRecord (.of_fresh fresh), fresh.data]
  rfl

/-- A mirror that records were applied to has seen each of them, or a later one of its partition. -/
theorem getOffsetFor_applyAll (there : s.mirrors.get? mirrorName = some slot) {keepsValues : Bool}
    (fresh : MirrorSlot.Fresh bootstrapHwm keepsValues slot) {records : List Record}
    {record : Record} (mem : record ∈ records) :
    ∃ seen, (s.applyAll mirrorName records).getOffsetFor mirrorName record.topic
        record.partition.toUInt32 = some seen
      ∧ record.sourceOffset ≤ seen := by
  -- A record that was applied is not above itself, so it has been seen.
  have all := (MirrorSlot.HasSeenAll.of_fresh fresh).foldl s.readinessLagTolerance records
  have known : (records.foldl (·.applyRecord s.readinessLagTolerance ·) slot).hasSeen record
      = true := by
    by_contra unseen
    rw [Bool.not_eq_true, all record, List.nil_append, Record.advances_iff] at unseen
    exact absurd (unseen record mem rfl) (Nat.lt_irrefl _)
  rw [MirrorSlot.hasSeen] at known
  cases found : (records.foldl (·.applyRecord s.readinessLagTolerance ·) slot).data.offsets.get?
      record.topicPartition with
  | none =>
    rw [found] at known
    cases known
  | some seen =>
    rw [found] at known
    refine ⟨seen, ?_, of_decide_eq_true known⟩
    simp only [getOffsetFor, get?_applyAll, there]
    exact found

/-- A mirror that keeps values answers each key by its last advancing record. -/
theorem readValue_applyAll (there : s.mirrors.get? mirrorName = some slot)
    (fresh : MirrorSlot.Fresh bootstrapHwm true slot) (records : List Record) (key : String) :
    ((s.applyAll mirrorName records).readValue mirrorName key).map (·.value)
      = some ((lastWritten key (advancing [] records)).map fun entry => (entry.value, entry.offset)) := by
  obtain ⟨slot', found, view⟩ := view_applyAll there fresh records
  simp [readValue, found, view, MirrorSlot.get?_view]

end CacheState

/-- Records in increasing order all advance. -/
theorem advancing_of_increasing {before records : List Record}
    (increasing : (before ++ records).Pairwise (·.sourceOffset < ·.sourceOffset)) :
    advancing before records = records := by
  induction records generalizing before with
  | nil => rfl
  | cons record records ih =>
    have above : record.advances before = true := by
      rw [List.pairwise_append] at increasing
      exact Record.advances_iff.mpr fun earlier mem _ =>
        increasing.2.2 earlier mem record (.head _)
    rw [advancing, if_pos above, ih (by simpa using increasing)]

/-- A mirror's cache after any records is what the records that go beyond all earlier ones of their
partition make of it. Each key answers the value and the offset of its last such record, unless that
is a deletion, and keys are listed in the order of their first write since their last deletion. -/
theorem applyAll_advancing (s : CacheState) (mirrorName : String) (bootstrapHwm : Nat)
    (committed : Option Nat) (isMain : Bool) (topic : String) (partition : UInt32)
    (records : List Record) :
    let serving := s.registerMirrorWithTopic mirrorName bootstrapHwm committed isMain topic partition
    let tracking := s.registerProgressOnly mirrorName bootstrapHwm topic partition
    let cache := serving.applyAll mirrorName records
    let counted := advancing [] records
    cache.mirrors.get? mirrorName = (serving.applyAll mirrorName counted).mirrors.get? mirrorName ∧
    (tracking.applyAll mirrorName records).mirrors.get? mirrorName
      = (tracking.applyAll mirrorName counted).mirrors.get? mirrorName ∧
    (∀ key, (cache.readValue mirrorName key).map (·.value)
      = some ((lastWritten key counted).map fun entry => (entry.value, entry.offset))) ∧
    ∃ keys, cache.snapshotKeysFor mirrorName = some keys ∧ keys.Nodup ∧
      (∀ key, key ∈ keys ↔ (lastWritten key counted).isSome) ∧
      (∀ key ∈ keys, ∃ i, Keyed.OpenedAt Record.utf8Key Record.entry key counted i) ∧
      keys.Pairwise (Keyed.OpenedBefore Record.utf8Key Record.entry counted) ∧
      cache.snapshotValuesFor mirrorName
        = some (keys.filterMap fun key => (lastWritten key counted).map (·.value)) := by
  intro serving tracking cache counted
  obtain ⟨slot, there, fresh⟩ := CacheState.get?_registerMirrorWithTopic s mirrorName bootstrapHwm
    committed isMain topic partition
  obtain ⟨slot', there', fresh'⟩ := CacheState.get?_insertSlot s mirrorName bootstrapHwm none topic
    partition false
  obtain ⟨after, found, view⟩ := CacheState.view_applyAll there fresh records
  change cache.mirrors.get? mirrorName = some after at found
  have ordered := @Keyed.inOrderOf_build _ _ _ Record.utf8Key Record.entry _ counted
  rw [← MirrorSlot.foldl_applyValue] at ordered
  have answers := MirrorSlot.get?_view counted
  have nodup := MirrorSlot.nodup_view counted
  change after.data.view = some (counted.foldl applyValue []) at view
  generalize counted.foldl applyValue [] = map at view ordered answers nodup
  refine ⟨CacheState.get?_applyAll_advancing there fresh records,
    CacheState.get?_applyAll_advancing there' fresh' records, ?_, ?_⟩
  · intro key
    simp [CacheState.readValue, found, view, answers]
  · refine ⟨map.map (·.1), ?_, nodup, ?_, ordered.opened, ordered.listed, ?_⟩
    · simp [CacheState.snapshotKeysFor, found, view]
    · intro key
      rw [IndexMap.mem_keys, answers]
    · -- Each entry holds what its key last wrote.
      have values : (map.map (·.1)).filterMap (fun key => (lastWritten key counted).map (·.value))
          = map.map (·.2.value) := by
        rw [List.filterMap_map, ← List.filterMap_eq_map]
        refine List.filterMap_congr fun entry mem => ?_
        rw [Function.comp_apply, ← answers, IndexMap.get?_of_mem nodup mem]
        rfl
      rw [values]
      simp [CacheState.snapshotValuesFor, found, view]

end MirrorV3
