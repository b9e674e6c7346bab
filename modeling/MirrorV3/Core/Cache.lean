import MirrorV3.Lib.IndexMap
import MirrorV3.Core.Record

/-! The in-memory view of each mirror: how far it has come, what it serves, whom it may notify. -/

namespace MirrorV3

/-- A partition as a key of the last-seen offsets. -/
structure TopicPartition where
  topic : String
  partition : UInt32
  deriving Repr, DecidableEq

/-- Where a registered mirror stands. -/
inductive MirrorStatus where
  /-- It has not reached its bootstrap watermark since the process started. -/
  | warming
  | ready
  | lagBehindSource (lag : Nat)
  | sourceUnassigned (topic : String) (partition : UInt32)
  | destinationLagging (name : String) (lag : Nat)
  deriving Repr, DecidableEq

/-- A value and the offset of the record that wrote it. -/
structure Entry where
  value : Bytes
  offset : Nat
  deriving Repr, DecidableEq

/-- What a mirror has seen: its values, when it serves them, and its last offsets. -/
structure SlotData where
  view : Option (IndexMap String Entry)
  offsets : IndexMap TopicPartition Nat
  deriving Repr, DecidableEq

/-- One registered mirror. -/
structure MirrorSlot where
  bootstrapHwm : Nat
  /-- The offset strictly below which records are not notified, set once at registration. -/
  suppressionThreshold : Nat
  topic : String
  partition : UInt32
  lastAppliedOffset : Nat
  brokerEndOffset : Nat
  sourceAssigned : Bool
  status : MirrorStatus
  data : SlotData
  deriving Repr, DecidableEq

/-- The slots of a process, by the names of their mirrors. -/
structure CacheState where
  mirrors : IndexMap String MirrorSlot
  mainMirror : Option String
  readinessLagTolerance : Nat
  deriving Repr, DecidableEq

namespace CacheState

/-- A process with no mirror registered. -/
def new (readinessLagTolerance : Nat) : CacheState := ⟨[], none, readinessLagTolerance⟩

/-- Register a mirror in the state it starts in. -/
def insertSlot (s : CacheState) (mirrorName : String) (bootstrapHwm : Nat)
    (lastCommittedOffset : Option Nat) (topic : String) (partition : UInt32)
    (keepsValues : Bool) : CacheState :=
  { s with
    mirrors := s.mirrors.insert mirrorName {
      bootstrapHwm
      -- A returning group resumes notifying where it committed, a fresh one at the watermark.
      suppressionThreshold := lastCommittedOffset.getD bootstrapHwm
      topic
      partition
      lastAppliedOffset := 0
      brokerEndOffset := bootstrapHwm
      sourceAssigned := true
      status := if bootstrapHwm = 0 then .ready else .warming
      data := ⟨if keepsValues then some [] else none, []⟩ } }

/-- Register a mirror that serves its values. -/
def registerMirrorWithTopic (s : CacheState) (mirrorName : String) (bootstrapHwm : Nat)
    (lastCommittedOffset : Option Nat) (isMain : Bool) (topic : String) (partition : UInt32) :
    CacheState :=
  let s := s.insertSlot mirrorName bootstrapHwm lastCommittedOffset topic partition true
  if isMain then { s with mainMirror := some mirrorName } else s

/-- Register a mirror that only tracks how far it has come. -/
def registerProgressOnly (s : CacheState) (mirrorName : String) (bootstrapHwm : Nat)
    (topic : String) (partition : UInt32) : CacheState :=
  s.insertSlot mirrorName bootstrapHwm none topic partition false

/-- Whether the notifier drops a record of this mirror; an unknown mirror drops none. -/
def isRecordSuppressed (s : CacheState) (mirrorName : String) (sourceOffset : Nat) : Bool :=
  ((s.mirrors.get? mirrorName).map fun slot =>
    decide (sourceOffset < slot.suppressionThreshold)).getD false

end CacheState

/-- The view after a record: its key set or taken out; records without a text key are skipped. -/
def applyValue (view : IndexMap String Entry) (record : Record) : IndexMap String Entry :=
  match record.utf8Key with
  | none => view
  | some key =>
    match record.value with
    | some value => view.insert key ⟨value, record.sourceOffset⟩
    | none => view.shiftRemove key

/-- The status that follows from the inputs, unless a destination is reported lagging. -/
def MirrorSlot.recomputeStatus (slot : MirrorSlot) (tolerance : Nat) : MirrorSlot :=
  match slot.status with
  | .destinationLagging _ _ => slot
  | _ =>
    { slot with
      status :=
        if slot.sourceAssigned = false then .sourceUnassigned slot.topic slot.partition
        else if slot.lastAppliedOffset < slot.bootstrapHwm then .warming
        else
          let lag := slot.brokerEndOffset - slot.lastAppliedOffset
          if tolerance < lag then .lagBehindSource lag else .ready }

/-- The slot after a record, which counts only above the last offset of its partition. -/
def MirrorSlot.applyRecord (slot : MirrorSlot) (tolerance : Nat) (record : Record) : MirrorSlot :=
  let tp : TopicPartition := ⟨record.topic, record.partition.toUInt32⟩
  if (slot.data.offsets.get? tp).any (record.sourceOffset ≤ ·) then slot
  else
    MirrorSlot.recomputeStatus
      { slot with
        data := {
          view := slot.data.view.map (applyValue · record)
          offsets := slot.data.offsets.insert tp record.sourceOffset }
        lastAppliedOffset := max slot.lastAppliedOffset (addOne record.sourceOffset) }
      tolerance

namespace CacheState

/-- Apply a record to one mirror's slot. -/
def applyRecord (s : CacheState) (mirrorName : String) (record : Record) : CacheState :=
  match s.mirrors.get? mirrorName with
  | none => s
  | some slot =>
    { s with
      mirrors := s.mirrors.insert mirrorName (slot.applyRecord s.readinessLagTolerance record) }

/-- Whether the mirror keeps values to serve. -/
def servesValues (s : CacheState) (mirrorName : String) : Bool :=
  (s.mirrors.get? mirrorName).any fun slot => slot.data.view.isSome

/-- Whether the mirror has applied everything that was there when it was registered. -/
def hasCaughtUp (s : CacheState) (mirrorName : String) : Bool :=
  (s.mirrors.get? mirrorName).any fun slot => slot.bootstrapHwm ≤ slot.lastAppliedOffset

variable {s : CacheState} {mirrorName : String} {bootstrapHwm : Nat} {committed : Option Nat}
  {topic : String} {partition : UInt32} {keepsValues : Bool} {offset : Nat}

/-- What a registered mirror suppresses: everything below the commit, or below the watermark. -/
theorem isRecordSuppressed_insertSlot :
    (s.insertSlot mirrorName bootstrapHwm committed topic partition keepsValues).isRecordSuppressed
      mirrorName offset = decide (offset < committed.getD bootstrapHwm) := by
  simp [isRecordSuppressed, insertSlot]

/-- Registering a mirror changes nothing of another. -/
theorem isRecordSuppressed_insertSlot_of_ne {other : String} (differs : other ≠ mirrorName) :
    (s.insertSlot mirrorName bootstrapHwm committed topic partition keepsValues).isRecordSuppressed
      other offset = s.isRecordSuppressed other offset := by
  simp [isRecordSuppressed, insertSlot, IndexMap.get?_insert_of_ne differs]

end CacheState

/-- A cache together with the name of one mirror registered in it. -/
structure CacheBinding where
  state : CacheState
  mirrorName : String
  registered : (state.mirrors.get? mirrorName).isSome

/-- Apply a record to the bound mirror, which stays registered. -/
def CacheBinding.applyRecord (binding : CacheBinding) (record : Record) : CacheBinding where
  state := binding.state.applyRecord binding.mirrorName record
  mirrorName := binding.mirrorName
  registered := by
    unfold CacheState.applyRecord
    cases found : binding.state.mirrors.get? binding.mirrorName with
    | none => simpa [found] using binding.registered
    | some slot => simp

end MirrorV3
