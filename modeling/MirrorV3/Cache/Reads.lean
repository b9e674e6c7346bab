import MirrorV3.Core.Cache

/-! What readers of the in-memory view ask of it, each question answered from one state. -/

namespace MirrorV3

/-- A partition and the last offset seen of it. -/
structure TopicPartitionOffset where
  topic : String
  partition : UInt32
  offset : Nat
  deriving Repr, DecidableEq

/-- A key's value with the offset that wrote it, and the offsets of the state it was read from. -/
structure ValueRead where
  value : Option (Bytes × Nat)
  offsets : List TopicPartitionOffset
  deriving Repr, DecidableEq

/-- One mirror's row in a snapshot of all of them. -/
structure MirrorStatusSnapshot where
  name : String
  topic : String
  partition : UInt32
  sourceAssigned : Bool
  lastAppliedOffset : Nat
  brokerEndOffset : Nat
  status : MirrorStatus
  deriving Repr, DecidableEq

/-- The order of partitions in an answer: by topic and then by number. -/
def TopicPartitionOffset.before (a b : TopicPartitionOffset) : Bool :=
  a.topic < b.topic || (a.topic == b.topic && a.partition ≤ b.partition)

/-- The last-seen offsets in a fixed order. -/
def sortedOffsets (offsets : IndexMap TopicPartition Nat) : List TopicPartitionOffset :=
  (offsets.map fun entry => ⟨entry.1.topic, entry.1.partition, entry.2⟩).mergeSort
    TopicPartitionOffset.before

namespace CacheState

/-- Every registered mirror's state, in no particular order. -/
def statusSnapshot (s : CacheState) : List MirrorStatusSnapshot :=
  s.mirrors.map fun entry =>
    let slot := entry.2
    ⟨entry.1, slot.topic, slot.partition, slot.sourceAssigned, slot.lastAppliedOffset,
      slot.brokerEndOffset, slot.status⟩

/-- A key's value and the offsets of the same state, unless the mirror serves no values. -/
def readValue (s : CacheState) (mirrorName key : String) : Option ValueRead := do
  let slot ← s.mirrors.get? mirrorName
  let view ← slot.data.view
  return ⟨(view.get? key).map fun entry => (entry.value, entry.offset),
    sortedOffsets slot.data.offsets⟩

/-- Every key of the mirror, in the order they were first seen. -/
def snapshotKeysFor (s : CacheState) (mirrorName : String) : Option (List String) := do
  let slot ← s.mirrors.get? mirrorName
  let view ← slot.data.view
  return view.map (·.1)

/-- Every value of the mirror, in the order of its keys. -/
def snapshotValuesFor (s : CacheState) (mirrorName : String) : Option (List Bytes) := do
  let slot ← s.mirrors.get? mirrorName
  let view ← slot.data.view
  return view.map (·.2.value)

/-- The last offset the mirror has seen of one partition. -/
def getOffsetFor (s : CacheState) (mirrorName topic : String) (partition : UInt32) : Option Nat := do
  let slot ← s.mirrors.get? mirrorName
  slot.data.offsets.get? ⟨topic, partition⟩

/-- The last offset the mirror has seen of each partition. -/
def snapshotOffsetsFor (s : CacheState) (mirrorName : String) :
    Option (List TopicPartitionOffset) := do
  let slot ← s.mirrors.get? mirrorName
  return sortedOffsets slot.data.offsets

end CacheState

end MirrorV3
