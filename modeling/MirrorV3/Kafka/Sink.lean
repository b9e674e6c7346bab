import MirrorV3.Core.Traits
import MirrorV3.Kafka.Broker

/-! The Kafka destination: every record is produced against the partition's high watermark. -/

namespace MirrorV3

open Effect

/-- Which timestamp the destination record ends up with. -/
inductive TimestampMode where
  /-- The one the record has at the source. -/
  | source
  /-- The one the destination broker stamps on receipt. -/
  | destination
  deriving Repr, DecidableEq

/-- Where a Kafka destination is and what it requires of the records. -/
structure KafkaSinkConfig where
  bootstrapServers : String
  topic : String
  partition : Int32
  timestampMode : TimestampMode
  keys : ColumnType
  values : ColumnType
  deriving Repr, DecidableEq

/-- Why a Kafka client could not be made or read with. -/
inductive KafkaError where
  | init (message : String)
  deriving Repr, DecidableEq

/-- The message of a Kafka error. -/
def KafkaError.display : KafkaError → String
  | .init message => s!"kafka client init: {message}"

/-- Producer settings under which nothing but the gate before a produce ever repeats one. -/
def producerConfig (bootstrapServers : String) : ClientConfig :=
  ClientConfig.set (ClientConfig.set (ClientConfig.set (ClientConfig.set (ClientConfig.set []
    "bootstrap.servers" bootstrapServers)
    "acks" "all")
    "enable.idempotence" "false")
    "max.in.flight.requests.per.connection" "1")
    "message.send.max.retries" "0"

/-- The client never sends a produce request a second time. -/
theorem producerConfig_noRetries (bootstrapServers : String) :
    (producerConfig bootstrapServers).get "message.send.max.retries" = some "0" :=
  ClientConfig.get_set_self _ _ _

/-- Settings of the consumer that only ever asks for watermarks. -/
def watermarkConfig (bootstrapServers : String) : ClientConfig :=
  ClientConfig.set (ClientConfig.set (ClientConfig.set []
    "bootstrap.servers" bootstrapServers)
    "group.id" "mirror-v3-watermark-noop")
    "enable.auto.commit" "false"

/-- A signed 64-bit value as an unsigned one, if it is not negative. -/
def u64TryFrom (value : Int64) : Option Nat :=
  if 0 ≤ value.toInt then some value.toInt.toNat else none

/-- A signed 64-bit value reinterpreted as an unsigned one. -/
def asU64 (value : Int64) : Nat := value.toUInt64.toNat

/-- A value that is a natural number is that number when converted. -/
theorem u64TryFrom_eq {value : Int64} {n : Nat} (natural : value.toInt = n) :
    u64TryFrom value = some n := by
  simp [u64TryFrom, natural]

/-- A negative value has no unsigned counterpart. -/
theorem u64TryFrom_neg {value : Int64} (negative : value.toInt < 0) :
    u64TryFrom value = none :=
  if_neg (by omega)

/-- A value that is a natural number is that number when reinterpreted. -/
theorem asU64_eq {value : Int64} {n : Nat} (natural : value.toInt = n) : asU64 value = n := by
  have nonneg : 0 ≤ value.toBitVec.toInt := by
    rw [Int64.toInt_toBitVec, natural]
    exact Int.natCast_nonneg n
  -- A bit vector read as non-negative reads the same without its sign.
  have same : value.toBitVec.toInt = value.toBitVec.toNat := by
    rw [BitVec.toInt_eq_toNat_cond] at nonneg ⊢
    split at nonneg
    · rw [if_pos ‹_›]
    · have := value.toBitVec.isLt
      omega
  rw [Int64.toInt_toBitVec, natural] at same
  exact (Int.ofNat.inj same).symm

/-- A Kafka destination with its producer and the consumer that asks for watermarks. -/
structure KafkaSink (β : Type) where
  broker : β
  producer : ClientConfig
  watermarkConsumer : ClientConfig
  config : KafkaSinkConfig
  /-- The offsets reported to the observer of writes, when one was installed. -/
  writeObserver : Option (List Nat)

/-- The record to produce: the source's key, value and headers, and its timestamp if wanted. -/
def KafkaSinkConfig.futureRecord (config : KafkaSinkConfig) (record : Record) : FutureRecord :=
  { FutureRecord.to config.topic with
    partition := some config.partition
    key := record.key
    payload := record.value
    timestamp :=
      match config.timestampMode with
      | .source => record.timestampMs
      | .destination => none
    headers := if record.headers = [] then none else some record.headers }

namespace KafkaSink

variable {β : Type} [Broker β] [PayloadParsers]

/-- The broker as a part of the destination. -/
def brokerPart : Part (KafkaSink β) β := ⟨broker, fun broker s => { s with broker }⟩

omit [PayloadParsers] in
/-- Make both clients of a destination. -/
def openSink (config : KafkaSinkConfig) : Program KafkaError β (KafkaSink β) := do
  let producer := producerConfig config.bootstrapServers
  focus ⟨id, fun s _ => s⟩ .init (Broker.create producer)
  let watermarkConsumer := watermarkConfig config.bootstrapServers
  focus ⟨id, fun s _ => s⟩ .init (Broker.create watermarkConsumer)
  pure ⟨← get, producer, watermarkConsumer, config, none⟩

/-- The offset after the partition's last record; not knowing it is an error, not offset 0. -/
def fetchHighWatermark : Program SinkError (KafkaSink β) Nat := do
  let s ← get
  let (_, high) ←
    focus brokerPart .transport (Broker.fetchWatermarks s.config.topic s.config.partition)
  match u64TryFrom high with
  | some high => pure high
  | none =>
    throw (.transport (s!"the destination broker reported high watermark {high} for "
      ++ s!"{s.config.topic}/{s.config.partition} (unknown)"))

/-- Report a durable record to the observer, if there is one. -/
def onWritten (sourceOffset : Nat) (s : KafkaSink β) : KafkaSink β :=
  { s with writeObserver := s.writeObserver.map (· ++ [sourceOffset]) }

/-- Hold the record against both columns, and only then ask where the partition is. -/
def write (record : Record) : Program SinkError (KafkaSink β) Unit := do
  let config := (← get).config
  MonadExcept.ofExcept ((config.keys.validate "key" record.sourceOffset record.key).mapError
    .transport)
  MonadExcept.ofExcept ((config.values.validate "value" record.sourceOffset record.value).mapError
    .transport)
  -- The destination must still be at exactly the source offset.
  let current ← fetchHighWatermark
  ensure (current = record.sourceOffset) (.unexpectedPosition record.sourceOffset current)
  let s ← get
  let offset ← focus brokerPart .transport (Broker.send s.producer (config.futureRecord record))
  ensure (asU64 offset = record.sourceOffset)
    (.transport s!"produced offset {offset} != source offset {record.sourceOffset}")
  modify (onWritten record.sourceOffset)

omit [Broker β] [PayloadParsers] in
/-- Install the observer of writes. -/
def setWriteObserver (s : KafkaSink β) : KafkaSink β := { s with writeObserver := some [] }

instance : Sink (KafkaSink β) where
  nextExpectedOffset := fetchHighWatermark
  write := write

end KafkaSink

end MirrorV3
