import MirrorV3.Kafka.Sink

/-! The target of a restore: records are produced in order, many in flight, each held to its offset. -/

namespace MirrorV3

open Effect

/-- Where a restore writes its records, in order and once. -/
class RestoreTarget (τ : Type) where
  /-- The offset after the partition's last record. -/
  highWatermark : Program String τ Nat
  /-- Send a record to be stored at `offset`, which it may not be yet when this returns. -/
  send (record : Record) (offset : Nat) : Program String τ Unit
  /-- Wait until every record sent is stored at its offset. -/
  finish : Program String τ Unit

/-- Why a record was not put into the producer's queue. -/
inductive QueueError where
  | queueFull
  | other (message : String)
  deriving Repr, DecidableEq

/-- The message of a refusal to queue a record. -/
def QueueError.display : QueueError → String
  | .queueFull => "Message production error: QueueFull (Local: Queue full)"
  | .other message => message

/-- Where a delivery report says a record was stored. -/
structure Delivery where
  partition : Int32
  offset : Int64
  deriving Repr, DecidableEq

/-- How a delivery that was waited for failed. -/
inductive DeliveryError where
  /-- The report never came. -/
  | canceled
  | failed (message : String)
  deriving Repr, DecidableEq

/-- A broker whose producer queues records and reports on each of them later. -/
class QueueingBroker (β : Type) extends Broker β where
  /-- Queue a record, and answer a ticket for its delivery report. -/
  sendResult (producer : ClientConfig) (record : FutureRecord) : Program QueueError β Nat
  /-- Wait for a delivery report. -/
  delivery (ticket : Nat) : Program DeliveryError β Delivery
  /-- Wait for the producer's queue to empty. -/
  flush : Program String β Unit

/-- Settings of the consumer that is made for one question about watermarks. -/
def statusConfig (bootstrapServers : String) : ClientConfig :=
  ClientConfig.set (ClientConfig.set (ClientConfig.set []
    "bootstrap.servers" bootstrapServers)
    "group.id" "mirror-v3-status-noop")
    "enable.auto.commit" "false"

/-- A watermark the broker knows; one it does not know is an error, not offset 0. -/
def watermark (mark : Int64) (topic : String) (partition : Int32) : Except KafkaError Nat :=
  match u64TryFrom mark with
  | some mark => .ok mark
  | none => .error (.init s!"the broker reported watermark {mark} for {topic}/{partition} (unknown)")

section Clients

variable {β : Type} [Broker β]

/-- Ask a broker for both watermarks of a partition. -/
def fetchWatermarks (bootstrap topic : String) (partition : Int32) :
    Program KafkaError β (Nat × Nat) := do
  focus ⟨id, fun s _ => s⟩ .init (Broker.create (statusConfig bootstrap))
  let (low, high) ← focus ⟨id, fun s _ => s⟩ (fun e => .init s!"fetch_watermarks: {e}")
    (Broker.fetchWatermarks topic partition)
  let low ← MonadExcept.ofExcept (watermark low topic partition)
  let high ← MonadExcept.ofExcept (watermark high topic partition)
  pure (low, high)

/-- Ask a broker for the offset after a partition's last record. -/
def fetchHighWatermark (bootstrap topic : String) (partition : Int32) :
    Program KafkaError β Nat := do
  let (_, high) ← fetchWatermarks bootstrap topic partition
  pure high

end Clients

/-- Records sent and not yet acknowledged, at most. -/
def defaultWindow : Nat := 10000

/-- The header of a record batch, from base offset to record count. -/
def recordBatchOverhead : Nat := 61

/-- Room for the produce request around one batch. -/
def requestOverhead : Nat := 64 * 1024

/-- Producer settings for restore: retries that neither duplicate nor reorder. -/
def restoreProducerConfig (bootstrapServers : String) (maxMessageBytes : Nat) : ClientConfig :=
  let batchSize := min maxMessageBytes (2 ^ 31 - 1)
  let requestSize := min (max (batchSize + requestOverhead) 1000000) 1000000000
  ClientConfig.set (ClientConfig.set (ClientConfig.set (ClientConfig.set (ClientConfig.set
    (ClientConfig.set (ClientConfig.set (ClientConfig.set (ClientConfig.set (ClientConfig.set []
    "bootstrap.servers" bootstrapServers)
    "enable.idempotence" "true")
    "enable.gapless.guarantee" "true")
    "acks" "all")
    "max.in.flight.requests.per.connection" "5")
    "linger.ms" "20")
    "compression.codec" "none")
    "batch.size" (toString batchSize))
    "message.max.bytes" (toString requestSize))
    "statistics.interval.ms" "1000"

section Sizes

/-- The bytes a number takes in groups of seven bits, after at most `more` shifts. -/
def groupsOfSeven : (more : Nat) → (z : Nat) → Nat
  | 0, _ => 1
  | more + 1, z => if 0x80 ≤ z then groupsOfSeven more (z / 2 ^ 7) + 1 else 1

/-- Bytes of a zigzag varint, which has ten groups of seven bits at most. -/
def varintLen (v : Int64) : Nat := groupsOfSeven 9 ((v <<< 1) ^^^ (v >>> 63)).toUInt64.toNat

/-- A length-prefixed field: a null is the length -1 alone. -/
def fieldLen (bytes : Option Bytes) : Nat :=
  match bytes with
  | none => varintLen (-1)
  | some b => varintLen (Int64.ofNat b.length) + b.length

/-- The size of a record as a batch of its own: the smallest batch it can be sent in. -/
def singleRecordBatchBytes (record : Record) : Nat :=
  let body := 1 + varintLen 0 + varintLen 0 + fieldLen record.key + fieldLen record.value
    + varintLen (Int64.ofNat record.headers.length)
    + (record.headers.map fun h => fieldLen (some h.key.toUTF8.data.toList) + fieldLen h.value).sum
  recordBatchOverhead + varintLen (Int64.ofNat body) + body

-- Lengths from 64 take two bytes, as a zigzag varint doubles them.
example : fieldLen (some (List.replicate 64 120)) = 2 + 64 := by decide +kernel

end Sizes

/-- A producer for one partition, with the records that were sent and not yet acknowledged. -/
structure RestoreProducer (β : Type) where
  broker : β
  producer : ClientConfig
  bootstrapServers : String
  topic : String
  partition : Int32
  keys : ColumnType
  values : ColumnType
  maxMessageBytes : Nat
  window : Nat
  /-- The offset each record was sent for, and its ticket, the oldest first. -/
  inFlight : List (Nat × Nat)

namespace RestoreProducer

variable {β : Type}

/-- The broker as a part of the target. -/
def brokerPart : Part (RestoreProducer β) β := ⟨broker, fun broker s => { s with broker }⟩

/-- The record to produce: key, value, headers and timestamp as the backup has them. -/
def futureRecord (s : RestoreProducer β) (record : Record) : FutureRecord :=
  { FutureRecord.to s.topic with
    partition := some s.partition
    key := record.key
    payload := record.value
    timestamp := record.timestampMs
    headers := if record.headers = [] then none else some record.headers }

variable [QueueingBroker β]

/-- Make the producer of a topic whose largest batch is known. -/
def withMaxMessageBytes (bootstrapServers topic : String) (partition : Int32)
    (keys values : ColumnType) (maxMessageBytes : Nat) :
    Program KafkaError β (RestoreProducer β) := do
  let producer := restoreProducerConfig bootstrapServers maxMessageBytes
  focus ⟨id, fun s _ => s⟩ .init (Broker.create producer)
  pure ⟨← get, producer, bootstrapServers, topic, partition, keys, values, maxMessageBytes,
    defaultWindow, []⟩

/-- The message of a delivery that failed, for the offset it was sent for. -/
def notDelivered (offset : Nat) : DeliveryError → String
  | .canceled => s!"offset {offset}: the producer dropped the delivery report"
  | .failed e => s!"offset {offset} was not delivered: {e}"

/-- Wait for the oldest record in flight, which must land at the offset it was sent for. -/
def ackOldest : Program String (RestoreProducer β) Unit := do
  let s ← get
  match s.inFlight with
  | [] => pure ()
  | (offset, ticket) :: rest =>
    -- The record leaves the window before its report is looked at.
    set { s with inFlight := rest }
    let delivered ← focus brokerPart (notDelivered offset) (QueueingBroker.delivery ticket)
    ensure (delivered.partition = s.partition ∧ delivered.offset = Int64.ofNat offset)
      (s!"sent for offset {offset}, the broker stored it at {s.topic}/{delivered.partition} offset "
        ++ s!"{delivered.offset}: another writer on the partition, or a record lost or written twice")

/-- A record went into the queue, and is in flight from now on. -/
def push (offset ticket : Nat) (s : RestoreProducer β) : RestoreProducer β :=
  { s with inFlight := s.inFlight ++ [(offset, ticket)] }

/-- Offer a record to the producer's queue, which says why when it does not take it. -/
def trySend (record : FutureRecord) :
    Program String (RestoreProducer β) (Except QueueError Nat) := do
  focus brokerPart id (attempt (QueueingBroker.sendResult (← get).producer record))

/-- The message of a record the producer did not take. -/
def notQueued (offset : Nat) (e : QueueError) : String :=
  s!"producing offset {offset}: " ++ e.display

/-- Queue a record; a full queue is retried after each of the records still in flight. -/
def enqueue (record : FutureRecord) (offset : Nat) :
    (inFlight : Nat) → Program String (RestoreProducer β) Unit
  | 0 => do
    match ← trySend record with
    | .ok ticket => modify (push offset ticket)
    | .error e => throw (notQueued offset e)
  | inFlight + 1 => do
    match ← trySend record with
    | .ok ticket => modify (push offset ticket)
    | .error .queueFull =>
      ackOldest
      enqueue record offset inFlight
    | .error e => throw (notQueued offset e)

/-- Check a record against both columns and the topic's largest batch, and queue it. -/
def send (record : Record) (offset : Nat) [PayloadParsers] :
    Program String (RestoreProducer β) Unit := do
  let s ← get
  MonadExcept.ofExcept (s.keys.validate "key" offset record.key)
  MonadExcept.ofExcept (s.values.validate "value" offset record.value)
  let alone := singleRecordBatchBytes record
  ensure (alone ≤ s.maxMessageBytes)
    (s!"the record for offset {offset} is a {alone}-byte batch on its own (key "
      ++ s!"{(record.key.map List.length).getD 0} bytes, value "
      ++ s!"{(record.value.map List.length).getD 0} bytes, {record.headers.length} headers), and "
      ++ s!"topic {s.topic}'s max.message.bytes is {s.maxMessageBytes}: the broker would refuse it")
  -- A full window is one record shorter before the next one is sent.
  if s.window ≤ s.inFlight.length then
    ackOldest
  enqueue (s.futureRecord record) offset (← get).inFlight.length

/-- Wait for every record in flight, the oldest first, and give up at the first bad one. -/
def drain : (inFlight : Nat) → Program String (RestoreProducer β) Unit
  | 0 => pure ()
  | inFlight + 1 => do
    ackOldest
    drain inFlight

/-- Wait until every record sent has landed at its offset. -/
def finish : Program String (RestoreProducer β) Unit := do
  drain (← get).inFlight.length
  focus brokerPart (fun e => s!"flush: {e}") QueueingBroker.flush

instance [PayloadParsers] : RestoreTarget (RestoreProducer β) where
  highWatermark := do
    let s ← get
    focus brokerPart KafkaError.display
      (fetchHighWatermark s.bootstrapServers s.topic s.partition)
  send record offset := send record offset
  finish := finish

end RestoreProducer

end MirrorV3
