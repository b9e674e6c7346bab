import MirrorV3.Core.Traits
import MirrorV3.Kafka.RestoreProducer

/-! The Kafka source: a consumer of one partition, and fresh clients that ask where it ends. -/

namespace MirrorV3

open Effect

/-- What a message says about its time. -/
inductive MessageTimestamp where
  | notAvailable
  | createTime (ms : Int64)
  | logAppendTime (ms : Int64)
  deriving Repr, DecidableEq

/-- A message as a consumer lends it. -/
structure BorrowedMessage where
  topic : String
  partition : Int32
  offset : Int64
  timestamp : MessageTimestamp
  key : Option Bytes
  payload : Option Bytes
  headers : Option (List Header)
  deriving Repr, DecidableEq

/-- The record that a message carries. -/
def borrowedToRecord (msg : BorrowedMessage) : Record :=
  let (timestampMs, timestampType) := match msg.timestamp with
    | .createTime ms => (some ms, TimestampType.createTime)
    | .logAppendTime ms => (some ms, TimestampType.logAppendTime)
    | .notAvailable => (none, TimestampType.notAvailable)
  { topic := msg.topic
    partition := msg.partition
    sourceOffset := asU64 msg.offset
    timestampMs, timestampType
    key := msg.key
    value := msg.payload
    headers := msg.headers.getD [] }

/-- The code of a client error, as far as a source tells codes apart. -/
inductive ErrorCode where
  | autoOffsetReset
  | offsetOutOfRange
  | other
  deriving Repr, DecidableEq

/-- How a consumer failed to deliver a message. -/
structure RecvError where
  /-- Absent where the error is of the wrapper and not of the client. -/
  code : Option ErrorCode
  message : String
  deriving Repr, DecidableEq

/-- Whether a consumer says that the broker no longer has the position it reads from. -/
def RecvError.isPositionLost (e : RecvError) : Bool :=
  e.code = some .autoOffsetReset || e.code = some .offsetOutOfRange

/-- A lost position is reported as such, and anything else as a source that was not reached. -/
def RecvError.sourceError (e : RecvError) : SourceError :=
  if e.isPositionLost then .positionLost e.message else .transport e.message

/-- A consumer of a partition, beside the clients that are made to ask about it. -/
class StreamConsumer (κ : Type) extends Broker κ where
  /-- Put a position into a list of partitions. -/
  addPartitionOffset (topic : String) (partition : Int32) (offset : Int64) : Program String κ Unit
  /-- Consume the listed partitions from their positions. -/
  assign (topic : String) (partition : Int32) (offset : Int64) : Program String κ Unit
  /-- Move to a position, whatever offset is known for the group. -/
  seek (topic : String) (partition : Int32) (offset : Int64) : Program String κ Unit
  /-- The next message, or none when the timeout in milliseconds elapses first. -/
  recv (pollTimeout : Nat) : Program RecvError κ (Option BorrowedMessage)
  /-- What is left of the consumer when a poll is dropped before it answers. -/
  abandonRecv : κ → κ := id

/-- Where a source is, and the group that reads it. -/
structure KafkaSourceConfig where
  bootstrapServers : String
  groupId : String
  topic : String
  partition : Int32
  /-- In milliseconds. -/
  pollTimeout : Nat
  deriving Repr, DecidableEq

/-- A source that polls for as long as polls last by default. -/
def KafkaSourceConfig.new (bootstrapServers groupId topic : String) (partition : Int32) :
    KafkaSourceConfig :=
  ⟨bootstrapServers, groupId, topic, partition, 2000⟩

/-- Settings of a source's consumer, which commits nothing by itself and never resets a position. -/
def consumerConfig (bootstrapServers groupId : String) : ClientConfig :=
  ClientConfig.set (ClientConfig.set (ClientConfig.set (ClientConfig.set (ClientConfig.set []
    "bootstrap.servers" bootstrapServers)
    "group.id" groupId)
    "enable.auto.commit" "false")
    "enable.auto.offset.store" "false")
    "auto.offset.reset" "error"

/-- Ask a broker for the earliest offset a partition still has. -/
def fetchLowWatermark {β : Type} [Broker β] (bootstrap topic : String) (partition : Int32) :
    Program KafkaError β Nat := do
  let (low, _) ← fetchWatermarks bootstrap topic partition
  pure low

/-- A source with its consumer. -/
structure KafkaSource (κ : Type) where
  consumer : κ
  config : KafkaSourceConfig

namespace KafkaSource

variable {κ : Type} [StreamConsumer κ]

/-- The consumer as a part of the source. -/
def consumerPart : Part (KafkaSource κ) κ := ⟨consumer, fun consumer s => { s with consumer }⟩

/-- Make the consumer of a source. -/
def openSource (cfg : KafkaSourceConfig) : Program KafkaError κ (KafkaSource κ) := do
  focus ⟨id, fun s _ => s⟩ .init
    (Broker.create (consumerConfig cfg.bootstrapServers cfg.groupId))
  pure ⟨← get, cfg⟩

/-- Assign the partition from an offset on, and seek to that offset as well. -/
def seek (nextOffset : Nat) : Program SourceError (KafkaSource κ) Unit := do
  let config := (← get).config
  let offset := Int64.ofNat nextOffset
  focus consumerPart (fun e => .transport s!"tpl add: {e}")
    (StreamConsumer.addPartitionOffset config.topic config.partition offset)
  focus consumerPart (fun e => .transport s!"assign: {e}")
    (StreamConsumer.assign config.topic config.partition offset)
  focus consumerPart (fun e => .transport s!"seek: {e}")
    (StreamConsumer.seek config.topic config.partition offset)

/-- Wait for the next message for as long as a poll lasts. -/
def pollOne : Program SourceError (KafkaSource κ) (Option Record) := do
  let polled ← focus consumerPart RecvError.sourceError
    (StreamConsumer.recv (← get).config.pollTimeout)
  pure (polled.map borrowedToRecord)

/-- The earliest offset the broker still has, asked for by a client of its own. -/
def lowWatermark : Program SourceError (KafkaSource κ) Nat := do
  let config := (← get).config
  focus consumerPart (fun e => .transport s!"fetch_low_watermark: {e.display}")
    (fetchLowWatermark config.bootstrapServers config.topic config.partition)

/-- The offset after the last record, asked for by a client of its own. -/
def highWatermark : Program SourceError (KafkaSource κ) Nat := do
  let config := (← get).config
  focus consumerPart (fun e => .transport s!"fetch_high_watermark: {e.display}")
    (fetchHighWatermark config.bootstrapServers config.topic config.partition)

instance : Source (KafkaSource κ) where
  seek := seek
  pollOne := pollOne
  abandonPoll s := { s with consumer := StreamConsumer.abandonRecv s.consumer }
  lowWatermark := lowWatermark
  highWatermark := highWatermark

end KafkaSource

section Watermarks

variable {topic : String} {partition : Int32}

/-- A watermark that is refused is one that the broker does not know. -/
theorem neg_of_watermark {mark : Int64} {e : KafkaError}
    (refused : watermark mark topic partition = .error e) : mark.toInt < 0 := by
  unfold watermark u64TryFrom at refused
  split at refused
  · cases refused
  · rename_i unknown
    split at unknown
    · cases unknown
    · omega

/-- A question about watermarks fails as its calls do, or for a mark that the broker does not know. -/
theorem fetchWatermarks_spec {β : Type} [Broker β] {bootstrap : String}
    {fails : KafkaError → β → Prop} {s : β}
    (unmade : ∀ s, wp (Broker.create (statusConfig bootstrap) : Program String β _)
      (fun _ _ => True) (fun e s' => fails (.init e) s') s)
    (asked : ∀ s, wp (Broker.fetchWatermarks topic partition : Program String β _)
      (fun marks s' => marks.1.toInt < 0 ∨ marks.2.toInt < 0 → ∀ e, fails e s')
      (fun e s' => fails (.init s!"fetch_watermarks: {e}") s') s) :
    wp (fetchWatermarks bootstrap topic partition) (fun _ _ => True) fails s := by
  simp only [fetchWatermarks, wp_bind, wp_focus, wp_ofExcept, wp_pure]
  refine wp_mono (unmade s) (fun _ s₁ _ => ?_) (fun _ _ failed => failed)
  refine wp_mono (asked s₁) ?_ (fun _ _ failed => failed)
  rintro ⟨low, high⟩ s₂ unknown
  -- Both marks are converted, the low one first.
  cases lows : watermark low topic partition with
  | error e => exact unknown (.inl (neg_of_watermark lows)) e
  | ok _ =>
    cases highs : watermark high topic partition with
    | error e => exact unknown (.inr (neg_of_watermark highs)) e
    | ok _ => trivial

end Watermarks

end MirrorV3
