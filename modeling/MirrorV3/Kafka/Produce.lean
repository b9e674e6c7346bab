import MirrorV3.Lib.History
import MirrorV3.Core.RunLoop
import MirrorV3.Core.LogSource
import MirrorV3.Envelope.Sample
import MirrorV3.Kafka.Position

/-! Process lifetimes of a Kafka mirror: the partition is a part of the source log, record for record. -/

namespace MirrorV3

open Effect

/-- A log whose records are numbered from zero without a hole. -/
def Log.HoleFree (log : Log) : Prop :=
  ∀ (i : Nat) (record : Record), log.records[i]? = some record → record.sourceOffset = i

/-- Without holes, the next record from a position on is the one at that place. -/
theorem Log.HoleFree.get_of_next {log : Log} (holeFree : log.HoleFree) {n : Nat} {record : Record}
    (found : log.next n = some record) : log.records[n]? = some record := by
  unfold Log.next Window.firstFrom at found
  obtain ⟨above, i, within, here, first⟩ := List.find?_eq_some_iff_getElem.mp found
  have atPlace : record.sourceOffset = i :=
    holeFree i record (List.getElem?_eq_some_iff.mpr ⟨within, here⟩)
  have above : n ≤ record.sourceOffset := by simpa using above
  rcases Nat.lt_or_eq_of_le above with later | same
  · -- A record at place `n` would have been found before this one.
    have earlier : n < log.records.length := by omega
    have numbered := holeFree n _ (List.getElem?_eq_getElem earlier)
    have skipped := first n (by omega)
    simp [numbered] at skipped
  · rw [List.getElem?_eq_some_iff]
    exact ⟨by omega, by simpa [same, atPlace] using here⟩

/-- One process lifetime of a Kafka mirror: everything its surroundings will answer it. -/
structure KafkaLifetime (N : Type) where
  lowWatermark : Nat
  answers : Stream' SourceAnswer
  notifier : N
  events : List LoopEvent

variable {β N : Type}

namespace KafkaLifetime

/-- The mirror a lifetime runs on an opened destination. -/
def mirror (life : KafkaLifetime N) (log : Log) (sink : KafkaSink β) :
    Mirror LogSource (KafkaSink β) N :=
  ⟨⟨log, 0, life.lowWatermark, life.answers⟩, sink, life.notifier⟩

variable [Broker β] [PayloadParsers]

/-- The partition as a lifetime leaves it. -/
def run [Notifier N] (life : KafkaLifetime N) (config : KafkaSinkConfig) (log : Log) (broker : β) : β :=
  match KafkaSink.openSink config broker with
  | .error _ broker => broker
  | .ok sink _ => (after (Mirror.runMirrorWithNotifier life.events) (life.mirror log sink)).sink.broker

/-- A startup that does not resume: a call failed, or the source does not reach the position. -/
def Refused (n lowWatermark : Nat) : Halt → Prop
  | .failed (.sink (.transport _)) => True
  | .failed (.source _) => True
  | .failed (.sinkAheadOfSource position highWatermark) => position = n ∧ highWatermark < n
  | .failed (.sourceCompactedBelowExpected start low _) =>
    start = n ∧ low = lowWatermark ∧ n < lowWatermark
  | _ => False

/-- A lifetime that starts on this partition resumes at `n`, and reads the source from there. -/
def Resumes (life : KafkaLifetime N) (config : KafkaSinkConfig) (log : Log) (broker : β) (n : Nat) :
    Prop :=
  wp (KafkaSink.openSink config)
    (fun sink _ => wp Mirror.bootstrap (fun expected m => expected = n ∧ m.source.position = n)
      (fun halt _ => Refused n life.lowWatermark halt) (life.mirror log sink))
    (fun _ _ => True) broker

end KafkaLifetime

section Invariant

variable {config : KafkaSinkConfig} {log : Log} {n : Nat}

/-- A partition that holds exactly the first `n` records of a log. -/
structure Produced (config : KafkaSinkConfig) (log : Log) (n : Nat) (records : List FutureRecord) :
    Prop where
  within : n ≤ log.records.length
  exact : records = (log.records.take n).map config.futureRecord

/-- The partition has as many records as were produced. -/
theorem Produced.length_eq {records : List FutureRecord} (holds : Produced config log n records) :
    records.length = n := by
  have := holds.within
  rw [holds.exact, List.length_map, List.length_take]
  omega

/-- A part of a partition from its start holds the first records as well. -/
theorem Produced.cut {records shown : List FutureRecord} (holds : Produced config log n records)
    (part : shown <+: records) : ∃ k, Produced config log k shown := by
  have fits := part.length_le
  have size := holds.length_eq
  have := holds.within
  refine ⟨shown.length, by omega, ?_⟩
  -- The part is a take of the whole, and taking from a take is taking from the log.
  have atEnd : min shown.length n = shown.length := by omega
  calc shown
      = records.take shown.length := List.prefix_iff_eq_take.mp part
    _ = ((log.records.take n).take shown.length).map config.futureRecord := by
        rw [List.map_take, ← holds.exact]
    _ = (log.records.take shown.length).map config.futureRecord := by rw [List.take_take, atEnd]

/-- The next record of the log makes the partition one record longer. -/
theorem Produced.snoc {records : List FutureRecord} {record : Record}
    (holds : Produced config log n records) (next : log.records[n]? = some record) :
    Produced config log (n + 1) (records ++ [config.futureRecord record]) := by
  obtain ⟨within, here⟩ := List.getElem?_eq_some_iff.mp next
  refine ⟨within, ?_⟩
  rw [holds.exact, List.take_succ_eq_append_getElem within, List.map_append, here]
  rfl

variable [PartitionHistory β]

/-- A destination that holds the first `n` records and whose producer repeats nothing. -/
structure Gated (config : KafkaSinkConfig) (log : Log) (n : Nat) (s : KafkaSink β) : Prop where
  settings : s.config = config
  noRetries : ClientConfig.get s.producer "message.send.max.retries" = some "0"
  produced : Produced config log n (stored s.broker)

/-- What is left of a destination that failed: the partition holds some first records. -/
def ProducedSome (config : KafkaSinkConfig) (log : Log) (s : KafkaSink β) : Prop :=
  ∃ n, Produced config log n (stored s.broker)

variable [Broker β] [LawfulBroker β]

namespace KafkaSink

variable {s : KafkaSink β}

/-- The high watermark of the partition is the number of records it holds. -/
theorem fetchHighWatermark_gated (holds : Gated config log n s) :
    wp fetchHighWatermark (fun high s' => Gated config log n s' ∧ high = n)
      (fun e s' => Produced config log n (stored s'.broker) ∧ ∃ message, e = .transport message)
      s := by
  refine wp_mono fetchHighWatermark_spec ?_ ?_
  · rintro high s' ⟨clients, same, atEnd⟩
    refine ⟨⟨clients.1.trans holds.settings, clients.2 ▸ holds.noRetries, same ▸ holds.produced⟩, ?_⟩
    exact atEnd.trans holds.produced.length_eq
  · rintro e s' ⟨same, transport⟩
    exact ⟨same ▸ holds.produced, transport⟩

variable [PayloadParsers]

/-- A produced record is the next one, and a failed produce leaves it out or in, but only once. -/
theorem write_gated {record : Record} (holds : Gated config log n s)
    (next : log.records[n]? = some record) :
    wp (write record) (fun _ s' => Gated config log (n + 1) s')
      (fun _ s' => ∃ k ≤ n + 1, Produced config log k (stored s'.broker)) s := by
  have longer : ∀ s' : KafkaSink β, Appended record s s' →
      Produced config log (n + 1) (stored s'.broker) := by
    rintro s' ⟨-, appended⟩
    rw [appended, holds.settings]
    exact holds.produced.snoc next
  refine wp_mono (write_spec record holds.noRetries) (fun _ s' ⟨clients, appended⟩ => ?_)
    (fun _ s' failed => ?_)
  · exact ⟨clients.1.trans holds.settings, clients.2 ▸ holds.noRetries, longer s' appended⟩
  · -- A produce that was reported failed may have been appended all the same.
    rcases failed with same | appended
    · exact ⟨n, by omega, same ▸ holds.produced⟩
    · exact ⟨n + 1, Nat.le_refl _, longer s' appended⟩

omit [PayloadParsers] in
/-- Opening a destination stores nothing, and its producer repeats nothing. -/
theorem openSink_gated {broker : β} (holds : Produced config log n (stored broker)) :
    wp (openSink config) (fun sink _ => Gated config log n sink)
      (fun _ broker' => Produced config log n (stored broker')) broker := by
  simp only [openSink, wp_bind, wp_focus, wp_get, wp_pure]
  refine wp_mono (LawfulBroker.create_spec _ broker) (fun _ broker₁ same₁ => ?_)
    (fun _ _ same => same ▸ holds)
  refine wp_mono (LawfulBroker.create_spec _ broker₁) (fun _ broker₂ same₂ => ?_)
    (fun _ _ same => by rw [same, same₁]; exact holds)
  refine ⟨rfl, producerConfig_noRetries _, ?_⟩
  show Produced config log n (stored broker₂)
  rw [same₂, same₁]
  exact holds

end KafkaSink

variable [PayloadParsers]

/-- A mirror that has produced the first `n` records of a log and reads on from there. -/
structure Producing [PartitionHistory β] (config : KafkaSinkConfig) (log : Log) (n : Nat)
    (m : Mirror LogSource (KafkaSink β) N) : Prop where
  fed : m.source.log = log
  position : m.source.position = n
  sink : Gated config log n m.sink

variable [Notifier N]

/-- One poll produces the next record, or finds the partition where it should be. -/
theorem poll_producing (holeFree : log.HoleFree) {m : Mirror LogSource (KafkaSink β) N}
    (holds : Producing config log n m) :
    wp (Mirror.poll n) (fun n' m' => Producing config log n' m')
      (fun _ m' => ProducedSome config log m'.sink) m := by
  have unchanged : ProducedSome config log m.sink := ⟨n, holds.sink.produced⟩
  simp only [Mirror.poll, Mirror.onSource, wp_bind, wp_focus]
  refine wp_mono (LogSource.pollOne_spec m.source) (fun polled source ⟨same, moved⟩ => ?_)
    (fun _ _ _ => unchanged)
  cases polled with
  | none =>
    simp only [Mirror.verifyIdle, Mirror.onSink, wp_bind, wp_focus, wp_ensure, wp_pure]
    refine wp_mono (KafkaSink.fetchHighWatermark_gated holds.sink)
      (fun high sink ⟨kept, atHigh⟩ => ?_) (fun _ _ failed => ⟨n, failed.1⟩)
    rw [if_pos atHigh]
    exact ⟨same.1.trans holds.fed, moved.trans holds.position, kept⟩
  | some record =>
    obtain ⟨found, after⟩ := moved
    rw [holds.fed, holds.position] at found
    have next := holeFree.get_of_next found
    have atPlace := holeFree n record next
    simp only [Mirror.deliver, Mirror.onSink, Mirror.onNotifier, wp_bind, wp_get, wp_focus,
      wp_ensure, wp_pure]
    -- The record is the expected one, so neither position check stops the run.
    rw [if_pos (Nat.le_of_eq atPlace.symm), if_pos (.inl (Nat.le_of_eq atPlace))]
    refine wp_mono (KafkaSink.write_gated holds.sink next) (fun _ sink kept => ?_)
      (fun _ _ ⟨k, _, left⟩ => ⟨k, left⟩)
    have taken : ProducedSome config log sink := ⟨n + 1, kept.produced⟩
    split
    · -- Whatever the observer does, the record has been produced.
      refine wp_any (fun _ _ => ⟨same.1.trans holds.fed, after, ?_⟩) (fun _ _ => taken)
      rw [atPlace]
      exact kept
    · exact taken

/-- Every event keeps the partition a first part of the log. -/
theorem loop_producing (holeFree : log.HoleFree) (events : List LoopEvent)
    {m : Mirror LogSource (KafkaSink β) N} (holds : Producing config log n m) :
    wp (Mirror.loop events n) (fun _ m' => ProducedSome config log m'.sink)
      (fun _ m' => ProducedSome config log m'.sink) m := by
  have stops : ∀ n (m : Mirror LogSource (KafkaSink β) N), Producing config log n m →
      wp Mirror.stop (fun _ m' => ProducedSome config log m'.sink)
        (fun _ m' => ProducedSome config log m'.sink) m := by
    intro n m kept
    -- A graceful stop has nothing to flush, and then only the observer is left.
    have flushed : (Sink.flush : Program SinkError (KafkaSink β) _) = pure () := rfl
    simp only [Mirror.stop, Mirror.onSink, Mirror.onNotifier, wp_bind, wp_focus, flushed, wp_pure]
    exact wp_any (fun _ _ => ⟨n, kept.sink.produced⟩) (fun _ _ => ⟨n, kept.sink.produced⟩)
  refine wp_mono (Mirror.loop_rule (fun _ _ kept => poll_producing holeFree kept)
    (fun _ _ kept => kept) stops events n m holds) (fun progress m' left => ?_)
    (fun _ _ failed => failed)
  cases progress with
  | running expected => exact ⟨expected, left.sink.produced⟩
  | finished => exact left

omit [Notifier N] in
/-- A startup resumes at the end of the partition, or is refused with the partition as it was. -/
theorem bootstrap_producing {m : Mirror LogSource (KafkaSink β) N} (fed : m.source.log = log)
    (gated : Gated config log n m.sink) :
    wp Mirror.bootstrap (fun expected m' => expected = n ∧ Producing config log n m')
      (fun halt m' => KafkaLifetime.Refused n m.source.lowWatermark halt
        ∧ Produced config log n (stored m'.sink.broker)) m := by
  simp only [Mirror.bootstrap, Mirror.onSink, Mirror.onSource, wp_bind, wp_focus]
  refine wp_mono (KafkaSink.fetchHighWatermark_gated gated) (fun start sink ⟨kept, atStart⟩ => ?_)
    (fun e _ ⟨left, message, transport⟩ => ⟨by rw [transport]; trivial, left⟩)
  subst atStart
  refine wp_mono (LogSource.lowWatermark_spec m.source) (fun low source ⟨same, atLow⟩ => ?_)
    (fun _ _ _ => ⟨trivial, kept.produced⟩)
  refine wp_mono (LogSource.highWatermark_spec source) (fun high source' same' => ?_)
    (fun _ _ _ => ⟨trivial, kept.produced⟩)
  have furthest : (Sink.furthestNextOffset : Program SinkError (KafkaSink β) _) = pure none := rfl
  simp only [furthest, wp_pure, wp_ensure, wp_get, wp_ite, wp_bind, wp_focus, Option.getD_none]
  split
  · split
    · -- A Kafka destination cannot leave out what the source no longer has.
      rename_i below
      exact ⟨⟨rfl, atLow, atLow ▸ below⟩, kept.produced⟩
    · refine wp_mono (LogSource.seek_spec start source') (fun _ source'' ⟨same'', moved⟩ => ?_)
        (fun _ _ _ => ⟨trivial, kept.produced⟩)
      exact ⟨trivial, same''.1.trans (same'.1.trans (same.1.trans fed)), moved, kept⟩
  · rename_i ahead
    exact ⟨⟨rfl, by simpa using ahead⟩, kept.produced⟩

/-- A lifetime that starts on a first part of the log leaves a first part of the log. -/
theorem run_produced (holeFree : log.HoleFree) (life : KafkaLifetime N) {broker : β}
    (holds : Produced config log n (stored broker)) :
    ∃ n, Produced config log n (stored (life.run config log broker)) := by
  cases outcome : KafkaSink.openSink config broker with
  | error e broker' =>
    have left := wp_of_error (KafkaSink.openSink_gated holds) outcome
    exact ⟨n, by simpa only [KafkaLifetime.run, outcome] using left⟩
  | ok sink broker' =>
    have gated := wp_of_ok (KafkaSink.openSink_gated holds) outcome
    have started : wp Mirror.bootstrap (fun expected m => expected = n ∧ Producing config log n m)
        (fun halt m => KafkaLifetime.Refused n life.lowWatermark halt
          ∧ Produced config log n (stored m.sink.broker)) (life.mirror log sink) :=
      bootstrap_producing rfl gated
    simp only [KafkaLifetime.run, outcome]
    refine after_of_wp
      (fun m : Mirror LogSource (KafkaSink β) N => ProducedSome config log m.sink) ?_
    simp only [Mirror.runMirrorWithNotifier, wp_bind]
    refine wp_mono started (fun expected m' ⟨atEnd, kept⟩ => ?_) (fun _ _ failed => ⟨n, failed.2⟩)
    subst atEnd
    exact loop_producing holeFree life.events kept

/-- Partitions that lifetimes of a mirror leave behind, one after the other from an empty one. -/
def LeftBy (N : Type) [Notifier N] (config : KafkaSinkConfig) (log : Log) : β → Prop :=
  History.Reached stored (fun fresh => stored fresh = [])
    (fun before last => ∃ life : KafkaLifetime N, last = life.run config log before)

/--
A Kafka destination holds a first part of its log, each record once and at its own offset.

Lost acknowledgements, failed sends and crashes included, the next lifetime resumes where it ends.
-/
theorem produce_exactly_once (holeFree : log.HoleFree) {broker : β}
    (reached : LeftBy N config log broker) :
    ∃ n ≤ log.records.length,
      stored broker = (log.records.take n).map config.futureRecord
      ∧ (∀ k < n, ∃ record ∈ log.records, record.sourceOffset = k
          ∧ (stored broker)[k]? = some (config.futureRecord record))
      ∧ ∀ life : KafkaLifetime N, life.Resumes config log broker n := by
  obtain ⟨n, produced⟩ : ∃ n, Produced config log n (stored broker) := by
    have run : ∀ before last : β, (∃ n, Produced config log n (stored before)) →
        (∃ life : KafkaLifetime N, last = life.run config log before) →
          ∃ n, Produced config log n (stored last) := by
      rintro before last ⟨n, produced⟩ ⟨life, rfl⟩
      exact run_produced holeFree life produced
    exact reached.rule (fun records => ∃ n, Produced config log n records)
      (fun broker empty => ⟨0, Nat.zero_le _, by simpa using empty⟩) run
      (fun _ _ part ⟨_, whole⟩ => whole.cut part)
  refine ⟨n, produced.within, produced.exact, fun k below => ?_, fun life => ?_⟩
  · have within : k < log.records.length := Nat.lt_of_lt_of_le below produced.within
    have here := List.getElem?_eq_getElem within
    refine ⟨_, List.getElem_mem within, holeFree k _ here, ?_⟩
    rw [produced.exact, List.getElem?_map, List.getElem?_take_of_lt below, here]
    rfl
  · unfold KafkaLifetime.Resumes
    refine wp_mono (KafkaSink.openSink_gated produced) (fun sink _ gated => ?_)
      (fun _ _ _ => trivial)
    exact wp_mono (bootstrap_producing rfl gated)
      (fun expected m' ⟨atEnd, kept⟩ => ⟨atEnd, kept.position⟩) (fun _ _ refused => refused.1)

end Invariant

namespace Sample

/-- A record with a key and a timestamp. -/
def keyed (offset : Nat) : Record where
  topic := "t"
  partition := 0
  sourceOffset := offset
  timestampMs := some 1700000000000
  timestampType := .createTime
  key := some [107]
  value := none
  headers := [⟨"h", none⟩]

/-- A log of two records. -/
def twoRecords : Log where
  records := [keyed 0, keyed 1]
  increasing := by simp [keyed]
  numbered := by simp [keyed]

/-- A Kafka destination without column checks. -/
def kafka : KafkaSinkConfig := ⟨"broker:9092", "copy", 3, .source, .bytes, .bytes⟩

/-- A lifetime that polls twice, with a source that answers every request. -/
def produces : KafkaLifetime NoOpNotifier := ⟨0, fun _ => ⟨none, false, 2⟩, {}, [.poll, .poll]⟩

/-- A partition with the given records, whose broker loses the acknowledgement of one produce. -/
def partitionOf (records : List FutureRecord) (lost : Nat) : Partition :=
  ⟨records, fun n => ⟨if n = lost then some "timed out" else none, true, false⟩⟩

/-- The partition after a lifetime whose first produce landed and was reported failed. -/
def afterLostAck : Partition := produces.run kafka twoRecords (partitionOf [] 4)

/-- After a lost acknowledgement the next lifetime produces the second record and no other. -/
theorem produce_exactly_once_sample :
    stored afterLostAck = [kafka.futureRecord (keyed 0)]
      ∧ ∃ n ≤ 2, stored (produces.run kafka twoRecords (partitionOf (stored afterLostAck) 9))
          = ([keyed 0, keyed 1].take n).map kafka.futureRecord := by
  have holeFree : twoRecords.HoleFree := by
    intro i record at_i
    match i with
    | 0 => cases at_i; rfl
    | 1 => cases at_i; rfl
  have start : LeftBy NoOpNotifier kafka twoRecords (partitionOf [] 4) := .fresh rfl
  have first : LeftBy NoOpNotifier kafka twoRecords (partitionOf (stored afterLostAck) 9) :=
    .lifetime start ⟨produces, rfl⟩ (by decide +kernel) (List.prefix_refl _)
  have second : LeftBy NoOpNotifier kafka twoRecords
      (produces.run kafka twoRecords (partitionOf (stored afterLostAck) 9)) :=
    .lifetime first ⟨produces, rfl⟩ (by decide +kernel) (List.prefix_refl _)
  obtain ⟨n, within, produced, -⟩ := produce_exactly_once holeFree second
  exact ⟨by decide +kernel, n, within, produced⟩

end Sample

end MirrorV3
