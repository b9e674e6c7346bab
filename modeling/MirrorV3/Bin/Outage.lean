import MirrorV3.Core.Observed
import MirrorV3.Kafka.Source
import MirrorV3.Lib.Noting
import MirrorV3.Resume.Reopened

/-! Which failures reopen a mirror that has destinations only, and what none of them should say. -/

namespace MirrorV3

open Effect

/-- How a blob store answered a call. -/
inductive StoreReply where
  | listed (answer : Except BlobError (List String))
  | put (answer : Except BlobError Unit)
  | read (name : String) (answer : Except BlobError Bytes)

/-- A call failed, other than by telling that a name is taken. -/
def StoreReply.fails : StoreReply → Bool
  | .listed (.error _) => true
  | .read _ (.error _) => true
  | .put (.error (.alreadyExists _)) => false
  | .put (.error _) => true
  | _ => false

/-- How a broker answered a call, of a destination's clients or of a source's. -/
inductive BrokerReply where
  | created (answer : Except String Unit)
  | watermarks (answer : Except String (Int64 × Int64))
  | sent (answer : Except String Int64)
  | added (answer : Except String Unit)
  | assigned (answer : Except String Unit)
  | sought (answer : Except String Unit)
  | received (answer : Except RecvError (Option BorrowedMessage))

/-- A call failed, other than by telling that a position is gone. -/
def BrokerReply.fails : BrokerReply → Bool
  | .created (.error _) => true
  | .watermarks (.error _) => true
  | .sent (.error _) => true
  | .added (.error _) => true
  | .assigned (.error _) => true
  | .sought (.error _) => true
  | .received (.error e) => !e.isPositionLost
  | _ => false

/-- An answer about watermarks has both of them. -/
def BrokerReply.knowsEnds : BrokerReply → Bool
  | .watermarks (.ok (low, high)) => 0 ≤ low.toInt && 0 ≤ high.toInt
  | _ => true

section Parties

variable {σ β κ : Type}

instance [BlobStore σ] : BlobStore (Noted StoreReply σ) where
  list := noting .listed BlobStore.list
  putNew name bytes := noting .put (BlobStore.putNew name bytes)
  get name := noting (.read name) (BlobStore.get name)
  listAfter after := noting .listed (BlobStore.listAfter after)
  location s name := BlobStore.location s.party name

instance [Broker β] : Broker (Noted BrokerReply β) where
  create config := noting .created (Broker.create config)
  fetchWatermarks topic partition := noting .watermarks (Broker.fetchWatermarks topic partition)
  send producer record := noting .sent (Broker.send producer record)

instance [StreamConsumer κ] : StreamConsumer (Noted BrokerReply κ) where
  addPartitionOffset topic partition offset :=
    noting .added (StreamConsumer.addPartitionOffset topic partition offset)
  assign topic partition offset :=
    noting .assigned (StreamConsumer.assign topic partition offset)
  seek topic partition offset := noting .sought (StreamConsumer.seek topic partition offset)
  recv pollTimeout := noting .received (StreamConsumer.recv pollTimeout)
  abandonRecv s := { s with party := StreamConsumer.abandonRecv s.party }

/-- A sink of a mirror whose stores and brokers are noted, and the records Kafka sinks are given. -/
abbrev NotedSink (σ β : Type) : Type :=
  BlobSink (Noted StoreReply σ) ⊕ Recorded (KafkaSink (Noted BrokerReply β))

/-- A destination with what is behind it, and the records it was given. -/
inductive Party (σ β : Type) where
  | blob (spec : BlobSpec) (clocks : Clocks) (store : Noted StoreReply σ)
  | kafka (config : KafkaSinkConfig) (presented : List Record) (broker : Noted BrokerReply β)

/-- What a sink leaves behind. -/
def Party.ofSink : NotedSink σ β → Party σ β
  | .inl s => .blob s.spec s.clocks s.store
  | .inr s => .kafka s.sink.config s.presented s.sink.broker

/-- No call on the store or the broker failed. -/
def Party.Reached : Party σ β → Prop
  | .blob _ _ store => ∀ reply ∈ store.notes, reply.fails = false
  | .kafka _ _ broker => ∀ reply ∈ broker.notes, reply.fails = false

instance : (party : Party σ β) → Decidable party.Reached
  | .blob _ _ store => inferInstanceAs (Decidable (∀ reply ∈ store.notes, reply.fails = false))
  | .kafka _ _ broker => inferInstanceAs (Decidable (∀ reply ∈ broker.notes, reply.fails = false))

/-- No call on the source failed. -/
def SourceReached (source : Noted BrokerReply κ) : Prop :=
  ∀ reply ∈ source.notes, reply.fails = false

instance (source : Noted BrokerReply κ) : Decidable (SourceReached source) :=
  inferInstanceAs (Decidable (∀ reply ∈ source.notes, reply.fails = false))

/-- The broker of the source knows where the partition begins and ends whenever it is asked. -/
def SourceSuits (source : Noted BrokerReply κ) : Prop :=
  ∀ reply ∈ source.notes, reply.knowsEnds = true

instance (source : Noted BrokerReply κ) : Decidable (SourceSuits source) :=
  inferInstanceAs (Decidable (∀ reply ∈ source.notes, reply.knowsEnds = true))

/-- An error that can be retried has its reason in what was asked of the source. -/
def SourceExplained (retried : Bool) (source : Noted BrokerReply κ) : Prop :=
  retried = true → SourceReached source → ¬ SourceSuits source

/-- A call on the source that failed is a reason. -/
theorem sourceExplained_of_fails {retried : Bool} {source : Noted BrokerReply κ}
    {reply : BrokerReply} (mem : reply ∈ source.notes) (fails : reply.fails = true) :
    SourceExplained retried source := by
  intro _ reached
  rw [reached reply mem] at fails
  cases fails

variable [PayloadParsers]

/-- A record is what a Kafka destination's columns declare. -/
def KafkaSinkConfig.Fits (config : KafkaSinkConfig) (record : Record) : Prop :=
  config.keys.validate "key" record.sourceOffset record.key = .ok ()
    ∧ config.values.validate "value" record.sourceOffset record.value = .ok ()

/-- The broker knows where the partition ends, and stores each record where it just said it does. -/
def StoresInOrder (replies : List BrokerReply) : Prop :=
  (∀ low high, .watermarks (.ok (low, high)) ∈ replies → 0 ≤ high.toInt)
    ∧ ∀ low high offset, [.watermarks (.ok (low, high)), .sent (.ok offset)] <:+: replies →
      offset = high

/--
What a destination does not tell from a party that it cannot reach.

A blob destination that encrypts needs the columnar format, and one that compacts needs the key of
the snapshot that it reads. A Kafka destination needs records that fit its columns and a broker that
stores them in order.
-/
def Party.Suits : Party σ β → Prop
  | .blob spec _ store => (spec.encryption.isSome = true → spec.format = .parquet)
    ∧ ∀ name bytes, .read name (.ok bytes) ∈ store.notes →
      ∀ id ∈ (parseBlobName name spec.format.extension).bind (·.keyId),
        holdsKey (spec.encryption.map (·.keyring)) id = true
  | .kafka config presented broker =>
    (∀ record ∈ presented, config.Fits record) ∧ StoresInOrder broker.notes

/-- An error that can be retried has its reason in what the sink leaves behind. -/
def Explained (retried : Bool) (party : Party σ β) : Prop :=
  retried = true → party.Reached → ¬ party.Suits

/-- An error that repeats needs no reason. -/
theorem Explained.final {party : Party σ β} : Explained false party := by
  intro never
  cases never

end Parties

namespace KafkaSource

variable {κ : Type} [StreamConsumer κ]

/-- Of a source that is asked for anything, the failures that can be retried have a reason. -/
structure AllExplained {α : Type} (call : Program SourceError (KafkaSource (Noted BrokerReply κ)) α) :
    Prop where
  explained : ∀ s, wp call (fun _ _ => True)
    (fun e s' => SourceExplained e.isTransient s'.consumer) s

/-- A source that cannot be moved was not answered. -/
theorem seek_explained (nextOffset : Nat) :
    AllExplained (seek nextOffset : Program SourceError (KafkaSource (Noted BrokerReply κ)) Unit) := by
  constructor
  intro s
  simp only [seek, wp_bind, wp_get, wp_focus]
  refine wp_noted (fun _ _ _ => ?_) (fun _ _ noted => sourceExplained_of_fails noted rfl)
  refine wp_noted (fun _ _ _ => ?_) (fun _ _ noted => sourceExplained_of_fails noted rfl)
  exact wp_noted (fun _ _ _ => trivial) (fun _ _ noted => sourceExplained_of_fails noted rfl)

/-- A poll that can be retried was not answered, as a lost position is an answer. -/
theorem pollOne_explained :
    AllExplained (pollOne : Program SourceError (KafkaSource (Noted BrokerReply κ)) _) := by
  constructor
  intro s
  simp only [pollOne, wp_bind, wp_get, wp_focus, wp_pure]
  refine wp_noted (fun _ _ _ => trivial) (fun e source noted => ?_)
  intro retried
  refine sourceExplained_of_fails noted ?_ retried
  show (!e.isPositionLost) = true
  unfold RecvError.sourceError at retried
  split at retried
  · cases retried
  · rename_i kept
    simpa using kept

/-- A question about watermarks that fails was not answered, or with one that is not known. -/
theorem watermarks_explained {bootstrap topic : String} {partition : Int32}
    (source : Noted BrokerReply κ) :
    wp (fetchWatermarks bootstrap topic partition) (fun _ _ => True)
      (fun _ source' => SourceExplained true source') source := by
  refine fetchWatermarks_spec (fun source => ?_) (fun source => ?_)
  · exact wp_noted (fun _ _ _ => trivial) (fun _ _ noted => sourceExplained_of_fails noted rfl)
  · refine wp_noted (fun marks source' noted unknown e => ?_)
      (fun _ _ noted => sourceExplained_of_fails noted rfl)
    intro _ _ suits
    have known := suits _ noted
    simp only [BrokerReply.knowsEnds, Bool.and_eq_true, decide_eq_true_eq] at known
    omega

/-- A question for the low watermark fails as a question for both does. -/
theorem lowWatermark_explained :
    AllExplained (lowWatermark : Program SourceError (KafkaSource (Noted BrokerReply κ)) Nat) := by
  constructor
  intro s
  simp only [lowWatermark, fetchLowWatermark, wp_bind, wp_get, wp_focus, wp_pure]
  exact wp_mono (watermarks_explained _) (fun _ _ _ => trivial) (fun _ _ failed => failed)

/-- And so does a question for the high watermark. -/
theorem highWatermark_explained :
    AllExplained (highWatermark : Program SourceError (KafkaSource (Noted BrokerReply κ)) Nat) := by
  constructor
  intro s
  simp only [highWatermark, MirrorV3.fetchHighWatermark, wp_bind, wp_get, wp_focus, wp_pure]
  exact wp_mono (watermarks_explained _) (fun _ _ _ => trivial) (fun _ _ failed => failed)

end KafkaSource

namespace BlobSink

variable {σ β : Type} [EnvelopeLibraries] [BlobStore σ] {s : BlobSink (Noted StoreReply σ)}

/-- What a blob sink leaves behind. -/
def party (s : BlobSink (Noted StoreReply σ)) : Party σ β := .ofSink (.inl s)

omit [BlobStore σ] in
/-- A call that failed is a reason. -/
theorem explained_of_fails {retried : Bool} {reply : StoreReply} (mem : reply ∈ s.store.notes)
    (fails : reply.fails = true) : Explained retried (party s : Party σ β) := by
  intro _ reached
  rw [reached reply mem] at fails
  cases fails

/-- A flush that can be retried was not taken by the store. -/
theorem flushLocked_explained (trigger : FlushTrigger) :
    wp (flushLocked trigger) (fun _ _ => True)
      (fun e s' => Explained e.isTransient (party s' : Party σ β)) s := by
  simp only [flushLocked, putObject, wp_bind, wp_get, wp_ofExcept, wp_focus, wp_modify]
  have taken : wp takeBatch (fun _ _ => True) (fun _ _ => False) s := by
    simp only [takeBatch, wp_bind, wp_get]
    split <;> trivial
  refine wp_mono taken (fun batch s₁ _ => ?_) (fun _ _ failed => failed.elim)
  cases s.spec.encode s.checked batch with
  | error e => exact .final
  | ok bytes =>
    refine wp_noted (fun _ _ _ => trivial) (fun e store noted => ?_)
    cases e with
    | alreadyExists => exact .final
    | store => exact explained_of_fails noted rfl
    | corruptChain => exact explained_of_fails noted rfl

/-- The daily tick fails as its flush does. -/
theorem tickDaily_explained :
    wp tickDaily (fun _ _ => True) (fun e s' => Explained e.isTransient (party s' : Party σ β)) s := by
  simp only [tickDaily, wp_bind, wp_get]
  cases s.nextDailyUnix with
  | none => trivial
  | some next =>
    simp only [now, wp_bind, wp_get, wp_set, wp_ite, wp_pure, wp_modify]
    split
    · trivial
    · split
      · exact wp_mono (flushLocked_explained .daily) (fun _ _ _ => trivial)
          (fun _ _ failed => failed)
      · trivial

/-- A drift check that can be retried could not list the directory. -/
theorem checkDrift_explained :
    wp checkDrift (fun _ _ => True) (fun e s' => Explained e.isTransient (party s' : Party σ β))
      s := by
  simp only [checkDrift, wp_bind, wp_get, wp_focus]
  refine wp_noted (fun names store _ => ?_) (fun e store noted => explained_of_fails noted rfl)
  split
  · exact .final
  · split
    · exact .final
    · trivial

/-- A query that can be retried flushed or listed, which failed. -/
theorem nextExpectedOffset_explained :
    wp nextExpectedOffset (fun _ _ => True)
      (fun e s' => Explained e.isTransient (party s' : Party σ β)) s := by
  simp only [nextExpectedOffset, instant, wp_bind, wp_get, wp_set, wp_ite, wp_pure]
  refine wp_mono tickDaily_explained (fun _ s₁ _ => ?_) (fun _ _ failed => failed)
  have checked : ∀ s₂ : BlobSink (Noted StoreReply σ), ∀ condition : Prop, ∀ [Decidable condition],
      if condition then
        wp checkDrift (fun _ _ => True) (fun e s' => Explained e.isTransient (party s' : Party σ β))
          s₂
      else True := by
    intro s₂ condition _
    split
    · exact checkDrift_explained
    · trivial
  split
  · exact wp_mono (flushLocked_explained .maxTime) (fun _ _ _ => checked _ _)
      (fun _ _ failed => failed)
  · exact checked _ _

/-- A write that can be retried tripped a flush, which failed. -/
theorem write_explained (record : Record) :
    wp (write record) (fun _ _ => True)
      (fun e s' => Explained e.isTransient (party s' : Party σ β)) s := by
  simp only [write, wp_bind, wp_get, wp_ensure]
  refine wp_mono tickDaily_explained (fun _ s₁ _ => ?_) (fun _ _ failed => failed)
  split
  · cases s₁.spec.compaction with
    | none =>
      simp only [instant, wp_bind, wp_get, wp_set, wp_modify, wp_pure]
      split
      · exact flushLocked_explained _
      · trivial
    | some mode =>
      simp only [wp_bind, wp_ofExcept]
      cases key : compactionKey record with
      | error e =>
        -- A record without a text key is rejected for good.
        unfold compactionKey at key
        split at key
        · cases key
          exact .final
        · split at key
          · cases key
          · cases key
            exact .final
      | ok key =>
        simp only [instant, wp_bind, wp_get, wp_set, wp_modify, wp_pure]
        split
        · exact flushLocked_explained _
        · trivial
  · exact .final

end BlobSink

namespace KafkaSink

variable {σ β : Type} [Broker β] {s : KafkaSink (Noted BrokerReply β)}

/-- What a Kafka sink that was given some records leaves behind. -/
def party (presented : List Record) (s : KafkaSink (Noted BrokerReply β)) : Party σ β :=
  .kafka s.config presented s.broker

variable [PayloadParsers]

omit [Broker β] in
/-- A call that failed is a reason. -/
theorem explained_of_fails {retried : Bool} {presented : List Record} {reply : BrokerReply}
    (mem : reply ∈ s.broker.notes) (fails : reply.fails = true) :
    Explained retried (party presented s : Party σ β) := by
  intro _ reached
  rw [reached reply mem] at fails
  cases fails

/-- A query that can be retried was not answered, or with a watermark that is not known. -/
theorem fetchHighWatermark_explained (presented : List Record) :
    wp fetchHighWatermark
      (fun high s' => s'.config = s.config ∧ ∃ low value, u64TryFrom value = some high
        ∧ s'.broker.notes = s.broker.notes ++ [.watermarks (.ok (low, value))])
      (fun e s' => Explained e.isTransient (party presented s' : Party σ β)) s := by
  simp only [fetchHighWatermark, wp_bind, wp_get, wp_focus]
  show wp (noting _ _) _ _ _
  rw [wp_noting]
  refine wp_any (fun answer broker => ?_) (fun e broker => ?_)
  · obtain ⟨low, high⟩ := answer
    cases known : u64TryFrom high with
    | some n => exact ⟨rfl, low, high, known, rfl⟩
    | none =>
      -- A negative watermark is one that the broker does not know.
      intro _ _ suits
      have natural := suits.2.1 low high (mem_noted _ _)
      rw [u64TryFrom, if_pos natural] at known
      cases known
  · exact explained_of_fails (mem_noted _ _) rfl

/-- A write that can be retried was not answered, or shows that something does not suit. -/
theorem write_explained {record : Record} {presented : List Record} (given : record ∈ presented) :
    wp (write record) (fun _ _ => True)
      (fun e s' => Explained e.isTransient (party presented s' : Party σ β)) s := by
  -- The key is validated first, then the value, and only then is the broker asked for anything.
  simp only [write, wp_bind, wp_get, wp_ofExcept, wp_ensure, wp_focus, wp_modify]
  cases key : s.config.keys.validate "key" record.sourceOffset record.key with
  | error message =>
    intro _ _ suits
    rw [(suits.1 record given).1] at key
    cases key
  | ok _ =>
    cases value : s.config.values.validate "value" record.sourceOffset record.value with
    | error message =>
      intro _ _ suits
      rw [(suits.1 record given).2] at value
      cases value
    | ok _ =>
      simp only [Except.mapError]
      refine wp_mono (fetchHighWatermark_explained presented) ?_ (fun _ _ failed => failed)
      rintro current s₁ ⟨config, low, high, known, notes⟩
      split
      · rename_i there
        show wp (noting _ _) _ _ _
        rw [wp_noting]
        refine wp_any (fun offset broker => ?_)
          (fun e broker => explained_of_fails (mem_noted _ _) rfl)
        split
        · trivial
        · -- The record was stored elsewhere than at the watermark that the gate let it through at.
          rename_i elsewhere
          intro _ _ suits
          have same : offset = high := by
            refine suits.2.2 low high offset ⟨s.broker.notes, [], ?_⟩
            show _ = s₁.broker.notes ++ [.sent (.ok offset)]
            rw [notes]
            simp
          refine absurd ?_ elsewhere
          rw [same, ← there]
          unfold u64TryFrom at known
          split at known
          · rename_i natural
            cases known
            exact asU64_eq (Int.toNat_of_nonneg natural).symm
          · cases known
      · exact .final

end KafkaSink

section Sinks

variable {σ β : Type} [EnvelopeLibraries] [BlobStore σ] [Broker β]

/-- Of a sink that is asked for anything, the failures that can be retried have a reason. -/
structure AllExplained {α : Type} (program : Program SinkError (NotedSink σ β) α) : Prop where
  explained : ∀ s, wp program (fun _ _ => True)
    (fun e s' => Explained e.isTransient (.ofSink s')) s

/-- A query of either kind of sink. -/
theorem nextExpectedOffset_explained :
    AllExplained (Sink.nextExpectedOffset : Program SinkError (NotedSink σ β) Nat) := by
  constructor
  intro s
  show wp (onEither _ _) _ _ s
  cases s with
  | inl s =>
    rw [wp_onEither_inl]
    exact BlobSink.nextExpectedOffset_explained
  | inr s =>
    rw [wp_onEither_inr]
    show wp (focus Recorded.part id KafkaSink.fetchHighWatermark) _ _ _
    rw [wp_focus]
    exact wp_mono (KafkaSink.fetchHighWatermark_explained s.presented) (fun _ _ _ => trivial)
      (fun _ _ failed => failed)

/-- No query for the furthest part fails. -/
theorem furthestNextOffset_explained :
    AllExplained (Sink.furthestNextOffset : Program SinkError (NotedSink σ β) (Option Nat)) := by
  constructor
  intro s
  cases s <;> trivial

/-- A write to either kind of sink. -/
theorem write_explained (record : Record) :
    AllExplained (Sink.write record : Program SinkError (NotedSink σ β) Unit) := by
  constructor
  intro s
  show wp (onEither _ _) _ _ s
  cases s with
  | inl s =>
    rw [wp_onEither_inl]
    exact BlobSink.write_explained record
  | inr s =>
    rw [wp_onEither_inr]
    show wp (Recorded.write record) _ _ _
    simp only [Recorded.write, wp_bind, wp_modify, wp_focus]
    exact wp_mono (KafkaSink.write_explained (mem_noted s.presented record)) (fun _ _ _ => trivial)
      (fun _ _ failed => failed)

/-- A flush of either kind of sink. -/
theorem flush_explained :
    AllExplained (Sink.flush : Program SinkError (NotedSink σ β) Unit) := by
  constructor
  intro s
  show wp (onEither _ _) _ _ s
  cases s with
  | inl s =>
    rw [wp_onEither_inl]
    show wp BlobSink.flushNow _ _ _
    simp only [BlobSink.flushNow, wp_bind, wp_get, wp_ite, wp_pure]
    split
    · trivial
    · exact BlobSink.flushLocked_explained _
  | inr s => trivial

/-- Aligning either kind of sink calls nobody. -/
theorem align_explained (lowWatermark : Nat) :
    AllExplained (Sink.alignToSourceLowWatermark lowWatermark :
      Program SinkError (NotedSink σ β) Unit) := by
  constructor
  intro s
  show wp (onEither _ _) _ _ s
  cases s with
  | inl s =>
    rw [wp_onEither_inl]
    show wp (BlobSink.alignToSourceLowWatermark lowWatermark) _ _ _
    simp only [BlobSink.alignToSourceLowWatermark, wp_bind, wp_get, wp_ensure, wp_set]
    split
    · split
      · trivial
      · exact .final
    · exact .final
  | inr s => trivial

end Sinks

section Loop

variable {σ β κ : Type} [EnvelopeLibraries]

/-- Whether a mirror that ended like this could be run again. -/
def Halt.isTransient : Halt → Bool
  | .failed e => e.isTransient
  | .panicked _ => false

/-- A mirror whose destinations all were reached and suit. -/
def TeeSink.Suited (tee : TeeSink (NotedSink σ β)) : Prop :=
  ∀ inner ∈ tee.inners, (Party.ofSink inner.sink).Reached ∧ (Party.ofSink inner.sink).Suits

/-- A mirror with a noted source and noted destinations. -/
abbrev NotedMirror (κ σ β : Type) : Type :=
  Mirror (KafkaSource (Noted BrokerReply κ)) (TeeSink (NotedSink σ β)) NoOpNotifier

/-- A mirror whose source was reached, and knows where it begins and ends. -/
def SourceSuited (source : Noted BrokerReply κ) : Prop := SourceReached source ∧ SourceSuits source

/-- A mirror that was answered and suited has nothing that a retry could change. -/
def Settles (halt : Halt) (m : NotedMirror κ σ β) : Prop :=
  SourceSuited m.source.consumer → m.sink.Suited → halt.isTransient = false

/-- A sink with a reason to be retried shows it in its tee. -/
theorem final_of_explained {e : SinkError} {tee : TeeSink (NotedSink σ β)}
    (explained : ∃ inner ∈ tee.inners, Explained e.isTransient (.ofSink inner.sink))
    (suited : tee.Suited) : e.isTransient = false := by
  obtain ⟨inner, mem, explained⟩ := explained
  obtain ⟨reached, suits⟩ := suited inner mem
  cases retried : e.isTransient with
  | false => rfl
  | true => exact absurd suits (explained retried reached)

variable [BlobStore σ] [Broker β] [StreamConsumer κ]

omit [BlobStore σ] [Broker β] [StreamConsumer κ] in
/-- An inner sink that is asked something explains its failures as it did before. -/
theorem InnerSink.explained {α γ : Type} {program : Program SinkError (NotedSink σ β) α}
    (explained : AllExplained program) {wrap : SinkError → SinkError}
    (kept : ∀ e, (wrap e).isTransient = e.isTransient)
    (rest : α → Program SinkError (InnerSink (NotedSink σ β)) γ)
    (final : ∀ a inner, wp (rest a) (fun _ _ => True)
      (fun e inner' => Explained e.isTransient (.ofSink inner'.sink)) inner)
    (inner : InnerSink (NotedSink σ β)) :
    wp (focus InnerSink.sinkPart wrap program >>= rest) (fun _ _ => True)
      (fun e inner' => Explained e.isTransient (.ofSink inner'.sink)) inner := by
  simp only [wp_bind, wp_focus]
  refine wp_mono (explained.explained inner.sink) (fun a sink _ => final a _) ?_
  intro e sink failed
  rw [kept]
  exact failed

/-- A tee that asks its inner sinks something has one that explains its failure. -/
structure TeeExplained {α : Type} (program : Program SinkError (TeeSink (NotedSink σ β)) α) :
    Prop where
  explained : ∀ tee, wp program (fun _ _ => True)
    (fun e tee' => ∃ inner ∈ tee'.inners, Explained e.isTransient (.ofSink inner.sink)) tee

/-- A query of every destination. -/
theorem teeNextExpectedOffset_explained :
    TeeExplained (Sink.nextExpectedOffset : Program SinkError (TeeSink (NotedSink σ β)) Nat) := by
  constructor
  intro tee
  show wp (focus TeeSink.innersPart id _ >>= _) _ _ tee
  simp only [wp_bind, wp_focus, wp_get, wp_pure]
  refine wp_mono (wp_forEach_failed ?_ tee.inners) (fun _ _ _ => trivial) (fun _ _ failed => failed)
  refine InnerSink.explained nextExpectedOffset_explained (fun _ => rfl) _ ?_
  intro head inner
  simp only [wp_bind, wp_get, wp_ensure, wp_set]
  split
  · trivial
  · exact .final

/-- A query for the furthest part of every destination. -/
theorem teeFurthestNextOffset_explained :
    TeeExplained
      (Sink.furthestNextOffset : Program SinkError (TeeSink (NotedSink σ β)) (Option Nat)) := by
  constructor
  intro tee
  show wp (focus TeeSink.innersPart id _ >>= _) _ _ tee
  simp only [wp_bind, wp_focus, wp_pure]
  refine wp_mono (wp_forEach_failed ?_ tee.inners) (fun _ _ _ => trivial) (fun _ _ failed => failed)
  exact InnerSink.explained furthestNextOffset_explained (fun _ => rfl) _ fun _ _ => trivial

/-- A write to every destination that is behind the record. -/
theorem teeWrite_explained (record : Record) :
    TeeExplained (Sink.write record : Program SinkError (TeeSink (NotedSink σ β)) Unit) := by
  constructor
  intro tee
  show wp (modify _ >>= fun _ => focus TeeSink.innersPart id _ >>= _) _ _ tee
  simp only [wp_bind, wp_focus, wp_modify]
  refine wp_mono (wp_forAll_failed ?_ _) (fun _ _ _ => trivial) (fun _ _ failed => failed)
  intro inner
  simp only [InnerSink.write, wp_bind, wp_get, wp_ite, wp_pure]
  split
  · have written := InnerSink.explained (write_explained record)
      (fun e => SinkError.context_isTransient e s!"inner sink {inner.name}")
      (fun _ => modify fun inner => { inner with head := addOne record.sourceOffset })
      (fun _ _ => trivial) inner
    rwa [wp_bind] at written
  · trivial

/-- A flush of every destination. -/
theorem teeFlush_explained :
    TeeExplained (Sink.flush : Program SinkError (TeeSink (NotedSink σ β)) Unit) := by
  constructor
  intro tee
  show wp (focus TeeSink.innersPart id _) _ _ tee
  rw [wp_focus]
  refine wp_mono (wp_forAll_failed ?_ _) (fun _ _ _ => trivial) (fun _ _ failed => failed)
  intro inner
  simp only [InnerSink.flush, wp_bind, wp_get, wp_focus]
  refine wp_mono (flush_explained.explained inner.sink) (fun _ _ _ => trivial) ?_
  intro e sink failed
  show Explained (e.context _).isTransient _
  rw [SinkError.context_isTransient]
  exact failed

/-- Aligning every destination. -/
theorem teeAlign_explained (lowWatermark : Nat) :
    TeeExplained (Sink.alignToSourceLowWatermark lowWatermark :
      Program SinkError (TeeSink (NotedSink σ β)) Unit) := by
  constructor
  intro tee
  show wp (focus TeeSink.innersPart id _ >>= _) _ _ tee
  simp only [wp_bind, wp_focus, wp_modify]
  refine wp_mono (wp_forAll_failed ?_ _) (fun _ _ _ => trivial) (fun _ _ failed => failed)
  intro inner
  simp only [InnerSink.align, wp_bind, wp_get, wp_focus]
  refine wp_mono ((align_explained lowWatermark).explained inner.sink) (fun _ _ _ => trivial) ?_
  intro e sink failed
  show Explained (e.context _).isTransient _
  rw [SinkError.context_isTransient]
  exact failed

omit [BlobStore σ] [Broker β] [StreamConsumer κ] in
/-- A run that ends for what its tee was asked settles. -/
theorem onSink_settles {α : Type} {program : Program SinkError (TeeSink (NotedSink σ β)) α}
    (explained : TeeExplained program) (m : NotedMirror κ σ β) :
    wp (Mirror.onSink program) (fun _ _ => True) Settles m := by
  rw [Mirror.onSink, wp_focus]
  refine wp_mono (explained.explained m.sink) (fun _ _ _ => trivial) ?_
  intro e tee failed _ suited
  exact final_of_explained failed suited

omit [BlobStore σ] [Broker β] [StreamConsumer κ] in
/-- A run that ends for what its source was asked settles. -/
theorem onSource_settles {α : Type}
    {call : Program SourceError (KafkaSource (Noted BrokerReply κ)) α}
    (explained : KafkaSource.AllExplained call) (m : NotedMirror κ σ β) :
    wp (Mirror.onSource call) (fun _ _ => True) Settles m := by
  rw [Mirror.onSource, wp_focus]
  refine wp_mono (explained.explained m.source) (fun _ _ _ => trivial) ?_
  intro e source failed suited _
  show e.isTransient = false
  cases retried : e.isTransient with
  | false => rfl
  | true => exact absurd suited.2 (failed retried suited.1)

/-- The startup settles. -/
theorem bootstrap_settles (m : NotedMirror κ σ β) :
    wp Mirror.bootstrap (fun _ _ => True) Settles m := by
  simp only [Mirror.bootstrap, wp_bind, wp_get, wp_ensure]
  refine wp_mono (onSink_settles teeNextExpectedOffset_explained m) (fun start m₁ _ => ?_)
    (fun _ _ failed => failed)
  refine wp_mono (onSource_settles KafkaSource.lowWatermark_explained m₁) (fun low m₂ _ => ?_)
    (fun _ _ failed => failed)
  refine wp_mono (onSource_settles KafkaSource.highWatermark_explained m₂) (fun high m₃ _ => ?_)
    (fun _ _ failed => failed)
  refine wp_mono (onSink_settles teeFurthestNextOffset_explained m₃) (fun furthest m₄ _ => ?_)
    (fun _ _ failed => failed)
  have seeks : ∀ (expected : Nat) (m : NotedMirror κ σ β),
      wp (Mirror.onSource (Source.seek expected)) (fun _ _ => True) Settles m :=
    fun expected m => onSource_settles (KafkaSource.seek_explained expected) m
  split
  · split
    · split
      · simp only [wp_bind, wp_pure]
        exact wp_mono (onSink_settles (teeAlign_explained low) m₄) (fun _ m₅ _ => seeks low m₅)
          (fun _ _ failed => failed)
      · exact fun _ _ => rfl
    · simp only [wp_bind, wp_pure]
      exact seeks start m₄
  · exact fun _ _ => rfl

/-- A poll settles. -/
theorem poll_settles (expected : Nat) (m : NotedMirror κ σ β) :
    wp (Mirror.poll expected) (fun _ _ => True) Settles m := by
  simp only [Mirror.poll, wp_bind]
  refine wp_mono (onSource_settles KafkaSource.pollOne_explained m) (fun polled m₁ _ => ?_)
    (fun _ _ failed => failed)
  cases polled with
  | none =>
    simp only [Mirror.verifyIdle, wp_bind, wp_ensure, wp_pure]
    refine wp_mono (onSink_settles teeNextExpectedOffset_explained m₁) (fun current m₂ _ => ?_)
      (fun _ _ failed => failed)
    split
    · trivial
    · exact fun _ _ => rfl
  | some record =>
    simp only [Mirror.deliver, wp_bind, wp_get, wp_ensure, wp_pure]
    split
    · split
      · refine wp_mono (onSink_settles (teeWrite_explained record) m₁) (fun _ m₂ _ => ?_)
          (fun _ _ failed => failed)
        split
        · trivial
        · exact fun _ _ => rfl
      · exact fun _ _ => rfl
    · exact fun _ _ => rfl

/-- So does a whole run. -/
theorem run_settles (events : List LoopEvent) (m : NotedMirror κ σ β) :
    wp (Mirror.runMirrorWithNotifier events) (fun _ _ => True) Settles m := by
  simp only [Mirror.runMirrorWithNotifier, wp_bind]
  refine wp_mono (bootstrap_settles m) (fun expected m₁ _ => ?_) (fun _ _ failed => failed)
  have stops : ∀ m₂ : NotedMirror κ σ β, wp Mirror.stop (fun _ _ => True) Settles m₂ := by
    intro m₂
    simp only [Mirror.stop, wp_bind]
    exact wp_mono (onSink_settles teeFlush_explained m₂) (fun _ _ _ => trivial)
      (fun _ _ failed => failed)
  have ran := @Mirror.loop_rule _ _ _ _ _ _ (fun _ (_ : NotedMirror κ σ β) => True) (fun _ => True)
    Settles (fun expected m₂ _ => poll_settles expected m₂) (fun _ _ _ => trivial)
    (fun _ m₂ _ => stops m₂) events expected m₁ trivial
  exact wp_mono ran (fun _ _ _ => trivial) (fun _ _ failed => failed)

end Loop

end MirrorV3
