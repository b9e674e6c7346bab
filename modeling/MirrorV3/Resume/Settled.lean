import MirrorV3.Fs.Position
import MirrorV3.Kafka.Position
import MirrorV3.Resume.Answering

/-! Blob and Kafka destinations that answer whatever the startup asks of them. -/

namespace MirrorV3

open Effect

namespace BlobSink

variable {σ : Type} [EnvelopeLibraries] [BlobStore σ] {s : BlobSink σ}

/-- A destination with nothing buffered, opened too recently to look for objects of others. -/
def Settled (s : BlobSink σ) : Prop :=
  s.buffer = []
    ∧ ∀ n, s.clocks.instants.get n - s.lastDriftCheck < s.driftCheckInterval

/-- What a settled destination keeps while it is only asked questions. -/
def StillSettled (s s' : BlobSink σ) : Prop :=
  Settled s' ∧ s'.durablePosition = s.durablePosition ∧ s'.spec = s.spec

omit [EnvelopeLibraries] [BlobStore σ] in
/-- A reading of the wall clock leaves a destination settled. -/
theorem now_settled (settled : Settled s) :
    wp now (fun _ s' => StillSettled s s') (fun _ _ => False) s := by
  simp only [now, wp_bind, wp_get, wp_set, wp_pure]
  exact ⟨settled, rfl, rfl⟩

omit [EnvelopeLibraries] [BlobStore σ] in
/-- A reading of the process's clock is not late, and leaves a destination settled. -/
theorem instant_settled (settled : Settled s) :
    wp instant (fun read s' => StillSettled s s'
      ∧ read - s'.lastDriftCheck < s'.driftCheckInterval) (fun _ _ => False) s := by
  simp only [instant, wp_bind, wp_get, wp_set, wp_pure]
  exact ⟨⟨⟨settled.1, fun n => settled.2 (n + 1)⟩, rfl, rfl⟩, settled.2 0⟩

/-- The daily tick finds nothing to flush. -/
theorem tickDaily_settled (settled : Settled s) :
    wp tickDaily (fun _ s' => StillSettled s s') (fun _ _ => False) s := by
  simp only [tickDaily, wp_bind, wp_get]
  cases s.nextDailyUnix with
  | none => exact ⟨settled, rfl, rfl⟩
  | some next =>
    simp only [wp_bind, wp_get, wp_ite, wp_pure, wp_modify]
    refine wp_mono (now_settled settled) ?_ (fun _ _ failed => failed)
    rintro _ s₁ ⟨settled₁, durable₁, spec₁⟩
    split
    · exact ⟨settled₁, durable₁, spec₁⟩
    · split
      · rename_i pending
        exact absurd settled₁.1 pending
      · refine wp_mono (now_settled settled₁) ?_ (fun _ _ failed => failed)
        rintro _ s₂ ⟨settled₂, durable₂, spec₂⟩
        exact ⟨settled₂, durable₂.trans durable₁, spec₂.trans spec₁⟩

/-- A settled destination answers where it is durable. -/
theorem nextExpectedOffset_settled (settled : Settled s) :
    wp nextExpectedOffset (fun next s' => StillSettled s s' ∧ next = s.durablePosition)
      (fun _ _ => False) s := by
  simp only [nextExpectedOffset, wp_bind, wp_get, wp_ite, wp_pure]
  refine wp_mono (tickDaily_settled settled) ?_ (fun _ _ failed => failed)
  rintro _ s₁ ⟨settled₁, durable₁, spec₁⟩
  refine wp_mono (instant_settled settled₁) ?_ (fun _ _ failed => failed)
  rintro asked s₂ ⟨⟨settled₂, durable₂, spec₂⟩, _⟩
  rw [if_neg (by simp [shouldFlush, settled₂.1])]
  refine wp_mono (instant_settled settled₂) ?_ (fun _ _ failed => failed)
  rintro checkedAt s₃ ⟨⟨settled₃, durable₃, spec₃⟩, early⟩
  rw [if_neg (by omega)]
  have durable : s₃.durablePosition = s.durablePosition :=
    durable₃.trans (durable₂.trans durable₁)
  exact ⟨⟨settled₃, durable, spec₃.trans (spec₂.trans spec₁)⟩,
    by simp [bufferedHead, settled₃.1, durable]⟩

/-- A flush that fails does not fail for the position. -/
theorem flushLocked_refuses (trigger : FlushTrigger) :
    wp (flushLocked trigger) (fun _ _ => True) (fun e _ => e.refusesPosition = false) s := by
  simp only [flushLocked, putObject, wp_bind, wp_get, wp_ofExcept, wp_focus, wp_modify]
  have taken : wp takeBatch (fun _ _ => True) (fun _ _ => False) s := by
    simp only [takeBatch, wp_bind, wp_get]
    split <;> trivial
  refine wp_mono taken (fun batch s₁ _ => ?_) (fun _ _ failed => failed.elim)
  cases s.spec.encode s.checked batch with
  | error e => rfl
  | ok bytes =>
    refine wp_any (fun _ _ => trivial) (fun e _ => ?_)
    cases e <;> rfl

/-- A record that is buffered, and may be flushed at once, is no refusal of a position. -/
theorem buffered_refuses (record : Record) (s : BlobSink σ) :
    wp (do
      let started ← instant
      modify fun s => { s with
        view := s.view.map (applyView record)
        bufferBytes := s.bufferBytes + recordByteSize record
        buffer := s.buffer ++ [record]
        bufferStarted := some (s.bufferStarted.getD started) }
      let asked ← instant
      match shouldFlush (← get) asked with
      | some trigger => flushLocked trigger
      | none => pure ()) (fun _ _ => True) (fun e _ => e.refusesPosition = false) s := by
  simp only [wp_bind, wp_modify, wp_get, instant, wp_set, wp_pure]
  split
  · exact flushLocked_refuses _
  · trivial

/-- A settled destination does not refuse a record for its position. -/
theorem write_settled {record : Record} (settled : Settled s)
    (above : s.durablePosition ≤ record.sourceOffset) :
    wp (write record) (fun _ _ => True) (fun e _ => e.refusesPosition = false) s := by
  simp only [write, wp_bind, wp_get, wp_ensure]
  refine wp_mono (tickDaily_settled settled) ?_ (fun _ _ failed => failed.elim)
  rintro _ s₁ ⟨settled₁, durable₁, spec₁⟩
  rw [if_pos (by simpa [bufferedHead, settled₁.1, durable₁] using above)]
  cases s₁.spec.compaction with
  | none => exact buffered_refuses record s₁
  | some mode =>
    simp only [wp_bind, wp_ofExcept]
    cases key : compactionKey record with
    | ok _ => exact buffered_refuses record s₁
    | error e =>
      unfold compactionKey at key
      split at key
      · cases key
        rfl
      · split at key
        · cases key
        · cases key
          rfl

/-- A blob destination answers as long as it is settled. -/
theorem answering : Answering (Settled (σ := σ)) where
  nextExpectedOffset s settled := by
    have position : ∀ s' : BlobSink σ, s'.buffer = [] → s'.bufferedHead = s'.durablePosition :=
      fun s' empty => by simp [bufferedHead, empty]
    refine wp_mono (nextExpectedOffset_settled settled) ?_ (fun _ _ failed => failed)
    rintro next s' ⟨⟨settled', durable, spec⟩, answered⟩
    refine ⟨settled', ?_, ?_, ?_⟩
    · exact (position s' settled'.1).trans (durable.trans (position s settled.1).symm)
    · show decide (s'.spec.compaction = some .log) = decide (s.spec.compaction = some .log)
      rw [spec]
    · exact answered.trans (position s settled.1).symm
  furthestNextOffset _ settled := ⟨settled, rfl, rfl, rfl⟩
  align lowWatermark s settled allows := by
    have log : s.spec.compaction = some .log := of_decide_eq_true allows
    show wp (alignToSourceLowWatermark lowWatermark) _ _ s
    simp only [alignToSourceLowWatermark, wp_bind, wp_get, wp_ensure, wp_set]
    rw [if_pos log]
    split
    · exact ⟨settled, by simp [LawfulSink.position, bufferedHead, settled.1], rfl⟩
    · rename_i refused
      have durable : LawfulSink.position s = s.durablePosition := by
        simp [LawfulSink.position, bufferedHead, settled.1]
      rw [durable]
      exact Nat.lt_of_not_le fun below => refused ⟨settled.1, below⟩
  write record s settled _ above := by
    have durable : LawfulSink.position s = s.durablePosition := by
      simp [LawfulSink.position, bufferedHead, settled.1]
    exact write_settled settled (durable ▸ above)

end BlobSink

namespace KafkaSink

/-- A partition whose broker answers every request and knows its high watermark. -/
def Settled (s : KafkaSink Partition) : Prop :=
  s.broker.records.length < 2 ^ 63
    ∧ ClientConfig.get s.producer "message.send.max.retries" = some "0"
    ∧ ∀ n, (s.broker.answers.get n).error = none ∧ (s.broker.answers.get n).unknown = false

/-- A broker that answers tells how many records the partition has. -/
theorem fetchWatermarks_settled {s : Partition} (topic : String) (partition : Int32)
    (room : s.records.length < 2 ^ 63) (answered : s.answers.head.error = none)
    (known : s.answers.head.unknown = false) :
    wp (Broker.fetchWatermarks topic partition : Program String Partition _)
      (fun watermarks s' => s' = { s with answers := s.answers.tail }
        ∧ watermarks.2.toInt = s.records.length) (fun _ _ => False) s := by
  show wp Partition.fetchWatermarks _ _ s
  simp only [Partition.fetchWatermarks, Partition.request, wp_bind, wp_get, wp_set, wp_ensure,
    wp_pure, answered, known, if_pos room]
  exact ⟨trivial, Partition.toInt_length room⟩

variable [PayloadParsers]

/-- A Kafka destination answers as long as its broker does, and is never aligned. -/
theorem answering : Answering Settled where
  nextExpectedOffset s settled := by
    obtain ⟨room, retries, answers⟩ := settled
    obtain ⟨answered, known⟩ := answers 0
    show wp fetchHighWatermark _ _ s
    simp only [fetchHighWatermark, wp_bind, wp_get, wp_focus]
    refine wp_mono (fetchWatermarks_settled _ _ room answered known) ?_ (fun _ _ failed => failed)
    rintro watermarks broker ⟨left, high⟩
    rw [u64TryFrom_eq high]
    subst left
    exact ⟨⟨room, retries, fun n => answers (n + 1)⟩, rfl, rfl, rfl⟩
  furthestNextOffset _ settled := ⟨settled, rfl, rfl, rfl⟩
  align _ _ _ allows := absurd allows Bool.false_ne_true
  write _ _ _ allows := absurd allows Bool.false_ne_true

end KafkaSink

end MirrorV3
