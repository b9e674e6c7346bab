import MirrorV3.Fs.BlobSink
import MirrorV3.Lib.Results

/-! What every operation of a blob destination keeps, from what a single flush keeps. -/

namespace MirrorV3

open Effect

namespace BlobSink

variable {σ : Type} {same : σ → σ → Prop} {keeps : BlobSink σ → Prop}
  {fails : SinkError → BlobSink σ → Prop} {s : BlobSink σ}

/-- A flush is only asked for when something is buffered. -/
theorem buffer_of_shouldFlush {asked : Nat} {trigger : FlushTrigger}
    (asks : shouldFlush s asked = some trigger) : s.buffer ≠ [] := by
  intro empty
  simp [shouldFlush, empty] at asks

/-- Two states that differ in nothing but the clocks, the schedule and how the store answers. -/
structure Alike (same : σ → σ → Prop) (s s' : BlobSink σ) : Prop where
  spec : s'.spec = s.spec
  store : same s.store s'.store
  durable : s'.durablePosition = s.durablePosition
  buffer : s'.buffer = s.buffer
  bytes : s'.bufferBytes = s.bufferBytes
  started : s'.bufferStarted = s.bufferStarted
  view : s'.view = s.view
  observer : s'.flushObserver = s.flushObserver
  tail : s'.tail = s.tail

/-- A property that is not about the clocks or the drift check. -/
structure Quiet (same : σ → σ → Prop) (keeps : BlobSink σ → Prop) : Prop where
  refl : ∀ store, same store store
  congr : ∀ s s' : BlobSink σ, keeps s → Alike same s s' → keeps s'

/-- A reading of the wall clock keeps what is not about the clocks. -/
theorem Quiet.now (quiet : Quiet same keeps) (holds : keeps s) :
    wp now (fun _ s' => keeps s') fails s := by
  simp only [BlobSink.now, wp_bind, wp_get, wp_set, wp_pure]
  exact quiet.congr s _ holds ⟨rfl, quiet.refl _, rfl, rfl, rfl, rfl, rfl, rfl, rfl⟩

/-- A reading of the process's clock keeps what is not about the clocks. -/
theorem Quiet.instant (quiet : Quiet same keeps) (holds : keeps s) :
    wp instant (fun _ s' => keeps s') fails s := by
  simp only [BlobSink.instant, wp_bind, wp_get, wp_set, wp_pure]
  exact quiet.congr s _ holds ⟨rfl, quiet.refl _, rfl, rfl, rfl, rfl, rfl, rfl, rfl⟩

/-- The sink with a record accepted into its view and its buffer. -/
def accepted (record : Record) (started : Nat) (s : BlobSink σ) : BlobSink σ :=
  { s with
    view := s.view.map (applyView record)
    bufferBytes := s.bufferBytes + recordByteSize record
    buffer := s.buffer ++ [record]
    bufferStarted := some (s.bufferStarted.getD started) }

/-- What a flush encodes. -/
def batch (s : BlobSink σ) : List Record :=
  match s.spec.compaction, s.view with
  | some .log, some view => view.values
  | _, _ => s.buffer

/-- The sink once what a flush encodes was taken: an append-mode one has given up its buffer. -/
def taken (s : BlobSink σ) : BlobSink σ :=
  match s.spec.compaction, s.view with
  | some .log, some _ => s
  | _, _ => { s with buffer := [] }

/-- Taking what a flush encodes changes nothing but the buffer. -/
theorem taken_eq : s.taken = s ∨ s.taken = { s with buffer := [] } := by
  unfold taken
  split
  · exact .inl rfl
  · exact .inr rfl

/-- In append mode a flush encodes the buffer. -/
theorem batch_of_append (append : s.spec.compaction = none) : s.batch = s.buffer := by
  rw [batch, append]

/-- In append mode a flush gives up the buffer. -/
theorem taken_of_append (append : s.spec.compaction = none) : s.taken = { s with buffer := [] } := by
  rw [taken, append]

/-- What a flush encodes is taken as it is. -/
theorem takeBatch_eq : (takeBatch : Program SinkError (BlobSink σ) _) s = .ok s.batch s.taken := by
  have read : (get : Program SinkError (BlobSink σ) _) s = .ok s s := rfl
  rw [takeBatch, bind_of_ok read, batch, taken]
  rcases s.spec.compaction with _ | ⟨⟨⟩⟩ <;> rcases s.view with _ | view <;> rfl

/-- The name of the object that a flush up to `last` writes. -/
def objectName (s : BlobSink σ) (last : Record) : String :=
  blobFilename s.durablePosition last.sourceOffset (s.spec.encryption.map (·.keyId))
    s.spec.format.extension

/-- The sink once a flush up to `last` has put its object. -/
def flushed (s : BlobSink σ) (last : Record) (store : σ) : BlobSink σ :=
  { s with
    store
    durablePosition := addOne last.sourceOffset
    tail := (s.tail ++ [s.objectName last]).drop ((s.tail ++ [s.objectName last]).length - 2)
    buffer := []
    bufferBytes := 0
    bufferStarted := none
    flushObserver := s.flushObserver.map (· ++ [⟨(s.durablePosition, last.sourceOffset), store⟩]) }

/-- A flush up to `last` fails over its batch or over its put, once it has taken the batch. -/
inductive FlushFails [EnvelopeLibraries] [BlobStore σ] (s : BlobSink σ) (last : Record) :
    BlobSink σ → Prop where
  | encoding {error : EnvelopeError} (refused : s.spec.encode s.checked s.batch = .error error) :
      FlushFails s last s.taken
  | putting {bytes : Bytes} {error : BlobError} {store : σ}
      (encoded : s.spec.encode s.checked s.batch = .ok bytes)
      (refused : BlobStore.putNew (s.objectName last) bytes s.store = .error error store) :
      FlushFails s last { s.taken with store }

variable [EnvelopeLibraries] [BlobStore σ]

/-- A sink is built on its chain with nothing buffered; only its view was read from the store. -/
theorem eq_of_new {store : σ} {spec : BlobSpec} {chain : Chain} {snapshot : Option Bytes}
    {clocks : Clocks} (built : new store spec chain snapshot clocks = .ok s) :
    ∃ (checked : spec.checkEncryption = .ok ()) (view : Option View), s = {
      store, spec, checked, view
      durablePosition := chain.durable
      buffer := []
      bufferBytes := 0
      bufferStarted := none
      nextDailyUnix :=
        spec.flush.dailyAtUtcSeconds.map (scheduleNextDaily · clocks.clock.head)
      clocks := ⟨clocks.clock.tail, clocks.instants.tail⟩
      flushObserver := none
      tail := chain.tail
      lastDriftCheck := clocks.instants.head
      driftCheckInterval := MirrorV3.driftCheckInterval } := by
  unfold new at built
  split at built
  · cases built
  · -- Whatever the view starts as, it is read before the sink is built.
    rename_i checked
    simp only at built
    repeat' split at built
    all_goals
      obtain ⟨view, -, made⟩ := Results.of_bind_ok built
      cases made
      exact ⟨checked, view, rfl⟩

/-- A flush puts its batch as the next object, or fails having taken it. -/
theorem flushLocked_spec (trigger : FlushTrigger) {last : Record}
    (ends : s.buffer.getLast? = some last) :
    wp (flushLocked trigger)
      (fun _ s' => ∃ bytes store, s.spec.encode s.checked s.batch = .ok bytes
        ∧ BlobStore.putNew (s.objectName last) bytes s.store = .ok () store
        ∧ s' = s.flushed last store)
      (fun _ s' => FlushFails s last s') s := by
  simp only [flushLocked, putObject, wp_bind, wp_get, wp_ofExcept, wp_focus, wp_modify, ends,
    Option.map_some, Option.getD_some, wp_eq_of_ok takeBatch_eq]
  cases encoded : s.spec.encode s.checked s.batch with
  | error error => exact .encoding encoded
  | ok bytes =>
    have store : s.taken.store = s.store := by
      rcases s.taken_eq with same | same <;> rw [same]
    show wp (BlobStore.putNew (s.objectName last) bytes) _ _ s.taken.store
    rw [store]
    refine wp_intro (fun _ store put => ?_) (fun _ store refused => .putting encoded refused)
    refine ⟨bytes, store, rfl, put, ?_⟩
    rcases s.taken_eq with same | same <;> rw [same] <;> rfl

/-- Listing a directory leaves it as it was. -/
def ListsOnly (same : σ → σ → Prop) : Prop :=
  ∀ (after : Option String) (store : σ), wp (BlobStore.listAfter after : Program BlobError σ _)
    (fun _ store' => same store store') (fun _ store' => same store store') store

/-- A property that a flush keeps, with what is left of it when an operation fails. -/
structure Upkept (same : σ → σ → Prop) (keeps : BlobSink σ → Prop)
    (fails : SinkError → BlobSink σ → Prop) : Prop extends Quiet same keeps where
  leaves : ∀ e s, keeps s → fails e s
  flush : ∀ trigger s, keeps s → s.buffer ≠ [] →
    wp (flushLocked trigger) (fun _ s' => keeps s') fails s

namespace Upkept

/-- The daily tick keeps it, whether it flushes or not. -/
theorem tickDaily (upkept : Upkept same keeps fails) (holds : keeps s) :
    wp tickDaily (fun _ s' => keeps s') fails s := by
  simp only [BlobSink.tickDaily, wp_bind, wp_get]
  cases s.nextDailyUnix with
  | none => exact holds
  | some next =>
    simp only [wp_bind, wp_get, wp_ite, wp_pure, wp_modify]
    refine wp_mono (upkept.now holds) (fun time s₁ kept => ?_) (fun _ _ failed => failed)
    split
    · exact kept
    · -- Past the boundary, what is buffered is flushed before the next boundary is set.
      have moved : ∀ s₂ : BlobSink σ, keeps s₂ →
          wp BlobSink.now (fun time s₃ => keeps
            { s₃ with nextDailyUnix := some (advanceDaily time next) }) fails s₂ :=
        fun s₂ kept => wp_mono (upkept.now kept)
          (fun _ s₃ kept => upkept.congr s₃ _ kept
            ⟨rfl, upkept.refl _, rfl, rfl, rfl, rfl, rfl, rfl, rfl⟩)
          (fun _ _ failed => failed)
      split
      · rename_i pending
        exact wp_mono (upkept.flush .daily s₁ kept pending) (fun _ s₂ kept => moved s₂ kept)
          (fun _ _ failed => failed)
      · exact moved s₁ kept

/-- An explicit flush keeps it, whether there is anything to flush or not. -/
theorem flushNow (upkept : Upkept same keeps fails) (holds : keeps s) :
    wp flushNow (fun _ s' => keeps s') fails s := by
  simp only [BlobSink.flushNow, wp_bind, wp_get, wp_ite, wp_pure]
  split
  · exact holds
  · rename_i pending
    exact upkept.flush .explicit s holds pending

/-- The flush a trigger may ask for keeps it. -/
theorem flushDue (upkept : Upkept same keeps fails) (holds : keeps s) :
    wp instant (fun asked s₁ =>
      wp (match shouldFlush s₁ asked with
        | some trigger => flushLocked trigger
        | none => pure ()) (fun _ s' => keeps s') fails s₁) fails s := by
  refine wp_mono (upkept.instant holds) (fun asked s₁ kept => ?_) (fun _ _ failed => failed)
  cases due : shouldFlush s₁ asked with
  | none => exact kept
  | some trigger => exact upkept.flush trigger s₁ kept (buffer_of_shouldFlush due)

/-- The drift check lists the directory and keeps it, whether the check passes or not. -/
theorem checkDrift (upkept : Upkept same keeps fails) (lists : ListsOnly same) (holds : keeps s) :
    wp checkDrift (fun _ s' => keeps s') fails s := by
  simp only [BlobSink.checkDrift, wp_bind, wp_get, wp_focus]
  have read : ∀ store, same s.store store → keeps (storePart.set store s) :=
    fun store same => upkept.congr s _ holds ⟨rfl, same, rfl, rfl, rfl, rfl, rfl, rfl, rfl⟩
  refine wp_mono (lists _ s.store)
    (fun listed store same => ?_) (fun _ store same => upkept.leaves _ _ (read store same))
  split
  · exact upkept.leaves _ _ (read store same)
  · split
    · exact upkept.leaves _ _ (read store same)
    · simp only [wp_bind, wp_modify]
      exact wp_mono (upkept.instant (read store same))
        (fun _ s₁ kept => upkept.congr s₁ _ kept ⟨rfl, upkept.refl _, rfl, rfl, rfl, rfl, rfl, rfl, rfl⟩)
        (fun _ _ failed => failed)

/-- An idle query keeps it through the flush and the check that are due, and answers the head. -/
theorem nextExpectedOffset (upkept : Upkept same keeps fails) (lists : ListsOnly same)
    (holds : keeps s) :
    wp nextExpectedOffset (fun head s' => keeps s' ∧ head = s'.bufferedHead) fails s := by
  simp only [BlobSink.nextExpectedOffset, wp_bind, wp_get, wp_ite, wp_pure]
  refine wp_mono (upkept.tickDaily holds) (fun _ s₁ kept => ?_) (fun _ _ failed => failed)
  refine wp_mono (upkept.instant kept) (fun asked s₂ kept => ?_) (fun _ _ failed => failed)
  -- After the flush that may be due comes the drift check that may be due.
  have checked : ∀ s₃ : BlobSink σ, keeps s₃ →
      wp BlobSink.instant (fun checkedAt s₄ =>
        if s₄.driftCheckInterval ≤ checkedAt - s₄.lastDriftCheck then
          wp BlobSink.checkDrift (fun _ s' => keeps s' ∧ True) fails s₄
        else keeps s₄ ∧ True) fails s₃ := by
    intro s₃ kept
    refine wp_mono (upkept.instant kept) (fun checkedAt s₄ kept => ?_) (fun _ _ failed => failed)
    split
    · exact wp_mono (upkept.checkDrift lists kept) (fun _ _ kept => ⟨kept, trivial⟩)
        (fun _ _ failed => failed)
    · exact ⟨kept, trivial⟩
  split
  · rename_i due
    exact wp_mono (upkept.flush .maxTime s₂ kept (buffer_of_shouldFlush due))
      (fun _ s₃ kept => checked s₃ kept) (fun _ _ failed => failed)
  · exact checked s₂ kept

/-- A write brings the sink from what holds before a record to what holds after it. -/
theorem write {taken : BlobSink σ → Prop} {record : Record} (before : Upkept same keeps fails)
    (after : Upkept same taken fails) (holds : keeps s)
    (takes : ∀ (s : BlobSink σ) (started : Nat), keeps s →
      s.bufferedHead ≤ record.sourceOffset → taken (s.accepted record started)) :
    wp (write record) (fun _ s' => taken s') fails s := by
  simp only [BlobSink.write, wp_bind, wp_get, wp_ensure]
  refine wp_mono (before.tickDaily holds) (fun _ s₁ kept => ?_) (fun _ _ failed => failed)
  split
  case isFalse => exact before.leaves _ s₁ kept
  case isTrue above =>
    have same : ∀ s₂ : BlobSink σ, keeps s₂ ∧ s₂.bufferedHead ≤ record.sourceOffset →
        wp BlobSink.instant (fun _ s₃ => keeps s₃ ∧ s₃.bufferedHead ≤ record.sourceOffset) fails
          s₂ := by
      rintro s₂ ⟨kept, above⟩
      simp only [BlobSink.instant, wp_bind, wp_get, wp_set, wp_pure]
      exact ⟨before.congr s₂ _ kept ⟨rfl, before.refl _, rfl, rfl, rfl, rfl, rfl, rfl, rfl⟩, above⟩
    -- Accepted, the record goes into the view and the buffer, and may trip a flush.
    have pushed : ∀ s₂ : BlobSink σ, keeps s₂ ∧ s₂.bufferedHead ≤ record.sourceOffset →
        wp (do
          let started ← BlobSink.instant
          modify fun s => { s with
            view := s.view.map (applyView record)
            bufferBytes := s.bufferBytes + recordByteSize record
            buffer := s.buffer ++ [record]
            bufferStarted := some (s.bufferStarted.getD started) }
          let asked ← BlobSink.instant
          match shouldFlush (← get) asked with
          | some trigger => flushLocked trigger
          | none => pure ()) (fun _ s' => taken s') fails s₂ := by
      intro s₂ ready
      simp only [wp_bind, wp_modify, wp_get]
      refine wp_mono (same s₂ ready) ?_ (fun _ _ failed => failed)
      rintro started s₃ ⟨kept, above⟩
      exact after.flushDue (takes s₃ started kept above)
    cases s₁.spec.compaction with
    | none => exact pushed s₁ ⟨kept, above⟩
    | some mode =>
      -- A compacted destination holds the key against its contract first.
      simp only [wp_bind, wp_ofExcept]
      cases compactionKey record with
      | error e => exact before.leaves e s₁ kept
      | ok key => exact pushed s₁ ⟨kept, above⟩

end Upkept

end BlobSink

end MirrorV3
