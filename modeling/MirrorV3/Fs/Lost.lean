import MirrorV3.Fs.Position
import MirrorV3.Fs.Store
import MirrorV3.Envelope.Sample

/-! What a failed flush of an append-mode blob destination leaves behind. -/

namespace MirrorV3

open Effect

/-- A call on a blob destination that may come to a flush. -/
inductive BlobCall where
  | write (record : Record)
  | nextExpectedOffset
  | flush
  deriving Repr, DecidableEq

namespace BlobSink

section Calls

variable [EnvelopeLibraries] {σ : Type} [BlobStore σ]

/-- Run a call, for what it does to the sink. -/
def call : BlobCall → Program SinkError (BlobSink σ) Unit
  | .write record => write record
  | .nextExpectedOffset => do
    let _ ← nextExpectedOffset
    pure ()
  | .flush => flushNow

/-- The sink after calls that each return or fail. -/
def afterCalls (calls : List BlobCall) (s : BlobSink σ) : BlobSink σ :=
  calls.foldl (fun s next => after (call next) s) s

/--
A call on an append-mode destination comes to a flush, of the sink as it is by then.

Writes and idle queries begin with the daily tick, which may be where they come to it.
-/
inductive ComesToFlush (s : BlobSink σ) : BlobCall → FlushTrigger → BlobSink σ → Prop where
  | explicit (buffered : s.buffer ≠ []) : ComesToFlush s .flush .explicit s
  | daily {next : BlobCall} {boundary time : Nat} {s₁ : BlobSink σ} (ticks : next ≠ .flush)
      (scheduled : s.nextDailyUnix = some boundary) (read : now s = .ok time s₁)
      (past : boundary ≤ time) (buffered : s₁.buffer ≠ []) : ComesToFlush s next .daily s₁
  | full {record : Record} {started asked : Nat} {trigger : FlushTrigger} {s₁ s₂ s₃ : BlobSink σ}
      (ticked : tickDaily s = .ok () s₁) (above : s₁.bufferedHead ≤ record.sourceOffset)
      (append : s₁.spec.compaction = none) (starts : instant s₁ = .ok started s₂)
      (asks : instant (accepted record started s₂) = .ok asked s₃)
      (due : shouldFlush s₃ asked = some trigger) : ComesToFlush s (.write record) trigger s₃
  | idle {asked : Nat} {s₁ s₂ : BlobSink σ} (ticked : tickDaily s = .ok () s₁)
      (asks : instant s₁ = .ok asked s₂) (due : shouldFlush s₂ asked = some .maxTime) :
      ComesToFlush s .nextExpectedOffset .maxTime s₂

variable {s s₁ s₂ s₃ s' : BlobSink σ} {next : BlobCall} {trigger : FlushTrigger} {e : SinkError}
  {spec : BlobSpec}

/-- A flush is only come to with something buffered. -/
theorem ComesToFlush.buffered (comes : ComesToFlush s next trigger s₁) :
    s₁.buffer ≠ [] := by
  cases comes with
  | explicit buffered => exact buffered
  | daily _ _ _ _ buffered => exact buffered
  | full _ _ _ _ _ due => exact buffer_of_shouldFlush due
  | idle _ _ due => exact buffer_of_shouldFlush due

/-- A daily tick whose flush fails has failed. -/
theorem tickDaily_fails {boundary time : Nat} (scheduled : s.nextDailyUnix = some boundary)
    (read : now s = .ok time s₁) (past : boundary ≤ time) (buffered : s₁.buffer ≠ [])
    (failed : flushLocked .daily s₁ = .error e s') : tickDaily s = .error e s' := by
  have read_state : (get : Program SinkError (BlobSink σ) _) s = .ok s s := rfl
  have read_state₁ : (get : Program SinkError (BlobSink σ) _) s₁ = .ok s₁ s₁ := rfl
  rw [tickDaily, bind_of_ok read_state, scheduled]
  simp only
  rw [bind_of_ok read, if_neg (Nat.not_lt.mpr past), bind_of_ok read_state₁, if_pos buffered,
    bind_of_error failed]

/-- A call fails as the flush does that it comes to. -/
theorem ComesToFlush.fails (comes : ComesToFlush s next trigger s₁)
    (failed : flushLocked trigger s₁ = .error e s') : call next s = .error e s' := by
  have read_state : ∀ s : BlobSink σ, (get : Program SinkError (BlobSink σ) _) s = .ok s s :=
    fun _ => rfl
  cases comes with
  | explicit buffered =>
    rw [call, flushNow, bind_of_ok (read_state s), if_neg buffered, failed]
  | daily ticks scheduled read past buffered =>
    have ticked := tickDaily_fails scheduled read past buffered failed
    cases next with
    | flush => exact absurd rfl ticks
    | nextExpectedOffset =>
      rw [call, bind_of_error]
      rw [nextExpectedOffset, bind_of_error ticked]
    | write record => rw [call, write, bind_of_error ticked]
  | full ticked above append starts asks due =>
    rename_i record started asked s₂ s₃
    have passed : ensure (s₂.bufferedHead ≤ record.sourceOffset)
        (SinkError.unexpectedPosition s₂.bufferedHead record.sourceOffset) s₂ = .ok () s₂ := by
      rw [ensure, if_pos above]
      rfl
    have took : (modify (accepted record started) : Program SinkError (BlobSink σ) PUnit) s₃
        = .ok ⟨⟩ (accepted record started s₃) := rfl
    rw [call, write, bind_of_ok ticked, bind_of_ok (read_state s₂), bind_of_ok passed, append]
    simp only
    rw [bind_of_ok starts]
    unfold accepted at took asks
    rw [bind_of_ok took, bind_of_ok asks, bind_of_ok (read_state s₁), due]
    exact failed
  | idle ticked asks due =>
    rename_i asked s₂
    rw [call, bind_of_error]
    rw [nextExpectedOffset, bind_of_ok ticked, bind_of_ok asks, bind_of_ok (read_state s₁),
      if_pos due, bind_of_error failed]

/-- No operation changes the settings of the sink. -/
theorem spec_upkept : Upkept (σ := σ) (fun _ _ => True) (fun s => s.spec = spec)
    (fun _ _ => True) where
  refl _ := trivial
  congr _ _ same alike := alike.spec.trans same
  leaves _ _ _ := trivial
  flush trigger s same buffered := by
    obtain ⟨last, ends⟩ : ∃ last, s.buffer.getLast? = some last :=
      Option.isSome_iff_exists.mp (by simpa using buffered)
    refine wp_mono (flushLocked_spec trigger ends) ?_ (fun _ _ _ => trivial)
    rintro _ _ ⟨bytes, store, -, -, rfl⟩
    exact same

/-- A call comes to a flush under the settings it began with. -/
theorem ComesToFlush.spec_eq (comes : ComesToFlush s next trigger s₁) : s₁.spec = s.spec := by
  -- Reading a clock leaves the settings, and so does the daily tick.
  have reads : ∀ {s s' : BlobSink σ} {asked : Nat}, instant s = .ok asked s' → s'.spec = s.spec := by
    intro s s' asked read
    cases read
    rfl
  have ticks : ∀ {s s' : BlobSink σ}, tickDaily s = .ok () s' → s'.spec = s.spec := by
    intro s s' ticked
    have kept : wp tickDaily (fun _ s' => s'.spec = s.spec) _ s := spec_upkept.tickDaily rfl
    simpa only [wp, ticked] using kept
  cases comes with
  | explicit => rfl
  | daily _ _ read =>
    cases read
    rfl
  | full ticked _ _ starts asks => exact (reads asks).trans ((reads starts).trans (ticks ticked))
  | idle ticked asks => exact (reads asks).trans (ticks ticked)

/-- A failed flush of an append-mode destination leaves nothing buffered, and no more changed. -/
theorem flushLocked_lost (append : s.spec.compaction = none) (buffered : s.buffer ≠ [])
    (failed : flushLocked trigger s = .error e s') : ∃ store, s' = { s with store, buffer := [] } := by
  obtain ⟨last, ends⟩ : ∃ last, s.buffer.getLast? = some last :=
    Option.isSome_iff_exists.mp (by simpa using buffered)
  have left := flushLocked_spec trigger ends
  simp only [wp, failed] at left
  cases left with
  | encoding refused => exact ⟨s.store, taken_of_append append⟩
  | putting encoded refused =>
    rw [taken_of_append append]
    exact ⟨_, rfl⟩

/-- With nothing buffered a flush is reported done, and does nothing. -/
theorem flushNow_of_empty (empty : s.buffer = []) : flushNow s = .ok () s := by
  have read : (get : Program SinkError (BlobSink σ) _) s = .ok s s := rfl
  rw [flushNow, bind_of_ok read, if_pos empty]
  rfl

variable [BlobHistory σ]

/-- A record is in an object of the directory. -/
def Stores (s : BlobSink σ) (record : Record) : Prop :=
  ∃ object ∈ objects s.store, ∃ records,
    decodeBlob object.1 (BlobStore.location s.store object.1) object.2 s.spec.format
      (s.spec.encryption.map (·.keyring)) = .ok records ∧ record ∈ records

/-- An object's name covers the offset of a record. -/
def Covers (format : Format) (object : BlobObject) (record : Record) : Prop :=
  ∃ entry, chainEntry format object.1 = .ok entry
    ∧ entry.lo ≤ record.sourceOffset ∧ record.sourceOffset ≤ entry.hi

/-- Nothing that was buffered in `s` is lost on the way to `s'`. -/
structure LosesNothing (s s' : BlobSink σ) : Prop where
  held : s'.buffer = s.buffer
  reported : ∀ last ∈ s.buffer.getLast?,
    wp nextExpectedOffset (fun head _ => head = last.sourceOffset + 1) (fun _ _ => True) s'
  /-- No flush is reported done before every record is in an object. -/
  flushed : ∀ calls : List BlobCall, ∀ record ∈ s.buffer,
    wp flushNow (fun _ s'' => s''.Stores record) (fun _ _ => True) (afterCalls calls s')
  /-- No object is put over a record's offset before the record is in an object. -/
  covered : ∀ calls : List BlobCall, ∀ record ∈ s.buffer,
    ∀ object ∈ objects (afterCalls calls s').store, object ∉ objects s'.store →
      Covers s.spec.format object record → (afterCalls calls s').Stores record

/--
A failed flush of an append-mode destination always loses what was buffered.

The call fails with the buffer given up.
From then on the sink reports where its chain ends, and an explicit flush is done at once.
-/
theorem failed_flush_loses (append : s.spec.compaction = none)
    (comes : ComesToFlush s next trigger s₁) (failed : flushLocked trigger s₁ = .error e s') :
    call next s = .error e s' ∧ s'.buffer = []
      ∧ wp nextExpectedOffset (fun head _ => head = s₁.durablePosition) (fun _ _ => True) s'
      ∧ flushNow s' = .ok () s' ∧ ¬ LosesNothing s₁ s' := by
  have append₁ : s₁.spec.compaction = none := by rw [comes.spec_eq, append]
  obtain ⟨store, rfl⟩ := flushLocked_lost append₁ comes.buffered failed
  refine ⟨comes.fails failed, rfl, ?_, flushNow_of_empty rfl, fun nothing => ?_⟩
  · -- With nothing buffered the sink stands where its chain ends.
    exact wp_mono nextExpectedOffset_bufferedHead (fun _ _ answered => answered.2)
      (fun _ _ _ => trivial)
  · exact comes.buffered nothing.held.symm

end Calls

end BlobSink

namespace Sample

open BlobSink

/-- A destination that flushes at every record, on a store that fails its first request. -/
def failingOnce : BlobSink ObjectStore :=
  { blobAt none 0 with
    store := ⟨[], fun n => ⟨if n = 0 then some (.store "timed out") else none, false⟩⟩ }

/-- That destination as it comes to its first flush. -/
def full : BlobSink ObjectStore :=
  after instant (accepted (record 0) 0 (after instant failingOnce))

/-- That destination once its first flush failed. -/
def lost : BlobSink ObjectStore := after (flushLocked .maxOffsets) full

/-- What the first write fails with. -/
def timedOut : SinkError :=
  .transport "write 00000000000000000000-00000000000000000000.ndjson: timed out"

/-- A first write that fails in its flush loses its record. -/
theorem failed_flush_loses_write :
    call (.write (record 0)) failingOnce = .error timedOut lost ∧ lost.buffer = []
      ∧ wp nextExpectedOffset (fun head _ => head = full.durablePosition) (fun _ _ => True) lost
      ∧ flushNow lost = .ok () lost ∧ ¬ LosesNothing full lost := by
  have comes : ComesToFlush failingOnce (.write (record 0)) .maxOffsets full :=
    .full rfl (by decide) rfl rfl rfl rfl
  exact failed_flush_loses rfl comes (by rfl)

/--
After a failed flush the lost record's offset is covered by an object without it.

An explicit flush is done at once with nothing in the directory, and the next record's object starts
where the chain ends, below the record that was lost.
-/
theorem failed_flush_covers :
    flushLocked .maxOffsets full = .error timedOut lost ∧ full.buffer = [record 0]
      ∧ ¬ LosesNothing full lost
      ∧ flushNow lost = .ok () lost ∧ objects lost.store = []
      ∧ (objects (afterCalls [.write (record 1)] lost).store).map (·.1)
        = ["00000000000000000000-00000000000000000001.ndjson"]
      ∧ readChain (objects (afterCalls [.write (record 1)] lost).store)
          [⟨0, 1, "00000000000000000000-00000000000000000001.ndjson"⟩] .ndjson none
        = .ok [record 1] := by
  refine ⟨by rfl, rfl, fun nothing => ?_, rfl, rfl, by decide +kernel, by decide +kernel⟩
  -- The flush that is done at once has put the record nowhere.
  have buffered : record 0 ∈ full.buffer := List.mem_singleton_self _
  obtain ⟨object, mem, -⟩ : lost.Stores (record 0) := nothing.flushed [] (record 0) buffered
  exact absurd mem List.not_mem_nil

end Sample

end MirrorV3
