import MirrorV3.Fs.Store

/-! The append-mode sink keeps its directory an archive of the log it is fed. -/

namespace MirrorV3

open Effect

variable [EnvelopeLibraries]

/-- How the objects of a destination are read back: one format, and the keys for it. -/
structure ArchiveReader where
  format : Format
  keyring : Option Keyring

/-- An append-mode setting whose objects a reader can read: its format, and its keys if any. -/
structure ArchiveReader.Reads (reader : ArchiveReader) (spec : BlobSpec) : Prop where
  append : spec.compaction = none
  format : spec.format = reader.format
  keys : ∀ enc ∈ spec.encryption,
    ∃ ring, reader.keyring = some ring ∧ ring.get enc.keyId = enc.keyring.get enc.keyId

section

variable {σ : Type} [BlobHistory σ]

/-- Whether a directory is an archive of the log, up to some position. -/
def Archived (reader : ArchiveReader) (log : Log) (store : σ) : Prop :=
  ∃ durable, Archive reader.format reader.keyring log (objects store) durable

/--
An append-mode sink that has taken a log up to `expected`.

What is durable is an archive, and what follows it is in the buffer.
-/
structure Appending (reader : ArchiveReader) (log : Log) (expected : Nat) (s : BlobSink σ) :
    Prop where
  reads : reader.Reads s.spec
  archive : Archive reader.format reader.keyring log (objects s.store) s.durablePosition
  ordered : s.durablePosition ≤ expected
  buffered : s.buffer = log.between s.durablePosition expected
  head : s.bufferedHead = expected

/-- A sink that has taken the log up to a position leaves an archive behind. -/
theorem Appending.archived {reader : ArchiveReader} {log : Log} {expected : Nat}
    {s : BlobSink σ} (holds : Appending reader log expected s) : Archived reader log s.store :=
  ⟨_, holds.archive⟩

/-- Only the setting, the directory, the position and the buffer matter. -/
theorem Appending.congr {reader : ArchiveReader} {log : Log} {expected : Nat}
    {s s' : BlobSink σ} (holds : Appending reader log expected s) (spec : s'.spec = s.spec)
    (same : objects s'.store = objects s.store)
    (durable : s'.durablePosition = s.durablePosition) (buffer : s'.buffer = s.buffer) :
    Appending reader log expected s' where
  reads := spec ▸ holds.reads
  archive := by
    rw [same, durable]
    exact holds.archive
  ordered := durable ▸ holds.ordered
  buffered := by rw [buffer, durable, holds.buffered]
  head := by rw [← holds.head, BlobSink.bufferedHead, BlobSink.bufferedHead, buffer, durable]

end

section Encoding

variable {spec : BlobSpec} {checked : spec.checkEncryption = .ok ()} {records : List Record}

omit [EnvelopeLibraries] in
/-- A checked setting encrypts a columnar format with a key that is there. -/
theorem of_checked (checked : spec.checkEncryption = .ok ()) {enc : BlobEncryption}
    (setting : spec.encryption = some enc) :
    spec.format = .parquet ∧ ∃ key, enc.keyring.get enc.keyId = .ok key := by
  simp only [BlobSpec.checkEncryption, setting] at checked
  split at checked
  · cases checked
  · rename_i columnar
    split at checked
    · exact ⟨by simpa using columnar, _, ‹_›⟩
    · cases checked

/-- Without encryption a batch is written in clear. -/
theorem encode_clear (setting : spec.encryption = none) :
    spec.encode checked records
      = encodeBatch spec.format spec.compression spec.keys spec.values records := by
  unfold BlobSpec.encode
  split
  · rfl
  · simp_all

/-- With encryption a batch is written under the active key. -/
theorem encode_encrypted {enc : BlobEncryption} {key : ParquetKey}
    (setting : spec.encryption = some enc) (active : enc.keyring.get enc.keyId = .ok key) :
    spec.encode checked records
      = encodeBatchEncrypted records spec.compression spec.keys spec.values key := by
  unfold BlobSpec.encode
  split
  · simp_all
  · rename_i other same
    obtain rfl : other = enc := Option.some.inj (same.symm.trans setting)
    split
    · simp_all
    · rename_i missing
      rw [active] at missing
      cases missing

omit [EnvelopeLibraries] in
/-- The key an object is named after is one a keys directory may hold. -/
theorem isKeyId_of_checked (checked : spec.checkEncryption = .ok ()) :
    ∀ id ∈ spec.encryption.map (·.keyId), isKeyId id = true := by
  intro id named
  obtain ⟨enc, setting, same⟩ := Option.map_eq_some_iff.mp named
  obtain ⟨-, key, active⟩ := of_checked checked setting
  rw [← same]
  exact Keyring.isKeyId_of_get active

/-- What a sink encodes under its own setting, a reader with the same format and keys decodes. -/
theorem decodeBlob_encode [LawfulEnvelopeLibraries] {reader : ArchiveReader} {bytes : Bytes}
    {lo hi : Nat} (format : spec.format = reader.format)
    (keys : ∀ enc ∈ spec.encryption,
      ∃ ring, reader.keyring = some ring ∧ ring.get enc.keyId = enc.keyring.get enc.keyId)
    (low : lo < 2 ^ 64) (high : hi < 2 ^ 64)
    (inRange : ∀ r ∈ records, r.sourceOffset < 2 ^ 64)
    (encoded : spec.encode checked records = .ok bytes) (location : String) :
    decodeBlob (blobFilename lo hi (spec.encryption.map (·.keyId)) reader.format.extension)
      location bytes reader.format reader.keyring = .ok records := by
  have parsed := parseBlobName_blobFilename reader.format.extension low high
    (isKeyId_of_checked checked)
  cases setting : spec.encryption with
  | none =>
    rw [encode_clear setting, format] at encoded
    rw [setting, Option.map_none] at parsed
    simp [decodeBlob, parsed, decodeBatch_encodeBatch inRange encoded]
  | some enc =>
    -- The name carries the id of the active key, and the reader's keyring holds that key too.
    obtain ⟨-, key, active⟩ := of_checked checked setting
    obtain ⟨ring, holds, same⟩ := keys enc setting
    rw [encode_encrypted setting active] at encoded
    rw [setting, Option.map_some] at parsed
    simp [decodeBlob, parsed, holds, same, active,
      decodeBatchEncrypted_encodeBatchEncrypted encoded]

end Encoding

namespace BlobSink

variable {σ : Type} [BlobStore σ] [BlobHistory σ] [LawfulBlobStore σ]
  [LawfulEnvelopeLibraries] {reader : ArchiveReader} {log : Log} {expected : Nat}
  {s : BlobSink σ}

omit [BlobStore σ] [LawfulBlobStore σ] [LawfulEnvelopeLibraries] in
/-- The last record of a non-empty buffer is the log's, and the sink expects what follows it. -/
theorem last_of_appending (holds : Appending reader log expected s) (pending : s.buffer ≠ []) :
    ∃ last ∈ log.records, s.buffer.getLast? = some last ∧ s.durablePosition ≤ last.sourceOffset
      ∧ last.sourceOffset + 1 = expected := by
  obtain ⟨last, ends⟩ : ∃ last, s.buffer.getLast? = some last :=
    Option.isSome_iff_exists.mp (by simpa using pending)
  have mem : last ∈ log.between s.durablePosition expected :=
    holds.buffered ▸ List.mem_of_getLast? ends
  obtain ⟨inLog, low, -⟩ := Log.mem_between.mp mem
  refine ⟨last, inLog, ends, low, ?_⟩
  rw [← log.addOne_offset inLog, ← holds.head]
  simp [bufferedHead, ends]

/-- A flush makes the buffer the next object, and if it fails the directory is an archive still. -/
theorem flushLocked_appending (trigger : FlushTrigger) (holds : Appending reader log expected s)
    (pending : s.buffer ≠ []) :
    wp (flushLocked trigger) (fun _ s' => Appending reader log expected s')
      (fun _ s' => Archived reader log s'.store) s := by
  obtain ⟨last, inLog, ends, low, next⟩ := last_of_appending holds pending
  have high : last.sourceOffset < 2 ^ 64 := by
    have := log.numbered last inLog
    omega
  have named := isKeyId_of_checked s.checked
  simp only [flushLocked, takeBatch, putObject, wp_bind, wp_get, wp_modify, wp_focus, wp_set,
    wp_pure, wp_ofExcept, holds.reads.append, ends, Option.map_some, Option.getD_some]
  cases encoded : s.spec.encode s.checked s.buffer with
  | error e => exact holds.archived
  | ok bytes =>
    rw [holds.reads.format]
    have inRange : ∀ r ∈ s.buffer, r.sourceOffset < 2 ^ 64 := by
      intro r mem
      have := log.numbered r (Log.mem_between.mp (holds.buffered ▸ mem)).1
      omega
    -- Whether the put is reported done or failed, the object it may leave continues the archive.
    have extended : Archive reader.format reader.keyring log
        (objects s.store ++ [(blobFilename s.durablePosition last.sourceOffset
          (s.spec.encryption.map (·.keyId)) reader.format.extension, bytes)])
        (last.sourceOffset + 1) := by
      refine .extend holds.archive last _ bytes inLog low named fun location => ?_
      rw [next, ← holds.buffered]
      exact decodeBlob_encode holds.reads.format holds.reads.keys (by omega) high inRange encoded
        location
    refine wp_mono (LawfulBlobStore.putNew_spec _ bytes s.store
      (holds.archive.fresh low high named)) (fun _ store done => ?_) (fun _ store failed => ?_)
    · exact {
        reads := holds.reads
        archive := by
          show Archive _ _ _ (objects store) (addOne last.sourceOffset)
          rw [done, log.addOne_offset inLog]
          exact extended
        ordered := by
          show addOne last.sourceOffset ≤ expected
          rw [log.addOne_offset inLog, next]
        buffered := by
          show [] = log.between (addOne last.sourceOffset) expected
          rw [log.addOne_offset inLog, next, Log.between, Window.between_self]
        head := by
          show addOne last.sourceOffset = expected
          rw [log.addOne_offset inLog, next] }
    · rcases failed with same | landed
      · exact ⟨_, same ▸ holds.archive⟩
      · exact ⟨_, landed ▸ extended⟩

/-- Having taken the log up to a position is kept by whatever takes no record. -/
theorem appending_upkept :
    Upkept SameObjects (Appending reader log expected (σ := σ))
      (fun _ s' => Archived reader log s'.store) where
  refl _ := rfl
  congr _ _ holds alike := holds.congr alike.spec alike.store alike.durable alike.buffer
  leaves _ _ holds := holds.archived
  flush trigger _ holds pending := flushLocked_appending trigger holds pending

/-- An idle query answers where the log stands, after the flush and the check that are due. -/
theorem nextExpectedOffset_appending (holds : Appending reader log expected s) :
    wp nextExpectedOffset (fun head s' => Appending reader log expected s' ∧ head = expected)
      (fun _ s' => Archived reader log s'.store) s :=
  wp_mono (appending_upkept.nextExpectedOffset listsOnly_sameObjects holds)
    (fun _ _ ⟨kept, answered⟩ => ⟨kept, answered.trans kept.head⟩) (fun _ _ failed => failed)

/-- The next record of the log is taken, and what follows it is expected. -/
theorem write_appending {record : Record} (holds : Appending reader log expected s)
    (found : log.next expected = some record) :
    wp (write record) (fun _ s' => Appending reader log (record.sourceOffset + 1) s')
      (fun _ s' => Archived reader log s'.store) s := by
  obtain ⟨inLog, above⟩ := Log.of_next found
  refine appending_upkept.write appending_upkept holds fun s₁ started kept _ => ?_
  -- The buffer now reaches through this record, across any hole before it.
  exact {
    reads := kept.reads
    archive := kept.archive
    ordered := by
      show s₁.durablePosition ≤ _
      have := kept.ordered
      omega
    buffered := by
      show s₁.buffer ++ [record] = log.between s₁.durablePosition _
      rw [kept.buffered]
      exact Log.between_snoc kept.ordered found
    head := by simp [bufferedHead, accepted, log.addOne_offset inLog] }

end BlobSink

end MirrorV3
