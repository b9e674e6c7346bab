import MirrorV3.Fs.Snapshots

/-! The compacted sink keeps its view, and every snapshot it puts, at what it was fed so far. -/

namespace MirrorV3

open Effect

/-- A log-compaction setting whose objects a reader can read: its format, and its keys if any. -/
structure ArchiveReader.ReadsSnapshots (reader : ArchiveReader) (spec : BlobSpec) : Prop where
  compacted : spec.compaction = some .log
  format : spec.format = reader.format
  keys : ∀ enc ∈ spec.encryption, ∃ ring, reader.keyring = some ring ∧
    ∀ id key, enc.keyring.get id = .ok key → ring.get id = .ok key

variable [EnvelopeLibraries]

/-- What decodes with the keys a setting has decodes the same with all the keys of a reader. -/
theorem decodeBlob_reader {reader : ArchiveReader} {spec : BlobSpec} {name location : String}
    {bytes : Bytes} {records : List Record} (reads : reader.ReadsSnapshots spec)
    (decoded : decodeBlob name location bytes spec.format (spec.encryption.map (·.keyring))
      = .ok records) :
    decodeBlob name location bytes reader.format reader.keyring = .ok records := by
  rw [← reads.format]
  unfold decodeBlob at decoded ⊢
  cases named : (parseBlobName name spec.format.extension).bind (·.keyId) with
  | none => simpa only [named] using decoded
  | some id =>
    cases setting : spec.encryption with
    | none => simp [named, setting] at decoded
    | some enc =>
      obtain ⟨ring, holds, same⟩ := reads.keys enc setting
      cases active : enc.keyring.get id with
      | error message => simp [named, setting, active] at decoded
      | ok key => simpa [named, setting, active, holds, same id key active] using decoded

section

variable {σ : Type} [BlobHistory σ]

/-- Whether a directory holds snapshots of a history, and nothing else. -/
def Snapshotted (reader : ArchiveReader) (history : Nat → List Record) (store : σ) : Prop :=
  ∃ durable, Snapshots reader.format reader.keyring history (objects store) durable

/-- What a history says was written has the offsets a broker gives. -/
def Numbered (history : Nat → List Record) : Prop :=
  ∀ position, ∀ r ∈ history position, r.sourceOffset < 2 ^ 63

/--
A compacted sink that has been fed all that `history` says was written below `expected`.

Its view says so now, and the newest snapshot says what was written below the durable position.
-/
structure Compacting (reader : ArchiveReader) (history : Nat → List Record) (expected : Nat)
    (s : BlobSink σ) : Prop where
  reads : reader.ReadsSnapshots s.spec
  stored : ∃ durable ≤ s.durablePosition,
    Snapshots reader.format reader.keyring history (objects s.store) durable
      ∧ history durable = history s.durablePosition
  view : ∃ view, s.view = some view ∧ view.Holds (history expected)
  head : s.bufferedHead = expected
  above : s.buffer ≠ [] → s.durablePosition < expected
  inRange : ∀ r ∈ s.buffer, r.sourceOffset < 2 ^ 63

variable {reader : ArchiveReader} {history : Nat → List Record} {expected : Nat} {s : BlobSink σ}

/-- A sink leaves snapshots behind wherever it is stopped. -/
theorem Compacting.snapshotted (holds : Compacting reader history expected s) :
    Snapshotted reader history s.store := by
  obtain ⟨durable, -, stored, -⟩ := holds.stored
  exact ⟨durable, stored⟩

/-- Only the setting, the objects, the position, the buffer and the view matter. -/
theorem Compacting.congr {s' : BlobSink σ} (holds : Compacting reader history expected s)
    (spec : s'.spec = s.spec) (same : objects s'.store = objects s.store)
    (durable : s'.durablePosition = s.durablePosition) (buffer : s'.buffer = s.buffer)
    (view : s'.view = s.view) : Compacting reader history expected s' where
  reads := spec ▸ holds.reads
  stored := by
    rw [same, durable]
    exact holds.stored
  view := view ▸ holds.view
  head := by rw [← holds.head, BlobSink.bufferedHead, BlobSink.bufferedHead, buffer, durable]
  above := by
    rw [durable, buffer]
    exact holds.above
  inRange := buffer ▸ holds.inRange

/-- A sink is durable at most up to what it expects. -/
theorem Compacting.ordered (holds : Compacting reader history expected s) :
    s.durablePosition ≤ expected := by
  by_cases pending : s.buffer = []
  · rw [← holds.head]
    simp [BlobSink.bufferedHead, pending]
  · exact Nat.le_of_lt (holds.above pending)

end

namespace BlobSink

variable {σ : Type} [BlobStore σ] [BlobHistory σ] [LawfulBlobStore σ]
  [LawfulEnvelopeLibraries] {reader : ArchiveReader} {history : Nat → List Record}
  {expected : Nat} {s : BlobSink σ}

omit [BlobStore σ] [LawfulBlobStore σ] [LawfulEnvelopeLibraries] in
/-- The last buffered record is the one before what the sink expects. -/
theorem last_of_compacting (holds : Compacting reader history expected s)
    (pending : s.buffer ≠ []) :
    ∃ last, s.buffer.getLast? = some last ∧ last.sourceOffset < 2 ^ 63
      ∧ last.sourceOffset + 1 = expected := by
  obtain ⟨last, ends⟩ : ∃ last, s.buffer.getLast? = some last :=
    Option.isSome_iff_exists.mp (by simpa using pending)
  have numbered := holds.inRange last (List.mem_of_getLast? ends)
  refine ⟨last, ends, numbered, ?_⟩
  rw [← addOne_eq (by omega : last.sourceOffset + 1 < 2 ^ 64), ← holds.head]
  simp [bufferedHead, ends]

/-- A flush puts a snapshot of the view, and one that fails leaves snapshots as well. -/
theorem flushLocked_compacting (trigger : FlushTrigger) (numbered : Numbered history)
    (holds : Compacting reader history expected s) (pending : s.buffer ≠ []) :
    wp (flushLocked trigger) (fun _ s' => Compacting reader history expected s')
      (fun _ s' => Snapshotted reader history s'.store) s := by
  obtain ⟨last, ends, high, next⟩ := last_of_compacting holds pending
  obtain ⟨view, current, shows_⟩ := holds.view
  obtain ⟨durable, atMost, stored, same⟩ := holds.stored
  have named := isKeyId_of_checked s.checked
  have below := holds.above pending
  have successor : addOne last.sourceOffset = expected := by rw [addOne_eq (by omega), next]
  simp only [flushLocked, takeBatch, putObject, wp_bind, wp_get, wp_modify, wp_focus, wp_pure,
    wp_ofExcept, holds.reads.compacted, current, ends, Option.map_some, Option.getD_some]
  cases encoded : s.spec.encode s.checked view.values with
  | error e => exact holds.snapshotted
  | ok bytes =>
    rw [holds.reads.format]
    have inRange : ∀ r ∈ view.values, r.sourceOffset < 2 ^ 64 := by
      intro r mem
      obtain ⟨key, found⟩ := View.mem_values.mp mem
      have := numbered expected r (shows_.named found).1
      omega
    have keys : ∀ enc ∈ s.spec.encryption,
        ∃ ring, reader.keyring = some ring ∧ ring.get enc.keyId = enc.keyring.get enc.keyId := by
      intro enc setting
      obtain ⟨ring, holds, agrees⟩ := holds.reads.keys enc setting
      obtain ⟨-, key, active⟩ := of_checked s.checked setting
      exact ⟨ring, holds, (agrees _ key active).trans active.symm⟩
    -- Whether the put is reported done or failed, the object it may leave is such a snapshot.
    have extended : Snapshots reader.format reader.keyring history
        (objects s.store ++ [(blobFilename s.durablePosition last.sourceOffset
          (s.spec.encryption.map (·.keyId)) reader.format.extension, bytes)])
        (last.sourceOffset + 1) := by
      refine .extend stored _ _ _ bytes view atMost (by omega) high named (next ▸ shows_)
        fun location => ?_
      exact decodeBlob_encode holds.reads.format keys (by omega) (by omega) inRange encoded
        location
    refine wp_mono (LawfulBlobStore.putNew_spec _ bytes s.store
      (stored.fresh atMost (by omega) (by omega) named)) (fun _ store done => ?_)
      (fun _ store failed => ?_)
    · exact {
        reads := holds.reads
        stored := by
          refine ⟨addOne last.sourceOffset, Nat.le_refl _, ?_, rfl⟩
          show Snapshots _ _ _ (objects store) _
          rw [done, successor, ← next]
          exact extended
        view := ⟨view, current, shows_⟩
        head := successor
        above := fun pending => absurd rfl pending
        inRange := by simp }
    · rcases failed with same | landed
      · exact ⟨_, same ▸ stored⟩
      · exact ⟨_, landed ▸ extended⟩

/-- Having been fed a history up to a position is kept by whatever takes no record. -/
theorem compacting_upkept (numbered : Numbered history) :
    Upkept SameObjects (Compacting reader history expected (σ := σ))
      (fun _ s' => Snapshotted reader history s'.store) where
  refl _ := rfl
  congr _ _ holds alike :=
    holds.congr alike.spec alike.store alike.durable alike.buffer alike.view
  leaves _ _ holds := holds.snapshotted
  flush trigger _ holds pending := flushLocked_compacting trigger numbered holds pending

/-- A record that the history has next is taken into the view and the buffer. -/
theorem write_compacting {record : Record} (numbered : Numbered history)
    (holds : Compacting reader history expected s) (above : expected ≤ record.sourceOffset)
    (inRange : record.sourceOffset < 2 ^ 63)
    (grows : history (record.sourceOffset + 1) = history expected ++ [record]) :
    wp (write record) (fun _ s' => Compacting reader history (record.sourceOffset + 1) s')
      (fun _ s' => Snapshotted reader history s'.store) s := by
  refine (compacting_upkept numbered).write (compacting_upkept numbered) holds
    fun s₁ started kept _ => ?_
  obtain ⟨current, shown, shows_⟩ := kept.view
  have ordered := kept.ordered
  exact {
    reads := kept.reads
    stored := kept.stored
    view := by
      show ∃ view, s₁.view.map (applyView record) = some view ∧ _
      refine ⟨applyView record current, by rw [shown, Option.map_some], ?_⟩
      rw [grows]
      exact shows_.concat record
    head := by
      simp [bufferedHead, accepted, addOne_eq (by omega : record.sourceOffset + 1 < 2 ^ 64)]
    above := fun _ => by
      show s₁.durablePosition < _
      omega
    inRange := by
      intro r mem
      rcases List.mem_append.mp mem with old | new
      · exact kept.inRange r old
      · rw [List.mem_singleton.mp new]
        exact inRange }

omit [EnvelopeLibraries] [BlobStore σ] [LawfulBlobStore σ] [LawfulEnvelopeLibraries] in
/-- Aligned to a position with nothing written in between, the sink has been fed as much. -/
theorem align_compacting [EnvelopeLibraries] {low : Nat}
    (holds : Compacting reader history expected s) (nothing : history low = history expected) :
    wp (alignToSourceLowWatermark low) (fun _ s' => Compacting reader history low s')
      (fun _ s' => Snapshotted reader history s'.store) s := by
  simp only [alignToSourceLowWatermark, wp_bind, wp_get, wp_ensure, wp_set,
    if_pos holds.reads.compacted]
  split
  · rename_i quiet
    have here : s.durablePosition = expected := by
      rw [← holds.head]
      simp [bufferedHead, quiet.1]
    obtain ⟨durable, atMost, stored, same⟩ := holds.stored
    exact {
      reads := holds.reads
      stored := ⟨durable, Nat.le_trans atMost quiet.2, stored, by rw [same, here, nothing]⟩
      view := by
        rw [nothing]
        exact holds.view
      head := by simp [bufferedHead, quiet.1]
      above := fun pending => absurd quiet.1 pending
      inRange := holds.inRange }
  · exact holds.snapshotted

omit [BlobHistory σ] [LawfulBlobStore σ] [LawfulEnvelopeLibraries] in
/-- The view a sink built in compaction mode starts with: what the newest snapshot decodes to. -/
theorem of_new_compacted {store : σ} {spec : BlobSpec} {chain : Chain} {snapshot : Option Bytes}
    {clocks : Clocks} {sink : BlobSink σ} (compacted : spec.compaction = some .log)
    (built : BlobSink.new store spec chain snapshot clocks = .ok sink) :
    sink.store = store ∧ sink.spec = spec ∧ sink.durablePosition = chain.durable
      ∧ sink.buffer = [] ∧ ∃ view, sink.view = some view
        ∧ (chain.latest = none → view = {})
        ∧ ∀ name bytes, chain.latest = some name → snapshot = some bytes →
          decodeView name (BlobStore.location store name) bytes spec.format spec.encryption
            = .ok view := by
  unfold BlobSink.new at built
  split at built
  · cases built
  · simp only [compacted, bind, Except.bind, pure, Except.pure] at built
    cases newest : chain.latest with
    | none =>
      simp only [newest] at built
      cases built
      exact ⟨rfl, rfl, rfl, rfl, {}, rfl, fun _ => rfl, by simp⟩
    | some name =>
      cases snapshot with
      | none => simp [newest] at built
      | some bytes =>
        simp only [newest] at built
        cases read : decodeView name (BlobStore.location store name) bytes spec.format
          spec.encryption with
        | error e => simp [read, Functor.map, Except.map] at built
        | ok view =>
          simp only [read, Functor.map, Except.map] at built
          cases built
          refine ⟨rfl, rfl, rfl, rfl, view, rfl, by simp, ?_⟩
          intro name' bytes' same same'
          cases same
          cases same'
          exact read

omit [LawfulBlobStore σ] [LawfulEnvelopeLibraries] in
/-- A sink built on snapshots of a history has been fed it if its view says so. -/
theorem compacting_of_new {spec : BlobSpec} {chain : Chain} {snapshot : Option Bytes}
    {clocks : Clocks} {store : σ} (reads : reader.ReadsSnapshots spec)
    (stored : Snapshots reader.format reader.keyring history (objects store) chain.durable)
    (current : ∀ view : View, (chain.latest = none → view = {}) →
      (∀ name bytes, chain.latest = some name → snapshot = some bytes →
        decodeView name (BlobStore.location store name) bytes spec.format spec.encryption
          = .ok view) → view.Holds (history chain.durable))
    (built : BlobSink.new store spec chain snapshot clocks = .ok s) :
    Compacting reader history chain.durable s := by
  obtain ⟨at_store, at_spec, at_durable, empty, view, holds, fresh, read⟩ :=
    of_new_compacted reads.compacted built
  exact {
    reads := at_spec ▸ reads
    stored := ⟨chain.durable, Nat.le_of_eq at_durable.symm, at_store ▸ stored, by rw [at_durable]⟩
    view := ⟨view, holds, current view fresh read⟩
    head := by simp [bufferedHead, empty, at_durable]
    above := fun pending => absurd empty pending
    inRange := by simp [empty] }

omit [LawfulEnvelopeLibraries] in
/-- A sink opened on snapshots of a history has been fed it up to where the directory ends. -/
theorem openStore_compacting {spec : BlobSpec} {clocks : Clocks} {store : σ} {durable : Nat}
    (reads : reader.ReadsSnapshots spec) (starts : history 0 = [])
    (stored : Snapshots reader.format reader.keyring history (objects store) durable) :
    wp (openStore spec clocks) (fun sink _ => Compacting reader history durable sink)
      (fun _ store' => Snapshotted reader history store') store := by
  simp only [openStore, wp_bind]
  refine wp_mono (LawfulBlobStore.list_spec store) ?_ (fun _ _ same => ⟨durable, same ▸ stored⟩)
  rintro names store₁ ⟨listed, same₁⟩
  rw [reads.compacted, reads.format, stored.validateChain_eq listed]
  simp only [wp_ofExcept]
  cases newest : (objects store).getLast? with
  | none =>
    -- Without an object nothing was written below the end, which is where the log starts.
    have unwritten : history durable = [] := by rw [stored.durable_eq_zero newest, starts]
    simp only [Option.map_none, wp_bind, wp_pure, wp_get, wp_ofExcept]
    split
    · rename_i sink built
      refine compacting_of_new reads (same₁ ▸ stored) (fun view fresh _ => ?_) built
      rw [fresh rfl, unwritten]
      exact View.holds_nil
    · exact ⟨durable, same₁ ▸ stored⟩
  | some object =>
    obtain ⟨view, holds, decodes⟩ := stored.latest newest
    simp only [Option.map_some, wp_bind, wp_map, wp_get, wp_ofExcept]
    refine wp_mono (LawfulBlobStore.get_spec object.1 store₁) ?_
      (fun _ store₂ same₂ => ⟨durable, (same₂.trans same₁) ▸ stored⟩)
    rintro bytes store₂ ⟨found, same₂⟩
    have content : bytes = object.2 := by
      rw [same₁, lookup_of_mem stored.names_nodup (List.mem_of_getLast? newest)] at found
      exact (Option.some.inj found).symm
    split
    · rename_i sink built
      refine compacting_of_new reads ((same₂.trans same₁) ▸ stored) (fun current _ read => ?_) built
      -- The snapshot decodes with the keys of this setting, so to what the directory holds.
      have mine := read object.1 bytes rfl rfl
      obtain ⟨records, decoded⟩ := decodeBlob_of_decodeView mine
      have same := decodeBlob_reader reads decoded
      rw [content, decodes] at same
      cases same
      obtain ⟨readBack, decodedView, shown⟩ := decodeView_of_decodeBlob holds decoded
      rw [mine] at decodedView
      cases decodedView
      exact shown
    · exact ⟨durable, (same₂.trans same₁) ▸ stored⟩

end BlobSink

end MirrorV3
