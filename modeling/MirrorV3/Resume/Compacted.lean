import Mathlib.Logic.Equiv.Basic
import MirrorV3.Fs.Compacting
import MirrorV3.Fs.Lifetimes

/-! Resuming a compacted destination from a log that the broker compacted in the meantime. -/

namespace MirrorV3

open Effect

/-- What a broker that compacts by key may leave of a log: of each key at least the last value. -/
def Log.Compacts (full left : Log) : Prop :=
  Keyed.Compaction Record.key Record.value full.records left.records

/-- The records of a log at a position or above. -/
def Log.onward (log : Log) (position : Nat) : List Record := log.between position (2 ^ 63)

/--
Whether the broker removed a deletion that a resuming destination still needs.

The deletion is the last record of its key and stood at the position or above it.
Without it the key ends with a value: below the position in the full log, or above in what is left.
-/
def Log.HidesDeletion (full left : Log) (position : Nat) : Prop :=
  ∃ key deletion, Keyed.latest Record.utf8Key key full.records = some deletion
    ∧ deletion.value = none ∧ position ≤ deletion.sourceOffset ∧ deletion ∉ left.records
    ∧ lastRecord (full.between 0 position ++ left.onward position) key ≠ none

section Logs

variable {full left : Log} {position : Nat} {key : String} {record : Record}

/-- A log is what is below a position and what is there or above. -/
theorem Log.between_onward (log : Log) (position : Nat) (inRange : position ≤ 2 ^ 63) :
    log.between 0 position ++ log.onward position = log.records := by
  have whole : log.between 0 (2 ^ 63) = log.records := by
    rw [Log.between, Window.between, List.filter_eq_self]
    intro r mem
    simpa using log.numbered r mem
  rw [Log.onward, ← whole]
  exact Window.between_append log.increasing (Nat.zero_le _) inRange

/-- Where nothing is left to read at a position, reading there was reading onward. -/
theorem Log.onward_of_next {log : Log} {start position : Nat} (ended : log.next position = none) :
    log.between start position = log.onward start := by
  refine List.filter_congr fun r mem => decide_eq_decide.mpr ?_
  have below : r.sourceOffset < position := by simpa using List.find?_eq_none.mp ended r mem
  have numbered := log.numbered r mem
  show start ≤ r.sourceOffset ∧ r.sourceOffset < position
    ↔ start ≤ r.sourceOffset ∧ r.sourceOffset < 2 ^ 63
  omega

/-- No record occurs twice in a log. -/
theorem Log.nodup (log : Log) : log.records.Nodup :=
  log.increasing.imp fun below same => by
    rw [same] at below
    exact Nat.lt_irrefl _ below

/-- Records of one text key are those of one key, byte by byte. -/
theorem utf8Key_iff {bytes : Bytes} (payload : record.key = some bytes)
    (named : record.utf8Key = some key) (other : Record) :
    other.utf8Key = some key ↔ other.key = some bytes := by
  have text : decodeUtf8 bytes = some key := by simpa [Record.utf8Key, payload] using named
  constructor
  · intro named'
    obtain ⟨bytes', payload', text'⟩ := Option.bind_eq_some_iff.mp named'
    rw [payload', ← toUTF8_of_decodeUtf8 text', ← toUTF8_of_decodeUtf8 text]
  · intro payload'
    simp [Record.utf8Key, payload', text]

/-- The last record of a text key is the last one of its key, byte by byte. -/
theorem latest_key {records : List Record}
    (last : Keyed.latest Record.utf8Key key records = some record) :
    ∃ bytes, Keyed.latest Record.key bytes records = some record := by
  have named := (Keyed.of_latest last).2
  obtain ⟨bytes, payload, -⟩ := Option.bind_eq_some_iff.mp named
  refine ⟨bytes, ?_⟩
  rw [← last, Keyed.latest, Keyed.latest]
  congr 1
  exact List.filter_congr fun other _ => decide_eq_decide.mpr (utf8Key_iff payload named other).symm

/-- The last record of a key is at a position or above when it is the last one read onward. -/
theorem latest_onward_iff (inRange : position ≤ 2 ^ 63) :
    Keyed.latest Record.utf8Key key (full.onward position) = some record ↔
      Keyed.latest Record.utf8Key key full.records = some record
        ∧ position ≤ record.sourceOffset := by
  have split := full.between_onward position inRange
  constructor
  · intro last
    refine ⟨?_, (Log.mem_between.mp (Keyed.of_latest last).1).2.1⟩
    rw [← split, Keyed.latest_append, last]
    rfl
  · rintro ⟨last, above⟩
    rw [← split, Keyed.latest_append] at last
    cases later : Keyed.latest Record.utf8Key key (full.onward position) with
    | some other =>
      rw [later] at last
      exact last
    | none =>
      -- Otherwise the last record would be below the position.
      rw [later, Option.none_or] at last
      have below := (Log.mem_between.mp (Keyed.of_latest last).1).2.2
      omega

/-- Compaction of a log compacts what is at a position or above. -/
theorem Log.Compacts.onward (compacts : full.Compacts left) (inRange : position ≤ 2 ^ 63) :
    Keyed.Compaction Record.utf8Key Record.kept (full.onward position) (left.onward position) where
  sublist := compacts.sublist.filter _
  lasts key record last written := by
    obtain ⟨whole, above⟩ := (latest_onward_iff inRange).mp last
    obtain ⟨bytes, whole⟩ := latest_key whole
    have valued : record.value ≠ none := by
      intro null
      simp [Record.kept, null] at written
    have stays := compacts.lasts bytes record whole valued
    exact Log.mem_between.mpr ⟨stays, above, left.numbered record stays⟩

/--
Reading on in the compacted log gives what the full log gives unless a needed deletion is gone.

This is the general fact about compaction, for the records above a position.
-/
theorem Log.Compacts.resumed_iff (compacts : full.Compacts left) (inRange : position ≤ 2 ^ 63) :
    (∀ key, lastRecord (full.between 0 position ++ left.onward position) key
        = lastRecord full.records key)
      ↔ ¬ full.HidesDeletion left position := by
  have cleaned := compacts.onward inRange
  have distinct : (full.onward position).Nodup := full.nodup.filter _
  rw [← full.between_onward position inRange]
  constructor
  · rintro same ⟨key, deletion, last, null, above, removed, remains⟩
    refine remains ((cleaned.held_append_iff distinct _).mp (same key) deletion ?_
      (by simp [Record.kept, null]) ?_)
    · exact (latest_onward_iff inRange).mpr ⟨last, above⟩
    · exact fun mem => removed (Log.mem_between.mp mem).1
  · intro nothing key
    refine (cleaned.held_append_iff distinct _).mpr fun deletion last gone removed => ?_
    obtain ⟨last, above⟩ := (latest_onward_iff inRange).mp last
    have null : deletion.value = none := by
      by_contra valued
      simp [Record.kept, valued] at gone
    by_contra remains
    refine nothing ⟨key, deletion, last, null, above, fun mem => ?_, remains⟩
    exact removed (Log.mem_between.mpr ⟨mem, above, left.numbered deletion mem⟩)

end Logs

section Histories

/-- How the records of a log add to a history from `base` on, when those below `low` are gone. -/
structure Continues (history : Nat → List Record) (log : Log) (low base : Nat) : Prop where
  starts : history 0 = []
  numbered : Numbered history
  grows : ∀ expected record, base ≤ expected → log.next expected = some record →
    history (record.sourceOffset + 1) = history expected ++ [record]
  trimmed : ∀ start, base ≤ start → start < low → history low = history start

/-- A log continues its own history. -/
theorem Continues.fromStart {log : Log} {low : Nat}
    (retained : ∀ r ∈ log.records, low ≤ r.sourceOffset) :
    Continues (log.between 0) log low 0 where
  starts := Window.between_self
  numbered _ r mem := log.numbered r (Log.mem_between.mp mem).1
  grows expected _ _ found := (Log.between_snoc (Nat.zero_le expected) found).symm
  trimmed start _ below := by
    have nothing : ∀ position ≤ low, log.between 0 position = [] := fun position atMost =>
      Window.between_eq_nil fun r mem bounds => by
        have := retained r mem
        omega
    rw [nothing low (Nat.le_refl low), nothing start (Nat.le_of_lt below)]

/-- What was written of a full log up to a position, and onward of what compaction left of it. -/
def compactedHistory (full left : Log) (base position : Nat) : List Record :=
  if position ≤ base then full.between 0 position
  else full.between 0 base ++ left.between base position

/-- From the base on, the history of a compacted log is what it adds to the full one. -/
theorem compactedHistory_of_le {full left : Log} {base position : Nat} (above : base ≤ position) :
    compactedHistory full left base position
      = full.between 0 base ++ left.between base position := by
  unfold compactedHistory
  split
  · obtain rfl : position = base := by omega
    rw [Log.between, Log.between, Window.between_self, List.append_nil]
  · rfl

/-- What compaction left of a log continues the history of the full log. -/
theorem Continues.compacted {full left : Log} {low : Nat} (base : Nat)
    (retained : ∀ r ∈ left.records, low ≤ r.sourceOffset) :
    Continues (compactedHistory full left base) left low base where
  starts := by simp [compactedHistory, Log.between]
  numbered position r mem := by
    unfold compactedHistory at mem
    split at mem
    · exact full.numbered r (Log.mem_between.mp mem).1
    · rcases List.mem_append.mp mem with before | after
      · exact full.numbered r (Log.mem_between.mp before).1
      · exact left.numbered r (Log.mem_between.mp after).1
  grows expected record above found := by
    have next := (Log.of_next found).2
    rw [compactedHistory_of_le above, compactedHistory_of_le (by omega), List.append_assoc,
      Log.between_snoc above found]
  trimmed start above below := by
    have nothing : ∀ position ≤ low, left.between base position = [] := fun position atMost =>
      Window.between_eq_nil fun r mem bounds => by
        have := retained r mem
        omega
    rw [compactedHistory_of_le above, compactedHistory_of_le (by omega),
      nothing low (Nat.le_refl low), nothing start (Nat.le_of_lt below)]

end Histories

section Runs

variable [EnvelopeLibraries] {σ N : Type} [BlobStore σ] [Notifier N]

/-- The mirror a lifetime runs, on a log whose records below `lowWatermark` are no longer there. -/
def Lifetime.mirror (life : Lifetime N) (log : Log) (lowWatermark : Nat) (sink : BlobSink σ) :
    Mirror LogSource (BlobSink σ) N :=
  ⟨⟨log, 0, lowWatermark, life.answers⟩, sink, life.notifier⟩

/-- The startup of a lifetime and everything it serves. -/
def Lifetime.serves (life : Lifetime N) : Program Halt (Mirror LogSource (BlobSink σ) N) Progress :=
  Mirror.bootstrap >>= Mirror.serve life.steps

/-- The directory as a lifetime on a trimmed log leaves it. -/
def Lifetime.runTrimmed (life : Lifetime N) (log : Log) (lowWatermark : Nat) (store : σ) : σ :=
  match BlobSink.openStore life.spec life.clocks store with
  | .error _ store => store
  | .ok sink _ => (after life.serves (life.mirror log lowWatermark sink)).sink.store

variable [BlobHistory σ]

/-- Directories that lifetimes of a log-compaction mirror of a log leave, from an empty one on. -/
def CompactedTo (N : Type) [Notifier N] (reader : ArchiveReader) (log : Log) : σ → Prop :=
  History.Reached objects (fun fresh => objects fresh = [])
    (fun before last => ∃ (life : Lifetime N) (low : Nat), reader.ReadsSnapshots life.spec
      ∧ (∀ r ∈ log.records, low ≤ r.sourceOffset) ∧ last = life.runTrimmed log low before)

/-- The view that the newest object of a directory is read as. -/
def latestView (format : Format) (encryption : Option BlobEncryption) (store : σ) :
    Except BlobError View := do
  let chain ← validateChain ((objects store).map (·.1)) format (some .log)
  match chain.latest with
  | none => return {}
  | some name =>
    match (objects store).lookup name with
    | none => .error (.store name)
    | some bytes => decodeView name name bytes format encryption

/--
A destination that holds the last value of every key of a log and of no deleted key.

It does so in memory, and when nothing waits to be flushed in its newest object as well.
-/
def HoldsLatest (encryption : Option BlobEncryption) (full : Log) (s : BlobSink σ) : Prop :=
  (∃ view, s.view = some view ∧ view.Holds full.records)
    ∧ (s.buffer = [] → ∃ view, latestView s.spec.format encryption s.store = .ok view
      ∧ view.Holds full.records)

variable [LawfulBlobStore σ] [LawfulEnvelopeLibraries] {reader : ArchiveReader}
  {history : Nat → List Record} {log : Log} {low base expected : Nat}

/-- A mirror that feeds its compacted destination what a log adds to a history. -/
structure Feeding (reader : ArchiveReader) (history : Nat → List Record) (log : Log)
    (low base expected : Nat) (m : Mirror LogSource (BlobSink σ) N) : Prop where
  fed : m.source.log = log
  position : m.source.position = expected
  beyond : base ≤ expected
  sink : Compacting reader history expected m.sink

/-- What a mirror leaves when it ends: snapshots of the history. -/
def LeavesSnapshots (reader : ArchiveReader) (history : Nat → List Record)
    (m : Mirror LogSource (BlobSink σ) N) : Prop :=
  Snapshotted reader history m.sink.store

/-- One poll feeds the destination the next record, or finds it where it should be. -/
theorem poll_feeding {m : Mirror LogSource (BlobSink σ) N}
    (continues : Continues history log low base)
    (holds : Feeding reader history log low base expected m) :
    wp (Mirror.poll expected) (fun expected m' => Feeding reader history log low base expected m')
      (fun _ m' => LeavesSnapshots reader history m') m := by
  simp only [Mirror.poll, Mirror.onSource, wp_bind, wp_focus]
  refine wp_mono (LogSource.pollOne_spec m.source) ?_ (fun _ _ _ => holds.sink.snapshotted)
  rintro polled source ⟨same, moved⟩
  have upkept := @BlobSink.compacting_upkept _ σ _ _ _ _ reader history expected
    continues.numbered
  cases polled with
  | none =>
    simp only [Mirror.verifyIdle, Mirror.onSink, wp_bind, wp_focus, wp_ensure, wp_pure]
    refine wp_mono (upkept.nextExpectedOffset listsOnly_sameObjects holds.sink) ?_
      (fun _ _ failed => failed)
    rintro head sink ⟨kept, at_head⟩
    rw [if_pos (at_head.trans kept.head)]
    exact ⟨same.1.trans holds.fed, moved.trans holds.position, holds.beyond, kept⟩
  | some record =>
    obtain ⟨found, after⟩ := moved
    rw [holds.fed, holds.position] at found
    obtain ⟨mem, above⟩ := Log.of_next found
    have beyond := holds.beyond
    simp only [Mirror.deliver, Mirror.onSink, Mirror.onNotifier, wp_bind, wp_get, wp_focus,
      wp_ensure, wp_pure]
    -- A blob destination takes any record from the expected offset on, across holes.
    rw [if_pos above, if_pos (.inr rfl)]
    refine wp_mono (BlobSink.write_compacting continues.numbered holds.sink above
      (log.numbered record mem) (continues.grows expected record beyond found))
      (fun _ sink kept => ?_) (fun _ _ failed => failed)
    split
    · -- Whatever the observer does, the destination has taken the record.
      exact wp_any (fun _ _ => ⟨same.1.trans holds.fed, after, by omega, kept⟩)
        (fun _ _ => kept.snapshotted)
    · exact kept.snapshotted

/-- However long the steps go on, the destination is fed what the log has. -/
theorem serve_feeding (steps : List Step) {m : Mirror LogSource (BlobSink σ) N}
    (continues : Continues history log low base)
    (holds : Feeding reader history log low base expected m) :
    wp (Mirror.serve steps expected)
      (fun _ m' => ∃ expected, Feeding reader history log low base expected m')
      (fun _ m' => LeavesSnapshots reader history m') m := by
  have flushes : ∀ expected (m : Mirror LogSource (BlobSink σ) N),
      Feeding reader history log low base expected m →
        wp (Mirror.onSink Sink.flush)
          (fun _ m' => Feeding reader history log low base expected m')
          (fun _ m' => LeavesSnapshots reader history m') m := by
    intro expected m kept
    simp only [Mirror.onSink, wp_focus]
    exact wp_mono ((BlobSink.compacting_upkept continues.numbered).flushNow kept.sink)
      (fun _ _ taken => ⟨kept.fed, kept.position, kept.beyond, taken⟩)
      (fun _ _ failed => failed)
  have served := @Mirror.serve_rule LogSource (BlobSink σ) N _ _ _
    (Feeding reader history log low base)
    (fun m' => ∃ expected, Feeding reader history log low base expected m')
    (fun _ m' => LeavesSnapshots reader history m')
    (fun _ _ kept => poll_feeding continues kept) (fun _ _ kept => kept)
    (fun expected m kept => ?_) flushes steps expected m holds
  · refine wp_mono served (fun progress m' kept => ?_) (fun _ _ failed => failed)
    cases progress with
    | running expected => exact ⟨expected, kept⟩
    | finished => exact kept
  · -- A graceful stop flushes, and the observer it drains has no part in the destination.
    rw [Mirror.stop, wp_bind]
    refine wp_mono (flushes expected m kept) (fun _ m' fed => ?_) (fun _ _ failed => failed)
    simp only [Mirror.onNotifier, wp_focus]
    exact wp_any (fun _ _ => ⟨expected, fed.fed, fed.position, fed.beyond, fed.sink⟩)
      (fun _ _ => fed.sink.snapshotted)

omit [Notifier N] in
/-- A mirror resumes where its destination stands, or at the low watermark if that is above. -/
theorem bootstrap_feeding {m : Mirror LogSource (BlobSink σ) N}
    (continues : Continues history log low base) (fed : m.source.log = log)
    (trimmed : m.source.lowWatermark = low) (taken : Compacting reader history base m.sink) :
    wp Mirror.bootstrap (fun expected m' => Feeding reader history log low base expected m')
      (fun _ m' => LeavesSnapshots reader history m') m := by
  simp only [Mirror.bootstrap, Mirror.onSink, Mirror.onSource, wp_bind, wp_focus]
  refine wp_mono ((BlobSink.compacting_upkept continues.numbered).nextExpectedOffset
    listsOnly_sameObjects taken) ?_ (fun _ _ failed => failed)
  rintro start sink ⟨taken, at_start⟩
  refine wp_mono (LogSource.lowWatermark_spec m.source) ?_ (fun _ _ _ => taken.snapshotted)
  rintro lowest source ⟨same, at_low⟩
  refine wp_mono (LogSource.highWatermark_spec source) (fun high source' same' => ?_)
    (fun _ _ _ => taken.snapshotted)
  have here : start = base := at_start.trans taken.head
  rw [trimmed] at at_low
  subst here at_low
  -- A blob destination has no part further on than the position it answered.
  have furthest : (Sink.furthestNextOffset : Program SinkError (BlobSink σ) _) = pure none := rfl
  have seeks : ∀ expected (sink : BlobSink σ), Compacting reader history expected sink →
      start ≤ expected →
      wp (Source.seek expected : Program SourceError LogSource _)
        (fun _ source'' => Feeding reader history log lowest start expected
          (⟨source'', sink, m.notifier⟩ : Mirror LogSource (BlobSink σ) N))
        (fun _ source'' => LeavesSnapshots reader history
          (⟨source'', sink, m.notifier⟩ : Mirror LogSource (BlobSink σ) N)) source' := by
    intro expected sink taken beyond
    refine wp_mono (LogSource.seek_spec expected source') ?_ (fun _ _ _ => taken.snapshotted)
    rintro _ source'' ⟨same'', moved⟩
    exact ⟨same''.1.trans (same'.1.trans (same.1.trans fed)), moved, beyond, taken⟩
  simp only [furthest, wp_pure, wp_ensure, wp_get]
  split
  · split
    · rename_i below
      have allows : Sink.allowsCompactedSource sink = true :=
        decide_eq_true taken.reads.compacted
      simp only [Mirror.sinkPart, Mirror.sourcePart, allows, if_true, wp_bind, wp_focus, wp_pure]
      refine wp_mono (BlobSink.align_compacting taken
        (continues.trimmed start (Nat.le_refl start) below)) (fun _ sink' aligned => ?_)
        (fun _ _ failed => failed)
      exact seeks lowest sink' aligned (Nat.le_of_lt below)
    · simp only [wp_bind, wp_focus, wp_pure]
      exact seeks start sink taken (Nat.le_refl start)
  · exact taken.snapshotted

/-- A lifetime that starts on snapshots of a history leaves snapshots of it. -/
theorem runTrimmed_snapshotted (life : Lifetime N) (reads : reader.ReadsSnapshots life.spec)
    {store : σ} {durable : Nat} (continues : Continues history log low durable)
    (stored : Snapshots reader.format reader.keyring history (objects store) durable) :
    Snapshotted reader history (life.runTrimmed log low store) := by
  have opens := @BlobSink.openStore_compacting _ σ _ _ _ _ _ life.spec life.clocks store durable
    reads continues.starts stored
  cases outcome : BlobSink.openStore life.spec life.clocks store with
  | error e store' =>
    have left := wp_of_error opens outcome
    simpa only [Lifetime.runTrimmed, outcome] using left
  | ok sink store' =>
    have taken := wp_of_ok opens outcome
    simp only [Lifetime.runTrimmed, outcome]
    refine after_of_wp (LeavesSnapshots reader history) ?_
    rw [Lifetime.serves, wp_bind]
    refine wp_mono (bootstrap_feeding (N := N) continues rfl rfl taken)
      (fun expected m fed => ?_) (fun _ _ failed => failed)
    exact wp_mono (serve_feeding life.steps continues fed)
      (fun _ _ ⟨_, fed⟩ => fed.sink.snapshotted) (fun _ _ failed => failed)

/-- Every directory that lifetimes on a log leave behind holds snapshots of the log. -/
theorem snapshotted_of_compactedTo {store : σ} (reached : CompactedTo N reader log store) :
    Snapshotted reader (log.between 0) store := by
  refine History.Reached.rule
    (fun objects => ∃ durable, Snapshots reader.format reader.keyring (log.between 0) objects durable)
    (fun store fresh => ⟨0, fresh ▸ .empty⟩) ?_ (fun shown whole part ⟨durable, stored⟩ => ?_)
    reached
  · rintro before last ⟨durable, stored⟩ ⟨life, low, reads, retained, rfl⟩
    have continues := Continues.fromStart retained
    exact runTrimmed_snapshotted life reads
      { continues with
        grows := fun expected record _ => continues.grows expected record (Nat.zero_le _)
        trimmed := fun start _ => continues.trimmed start (Nat.zero_le _) } stored
  · -- Cut anywhere, a directory of snapshots is one of its first objects.
    rw [List.prefix_iff_eq_take.mp part]
    exact stored.take _

omit [BlobStore σ] [LawfulBlobStore σ] [LawfulEnvelopeLibraries] in
/-- A destination with nothing to flush has its view in the newest object too. -/
theorem latestView_of_compacting {s : BlobSink σ} {encryption : Option BlobEncryption}
    (starts : history 0 = []) (holds : Compacting reader history expected s)
    (keys : encryption.map (·.keyring) = reader.keyring) (flushed : s.buffer = []) :
    ∃ view, latestView s.spec.format encryption s.store = .ok view
      ∧ view.Holds (history expected) := by
  obtain ⟨durable, -, stored, same⟩ := holds.stored
  have here : s.durablePosition = expected := by
    rw [← holds.head]
    simp [BlobSink.bufferedHead, flushed]
  rw [← here, ← same, holds.reads.format]
  simp only [latestView, stored.validateChain_eq (List.Perm.refl _), bind, Except.bind]
  cases newest : (objects s.store).getLast? with
  | none =>
    refine ⟨{}, rfl, ?_⟩
    rw [stored.durable_eq_zero newest, starts]
    exact View.holds_nil
  | some object =>
    obtain ⟨view, shown, decodes⟩ := stored.latest newest
    have decoded : decodeBlob object.1 object.1 object.2 reader.format
        (encryption.map (·.keyring)) = .ok view.values := keys ▸ decodes object.1
    simp only [Option.map_some, lookup_of_mem stored.names_nodup (List.mem_of_getLast? newest)]
    exact decodeView_of_decodeBlob shown decoded

/--
Records the broker compacted away are harmless to a resuming destination that needs none of them.

The destination stopped anywhere in its log, and its second run came to the end of what compaction
left.
It then holds the last value of every key of the full log, and of no deleted key, exactly when no
deletion from its durable position on was removed that hides a value it has or still reads.
-/
theorem compacted_resume_iff {full left : Log} {low : Nat} {store store' : σ}
    (reached : CompactedTo N reader full store) (compacts : full.Compacts left)
    (retained : ∀ r ∈ left.records, low ≤ r.sourceOffset) {names : List String}
    (listed : names.Perm ((objects store).map (·.1))) {life : Lifetime N}
    (reads : reader.ReadsSnapshots life.spec) {sink : BlobSink σ}
    (opened : BlobSink.openStore life.spec life.clocks store = .ok sink store')
    {progress : Progress} {m : Mirror LogSource (BlobSink σ) N}
    (ran : life.serves (life.mirror left low sink) = .ok progress m) (ended : m.source.AtEnd)
    {encryption : Option BlobEncryption} (keys : encryption.map (·.keyring) = reader.keyring) :
    ∃ chain, validateChain names reader.format (some .log) = .ok chain
      ∧ (HoldsLatest encryption full m.sink ↔ ¬ full.HidesDeletion left chain.durable) := by
  obtain ⟨durable, stored⟩ := snapshotted_of_compactedTo reached
  refine ⟨_, stored.validateChain_eq listed, ?_⟩
  have inRange := stored.durable_le
  have continues : Continues (compactedHistory full left durable) left low durable :=
    Continues.compacted durable retained
  have resumed : Snapshots reader.format reader.keyring (compactedHistory full left durable)
      (objects store) durable :=
    stored.congr fun position below => (if_pos below).symm
  have taken := wp_of_ok
    (BlobSink.openStore_compacting reads continues.starts resumed) opened
  have served : wp life.serves (fun _ m => ∃ expected,
      Feeding reader (compactedHistory full left durable) left low durable expected m)
      (fun _ _ => True) (life.mirror left low sink) := by
    rw [Lifetime.serves, wp_bind]
    refine wp_mono (bootstrap_feeding continues rfl rfl taken) (fun expected m fed => ?_)
      (fun _ _ _ => trivial)
    exact wp_mono (serve_feeding life.steps continues fed) (fun _ _ fed => fed)
      (fun _ _ _ => trivial)
  obtain ⟨expected, fed⟩ := wp_of_ok served ran
  have next : left.next expected = none := by
    rw [← fed.fed, ← fed.position]
    exact ended
  -- At the end of the compacted log, everything from the durable position on was read from it.
  have history : compactedHistory full left durable expected
      = full.between 0 durable ++ left.onward durable := by
    rw [compactedHistory_of_le fed.beyond, Log.onward_of_next next]
  have flushed := latestView_of_compacting continues.starts fed.sink keys
  obtain ⟨view, current, shown⟩ := fed.sink.view
  rw [history] at shown flushed
  rw [← compacts.resumed_iff inRange]
  constructor
  · rintro ⟨⟨other, current', latest⟩, -⟩ key
    obtain rfl : view = other := Option.some.inj (current.symm.trans current')
    exact (shown key).symm.trans (latest key)
  · intro same
    refine ⟨⟨view, current, fun key => (shown key).trans (same key)⟩, fun empty => ?_⟩
    obtain ⟨latest, read, shown⟩ := flushed empty
    exact ⟨latest, read, fun key => (shown key).trans (same key)⟩

end Runs

namespace KeyedSample

open Ndjson

/-- The document a written record of the key `k` is persisted as. -/
def document (offset : Int) : Json :=
  .obj [("topic", .str "t"), ("partition", .int 0), ("offset", .int offset),
    ("timestamp_type", .str "not_available"), ("key", .str "aw=="), ("value", .str "MA==")]

/-- The line such a record is written as. -/
def line (offset : Int) : Bytes :=
  Sample.ascii "\x7b\"topic\":\"t\",\"partition\":0,\"offset\":"
    ++ [UInt8.ofNat (48 + offset.toNat)]
    ++ Sample.ascii (",\"timestamp_type\":\"not_available\",\"key\":\"aw==\","
      ++ "\"value\":\"MA==\"\x7d")

/-- Write the document of such a record with a one-digit offset. -/
def toWriter : Json → Except String Bytes
  | .obj [("topic", .str "t"), ("partition", .int 0), ("offset", .int offset),
      ("timestamp_type", .str "not_available"), ("key", .str "aw=="), ("value", .str "MA==")] =>
    if 0 ≤ offset ∧ offset < 10 then .ok (line offset) else .error "not a sample"
  | _ => .error "not a sample"

/-- Read the line of such a record. -/
def fromSlice (bytes : Bytes) : Except String Json :=
  match (List.range 10).find? fun offset => bytes = line offset with
  | some offset => .ok (document offset)
  | none => .error "not a sample"

/-- The bytes that stand for a payload: those of its base64 text for the key and the value. -/
def coded : Bytes ≃ Bytes :=
  (Equiv.swap [107] (Sample.ascii "aw==")).trans (Equiv.swap [48] (Sample.ascii "MA=="))

/-- Libraries for records of the key `k` with the value `0`. -/
scoped instance libraries : EnvelopeLibraries where
  utf8Error _ := "invalid utf-8 sequence of 1 bytes from index 0"
  jsonError _ := none
  encode bytes := Sample.latin1 (coded bytes)
  decode text := .ok (coded.symm (Sample.ascii text))
  toWriter := toWriter
  fromSlice := fromSlice
  typeError _ expected := expected
  write _ _ _ := .error "not a sample"
  read _ _ := .error "not a sample"

/-- Such a line reads back as the document it was written from, and holds no line end. -/
theorem line_spec {offset : Int} (low : 0 ≤ offset) (high : offset < 10) :
    line offset ≠ [] ∧ newline ∉ line offset ∧ fromSlice (line offset) = .ok (document offset) := by
  obtain ⟨n, rfl⟩ := Int.eq_ofNat_of_zero_le low
  have shape : ∀ offset, line offset = _ ++ [UInt8.ofNat (48 + offset.toNat)] ++ _ := fun _ => rfl
  obtain ⟨filled, single, found⟩ := Sample.found_of_digit shape
    ⟨by decide +kernel, by decide +kernel⟩ (by omega : n < 10)
  exact ⟨filled, single, by rw [fromSlice, found]⟩

scoped instance : LawfulEnvelopeLibraries where
  decode_encode bytes := by
    show Except.ok (coded.symm (Sample.ascii (Sample.latin1 (coded bytes)))) = Except.ok bytes
    rw [Sample.ascii_latin1, Equiv.symm_apply_apply]
  round_trip persisted bytes _ written := by
    generalize persisted.toJson = json at written
    have writes : toWriter json = .ok bytes := written
    unfold toWriter at writes
    split at writes
    · split at writes
      · rename_i offset bounds
        cases writes
        exact line_spec bounds.1 bounds.2
      · cases writes
    · cases writes
  read_write _ _ _ _ written := by cases written

/-- A record of the key, written or deleted. -/
def update (offset : Nat) (value : Option Bytes) : Record :=
  { Sample.record offset with key := some [107], value := value }

/-- A key that is written, written again and then deleted. -/
def deleted : Log where
  records := [update 0 (some [48]), update 1 (some [48]), update 2 none]
  increasing := by simp [update, Sample.record]
  numbered := by simp [update, Sample.record]

/-- What is left of that log when only some offsets stay. -/
def keeping (offsets : List Nat) : Log where
  records := deleted.records.filter (·.sourceOffset ∈ offsets)
  increasing := deleted.increasing.sublist List.filter_sublist
  numbered r mem := deleted.numbered r (List.mem_filter.mp mem).1

/-- A lifetime of a compacted destination that polls a few times and writes object by object. -/
def polling (polls : Nat) : Lifetime NoOpNotifier :=
  { Sample.life with
    spec := { Sample.spec with compaction := some .log }
    steps := List.replicate polls (.event .poll) }

/-- The directory after one record of the log was mirrored. -/
def stopped : ObjectStore := (polling 1).runTrimmed deleted 0 (Sample.directory [])

/-- The destination as a later lifetime finds it there. -/
def found : BlobSink ObjectStore :=
  (value? (BlobSink.openStore (polling 3).spec (polling 3).clocks stopped)).getD
    (Sample.blobAt (some .log) 0)

/-- That lifetime's mirror at the end of what is left of the log. -/
def resumed (offsets : List Nat) : Mirror LogSource (BlobSink ObjectStore) NoOpNotifier :=
  after (polling 3).serves ((polling 3).mirror (keeping offsets) 0 found)

/-- The directory is one that a lifetime on the log leaves. -/
theorem stopped_reached : CompactedTo NoOpNotifier ⟨.ndjson, none⟩ deleted stopped :=
  .lifetime (.fresh (s := Sample.directory []) rfl)
    ⟨polling 1, 0, ⟨rfl, rfl, fun _ setting => by cases setting⟩, fun _ _ => Nat.zero_le _, rfl⟩
    List.nil_prefix (List.prefix_refl _)

/-- The last record of the key is a deletion, so a broker may keep any of them. -/
theorem keeping_compacts (offsets : List Nat) : deleted.Compacts (keeping offsets) where
  sublist := List.filter_sublist
  lasts key r last valued := by
    obtain ⟨mem, named⟩ := Keyed.of_latest last
    obtain rfl : key = [107] := by
      simp only [deleted, List.mem_cons, List.not_mem_nil, or_false] at mem
      rcases mem with rfl | rfl | rfl <;> exact (Option.some.inj named).symm
    have deletion : Keyed.latest Record.key [107] deleted.records = some (update 2 none) := by
      decide +kernel
    rw [deletion] at last
    cases last
    exact absurd rfl valued

/-- The later lifetime opens the directory. -/
theorem found_opened : BlobSink.openStore (polling 3).spec (polling 3).clocks stopped
    = .ok found (after (BlobSink.openStore (polling 3).spec (polling 3).clocks) stopped) := by
  have opened : (value? (BlobSink.openStore (polling 3).spec (polling 3).clocks stopped)).isSome := by
    decide +kernel
  refine eq_ok_of_value? ?_
  obtain ⟨sink, same⟩ := Option.isSome_iff_exists.mp opened
  rw [found, same]
  rfl

/-- With the deletion still in the log, losing the second value is harmless. -/
theorem compacted_resume_iff_sample : HoldsLatest none deleted (resumed [2]).sink := by
  obtain ⟨listed, ran, ended⟩ : ["00000000000000000000-00000000000000000000.ndjson"].Perm
      ((objects stopped).map (·.1))
      ∧ value? ((polling 3).serves ((polling 3).mirror (keeping [2]) 0 found)) = some (.running 3)
      ∧ (resumed [2]).source.AtEnd := by decide +kernel
  have keys : (none : Option BlobEncryption).map (·.keyring) = none := rfl
  obtain ⟨chain, -, holds⟩ := compacted_resume_iff stopped_reached (keeping_compacts [2])
    (fun _ _ => Nat.zero_le _) listed ⟨rfl, rfl, fun _ setting => by cases setting⟩ found_opened
    (eq_ok_of_value? ran) ended keys
  refine holds.mpr ?_
  -- The only record without a value is the one that stayed.
  rintro ⟨key, deletion, last, null, -, removed, -⟩
  have mem := (Keyed.of_latest last).1
  simp only [deleted, List.mem_cons, List.not_mem_nil, or_false] at mem
  rcases mem with rfl | rfl | rfl
  · cases null
  · cases null
  · exact removed (by decide +kernel)

/-- With the deletion gone as well, the key that was deleted is still there. -/
theorem compacted_resume_stale :
    CompactedTo NoOpNotifier ⟨.ndjson, none⟩ deleted stopped ∧ deleted.Compacts (keeping [])
      ∧ value? ((polling 3).serves ((polling 3).mirror (keeping []) 0 found)) = some (.running 1)
      ∧ (resumed []).source.AtEnd ∧ ¬ HoldsLatest none deleted (resumed []).sink := by
  obtain ⟨ran, ended, answers⟩ :
      value? ((polling 3).serves ((polling 3).mirror (keeping []) 0 found)) = some (.running 1)
      ∧ (resumed []).source.AtEnd
      ∧ ((resumed []).sink.view.bind fun view => view["k"]?).isSome := by decide +kernel
  refine ⟨stopped_reached, keeping_compacts [], ran, ended, ?_⟩
  rintro ⟨⟨view, current, holds⟩, -⟩
  rw [current, Option.bind_some, holds "k"] at answers
  exact absurd answers (by decide +kernel)

end KeyedSample

end MirrorV3
