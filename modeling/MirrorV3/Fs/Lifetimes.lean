import MirrorV3.Lib.History
import MirrorV3.Core.RunLoop
import MirrorV3.Fs.Append
import MirrorV3.Envelope.Sample

/-! Process lifetimes of an append-mode mirror: each opens the directory and resumes from it. -/

namespace MirrorV3

open Effect

section Directories

variable [EnvelopeLibraries]

/-- What a process does next: serve an event of the loop, or flush when asked to. -/
inductive Step where
  | event (event : LoopEvent)
  | flush
  deriving Repr, DecidableEq

/-- One process lifetime: its settings, and everything its surroundings will answer it. -/
structure Lifetime (N : Type) where
  spec : BlobSpec
  clocks : Clocks
  answers : Stream' SourceAnswer
  notifier : N
  steps : List Step

section Run

omit [EnvelopeLibraries]

variable {S K N : Type} [Source S] [Sink K] [Notifier N]

/-- Serve the steps of a lifetime until it stops or they are used up. -/
def Mirror.serve : List Step → Nat → Program Halt (Mirror S K N) Progress
  | [], expected => pure (.running expected)
  | .flush :: steps, expected => do
    onSink Sink.flush
    serve steps expected
  | .event event :: steps, expected => do
    match ← loop [event] expected with
    | .running expected => serve steps expected
    | .finished => pure .finished

/--
What one step preserves, every lifetime preserves.

The steps of a lifetime are those of the loop, and the flushes in between.
-/
theorem Mirror.serve_rule {invariant : Nat → Mirror S K N → Prop} {stopped : Mirror S K N → Prop}
    {fail : Halt → Mirror S K N → Prop}
    (polls : ∀ expected m, invariant expected m → wp (poll expected) invariant fail m)
    (drops : ∀ expected m, invariant expected m → invariant expected (abandonPoll m))
    (stops : ∀ expected m, invariant expected m → wp stop (fun _ => stopped) fail m)
    (flushes : ∀ expected m, invariant expected m →
      wp (onSink Sink.flush) (fun _ => invariant expected) fail m) :
    ∀ steps expected m, invariant expected m →
      wp (serve steps expected)
        (fun progress m' =>
          match progress with
          | .running expected => invariant expected m'
          | .finished => stopped m')
        fail m := by
  intro steps
  induction steps with
  | nil => intro expected m holds; simpa only [serve, wp_pure] using holds
  | cons step steps ih =>
    intro expected m holds
    cases step with
    | flush =>
      simp only [serve, wp_bind]
      exact wp_mono (flushes expected m holds) (fun _ m' kept => ih expected m' kept)
        (fun _ _ failed => failed)
    | event event =>
      simp only [serve, wp_bind]
      refine wp_mono (loop_rule polls drops stops [event] expected m holds)
        (fun progress m' kept => ?_) (fun _ _ failed => failed)
      -- A graceful stop ends the lifetime, whatever steps were to follow.
      cases progress with
      | running expected => exact ih expected m' kept
      | finished => exact kept

end Run

variable {σ N : Type} [BlobStore σ] [Notifier N]

/-- The directory as a lifetime leaves it. -/
def Lifetime.run (life : Lifetime N) (log : Log) (store : σ) : σ :=
  match BlobSink.openStore life.spec life.clocks store with
  | .error _ store => store
  | .ok sink _ =>
    let mirror : Mirror LogSource (BlobSink σ) N :=
      ⟨⟨log, 0, 0, life.answers⟩, sink, life.notifier⟩
    (after (Mirror.bootstrap >>= Mirror.serve life.steps) mirror).sink.store

variable [BlobHistory σ]

/-- Directories that lifetimes of a mirror leave behind, one after the other from an empty one. -/
def Reached (N : Type) [Notifier N] (reader : ArchiveReader) (log : Log) : σ → Prop :=
  History.Reached objects (fun fresh => objects fresh = [])
    (fun before last => ∃ life : Lifetime N, reader.Reads life.spec ∧ last = life.run log before)

section Invariant

variable [LawfulBlobStore σ] [LawfulEnvelopeLibraries] {reader : ArchiveReader} {log : Log}
  {expected : Nat}

/-- A mirror that has taken a log up to `expected` and reads on from there. -/
structure Mirroring (reader : ArchiveReader) (log : Log) (expected : Nat)
    (m : Mirror LogSource (BlobSink σ) N) : Prop where
  fed : m.source.log = log
  position : m.source.position = expected
  untrimmed : m.source.lowWatermark = 0
  sink : Appending reader log expected m.sink

/-- What is left of a mirror that ended: its directory is an archive. -/
def Left (reader : ArchiveReader) (log : Log) (m : Mirror LogSource (BlobSink σ) N) : Prop :=
  Archived reader log m.sink.store

/-- One poll takes the next record of the log, or finds the destination where it should be. -/
theorem poll_mirroring {m : Mirror LogSource (BlobSink σ) N} (holds : Mirroring reader log expected m) :
    wp (Mirror.poll expected) (fun expected m' => Mirroring reader log expected m')
      (fun _ m' => Left reader log m') m := by
  simp only [Mirror.poll, Mirror.onSource, wp_bind, wp_focus]
  refine wp_mono (LogSource.pollOne_spec m.source) (fun polled source ⟨same, moved⟩ => ?_)
    (fun _ _ _ => holds.sink.archived)
  cases polled with
  | none =>
    simp only [Mirror.verifyIdle, Mirror.onSink, wp_bind, wp_focus, wp_ensure, wp_pure]
    refine wp_mono (BlobSink.nextExpectedOffset_appending holds.sink)
      (fun head sink ⟨kept, at_head⟩ => ?_) (fun _ _ failed => failed)
    rw [if_pos at_head]
    exact ⟨same.1.trans holds.fed, moved.trans holds.position, same.2.trans holds.untrimmed, kept⟩
  | some record =>
    obtain ⟨found, after⟩ := moved
    rw [holds.fed, holds.position] at found
    have above := (Log.of_next found).2
    simp only [Mirror.deliver, Mirror.onSink, Mirror.onNotifier, wp_bind, wp_get, wp_focus,
      wp_ensure, wp_pure]
    -- A blob destination takes any record from the expected offset on, across holes.
    rw [if_pos above, if_pos (.inr rfl)]
    refine wp_mono (BlobSink.write_appending holds.sink found) (fun _ sink kept => ?_)
      (fun _ _ failed => failed)
    split
    · -- Whatever the observer does, the destination has taken the record.
      exact wp_any (fun _ _ =>
        ⟨same.1.trans holds.fed, after, same.2.trans holds.untrimmed, kept⟩)
        (fun _ _ => kept.archived)
    · exact kept.archived

/-- However long the steps go on, the directory stays an archive. -/
theorem serve_left (steps : List Step) (expected : Nat) (m : Mirror LogSource (BlobSink σ) N)
    (holds : Mirroring reader log expected m) :
    wp (Mirror.serve steps expected) (fun _ m' => Left reader log m')
      (fun _ m' => Left reader log m') m := by
  have served := @Mirror.serve_rule LogSource (BlobSink σ) N _ _ _ (Mirroring reader log)
    (Left reader log) (fun _ m' => Left reader log m') (fun _ _ kept => poll_mirroring kept)
    (fun _ _ kept => kept) (fun _ m kept => ?_) (fun expected m kept => ?_) steps expected m holds
  · refine wp_mono served (fun progress m' kept => ?_) (fun _ _ failed => failed)
    cases progress with
    | running expected => exact kept.sink.archived
    | finished => exact kept
  · -- A graceful stop flushes, and then it no longer matters what the observer does.
    simp only [Mirror.stop, Mirror.onSink, Mirror.onNotifier, wp_bind, wp_focus]
    exact wp_mono (BlobSink.appending_upkept.flushNow kept.sink)
      (fun _ _ kept => wp_any (fun _ _ => kept.archived) (fun _ _ => kept.archived))
      (fun _ _ failed => failed)
  · simp only [Mirror.onSink, wp_focus]
    exact wp_mono (BlobSink.appending_upkept.flushNow kept.sink)
      (fun _ _ taken => ⟨kept.fed, kept.position, kept.untrimmed, taken⟩)
      (fun _ _ failed => failed)

omit [LawfulEnvelopeLibraries] in
/-- A sink opened on an archive has taken the log up to where the archive ends. -/
theorem openStore_appending {spec : BlobSpec} {clocks : Clocks} {store : σ}
    (reads : reader.Reads spec) (archived : Archived reader log store) :
    wp (BlobSink.openStore spec clocks)
      (fun sink _ => ∃ expected, Appending reader log expected sink)
      (fun _ store' => Archived reader log store') store := by
  obtain ⟨durable, archive⟩ := archived
  simp only [BlobSink.openStore, wp_bind]
  refine wp_mono (LawfulBlobStore.list_spec store) ?_ (fun _ _ same => ⟨durable, same ▸ archive⟩)
  rintro names store' ⟨listed, same⟩
  have archive' : Archive reader.format reader.keyring log (objects store') durable :=
    same ▸ archive
  rw [reads.append, reads.format, archive.validateChain_eq listed]
  simp only [wp_ofExcept, wp_bind, wp_pure, wp_get]
  cases built : BlobSink.new store' spec
      ⟨durable, none, tailOf ((objects store).map (entryOf reader.format ·.1))⟩ none clocks with
  | error e => exact ⟨durable, archive'⟩
  | ok sink =>
    obtain ⟨checked, view, rfl⟩ := BlobSink.eq_of_new built
    refine ⟨durable, ⟨reads, archive', Nat.le_refl _, ?_, ?_⟩⟩
    · rw [Log.between, Window.between_self]
    · simp [BlobSink.bufferedHead]

omit [Notifier N] in
/-- A mirror that starts on an untrimmed log resumes where its destination stands. -/
theorem bootstrap_mirroring {m : Mirror LogSource (BlobSink σ) N} (fed : m.source.log = log)
    (untrimmed : m.source.lowWatermark = 0) (taken : Appending reader log expected m.sink) :
    wp Mirror.bootstrap (fun expected m' => Mirroring reader log expected m')
      (fun _ m' => Left reader log m') m := by
  simp only [Mirror.bootstrap, Mirror.onSink, Mirror.onSource, wp_bind, wp_focus]
  refine wp_mono (BlobSink.nextExpectedOffset_appending taken)
    (fun start sink ⟨taken, at_start⟩ => ?_) (fun _ _ failed => failed)
  refine wp_mono (LogSource.lowWatermark_spec m.source) (fun low source ⟨same, at_low⟩ => ?_)
    (fun _ _ _ => taken.archived)
  refine wp_mono (LogSource.highWatermark_spec source) (fun high source' same' => ?_)
    (fun _ _ _ => taken.archived)
  rw [untrimmed] at at_low
  -- A blob destination has no part further on than the position it answered.
  have furthest : (Sink.furthestNextOffset : Program SinkError (BlobSink σ) _) = pure none := rfl
  simp only [furthest, wp_pure, wp_ensure, wp_get, at_low, Nat.not_lt_zero, if_false, wp_bind,
    wp_focus]
  split
  · refine wp_mono (LogSource.seek_spec start source') (fun _ source'' ⟨same'', moved⟩ => ?_)
      (fun _ _ _ => taken.archived)
    refine ⟨?_, moved, ?_, at_start ▸ taken⟩
    · exact same''.1.trans (same'.1.trans (same.1.trans fed))
    · exact same''.2.trans (same'.2.trans (same.2.trans untrimmed))
  · exact taken.archived

/-- A lifetime that starts on an archive of the log leaves an archive of the log. -/
theorem run_archived (life : Lifetime N) (reads : reader.Reads life.spec) {store : σ}
    (archived : Archived reader log store) : Archived reader log (life.run log store) := by
  cases outcome : BlobSink.openStore life.spec life.clocks store with
  | error e store' =>
    have left := wp_of_error (openStore_appending reads archived) outcome
    simpa only [Lifetime.run, outcome] using left
  | ok sink store' =>
    obtain ⟨expected, taken⟩ := wp_of_ok (openStore_appending reads archived) outcome
    have started : wp Mirror.bootstrap (fun expected m => Mirroring reader log expected m)
        (fun _ m => Left reader log m)
        (⟨⟨log, 0, 0, life.answers⟩, sink, life.notifier⟩ : Mirror LogSource (BlobSink σ) N) :=
      bootstrap_mirroring rfl rfl taken
    simp only [Lifetime.run, outcome]
    refine after_of_wp (Left reader log) ?_
    rw [wp_bind]
    exact wp_mono started (fun expected m kept => serve_left life.steps expected m kept)
      (fun _ _ failed => failed)

/-- Every directory that lifetimes leave behind is an archive of the log. -/
theorem archived_of_reached {store : σ} (reached : Reached N reader log store) :
    Archived reader log store := by
  have run : ∀ before last : σ, Archived reader log before →
      (∃ life : Lifetime N, reader.Reads life.spec ∧ last = life.run log before) →
        Archived reader log last := by
    rintro before last archived ⟨life, reads, rfl⟩
    exact run_archived life reads archived
  have starts : ∀ store : σ, objects store = [] → Archived reader log store :=
    fun store empty => ⟨0, empty ▸ .empty⟩
  refine History.Reached.rule
    (fun objects => ∃ durable, Archive reader.format reader.keyring log objects durable)
    starts run (fun shown whole part ⟨durable, archive⟩ => ?_)
    reached
  -- Cut anywhere, an archive is the archive of its first objects.
  rw [List.prefix_iff_eq_take.mp part]
  exact archive.take _

/--
An append-mode destination holds every record of its log exactly once, whatever happens to it.

At every moment of every history of lifetimes, and in whatever order the directory is listed, the
chain is valid, and read in its order the objects are the log up to the chain's end.
-/
theorem append_exactly_once {store : σ} (reached : Reached N reader log store)
    {names : List String} (listed : names.Perm ((objects store).map (·.1))) :
    ∃ chain entries, validateChain names reader.format none = .ok chain
      ∧ chainEntries names reader.format none = .ok entries
      ∧ readChain (objects store) entries reader.format reader.keyring
        = .ok (log.records.filter (·.sourceOffset < chain.durable)) := by
  obtain ⟨durable, archive⟩ := archived_of_reached reached
  refine ⟨_, _, archive.validateChain_eq listed, archive.chainEntries_eq listed, ?_⟩
  rw [archive.readChain_eq]
  simp [Log.between, Window.between]

end Invariant

end Directories

namespace Sample

/-- A log with a hole between its two records. -/
def log : Log where
  records := [record 0, record 2]
  increasing := by simp [record]
  numbered := by simp [record]

/-- A clear destination that writes an object for every record. -/
def spec : BlobSpec where
  format := .ndjson
  compression := .zstd1
  keys := .utf8
  values := .utf8
  compaction := none
  flush := ⟨1000, 1000, 1, none⟩
  encryption := none

/-- A lifetime that polls three times, with a broker and a store that answer every request. -/
def life : Lifetime NoOpNotifier where
  spec := spec
  clocks := ⟨fun _ => 0, fun _ => 0⟩
  answers _ := ⟨none, false, 3⟩
  notifier := {}
  steps := [.event .poll, .event .poll, .event .poll]

/-- A directory with the given objects, on a store that answers every request. -/
def directory (stored : List BlobObject) : ObjectStore := ⟨stored, fun _ => ⟨none, false⟩⟩

/-- The directory after a lifetime that was cut short when its first object had landed. -/
def crashed : ObjectStore := directory ((objects (life.run log (directory []))).take 1)

/-- A lifetime cut short and a second one leave every record of the log once. -/
theorem append_exactly_once_sample :
    ∃ chain entries,
      validateChain ["00000000000000000001-00000000000000000002.ndjson",
          "00000000000000000000-00000000000000000000.ndjson"] .ndjson none = .ok chain
        ∧ chainEntries ["00000000000000000001-00000000000000000002.ndjson",
          "00000000000000000000-00000000000000000000.ndjson"] .ndjson none = .ok entries
        ∧ readChain (objects (life.run log crashed)) entries .ndjson none
          = .ok (log.records.filter (·.sourceOffset < chain.durable)) := by
  have reads : (⟨.ndjson, none⟩ : ArchiveReader).Reads spec :=
    ⟨rfl, rfl, fun _ setting => by cases setting⟩
  have start : Reached NoOpNotifier ⟨.ndjson, none⟩ log (directory []) := .fresh rfl
  have first : Reached NoOpNotifier ⟨.ndjson, none⟩ log crashed :=
    .lifetime start ⟨life, reads, rfl⟩ (by decide +kernel) (by decide +kernel)
  have second : Reached NoOpNotifier ⟨.ndjson, none⟩ log (life.run log crashed) :=
    .lifetime first ⟨life, reads, rfl⟩ (by decide +kernel) (List.prefix_refl _)
  exact append_exactly_once second (by decide +kernel)

end Sample

end MirrorV3
