import MirrorV3.Kafka.Produce
import MirrorV3.Restore.Seeking

/-! A follower that is stopped and opened again, over a backup that grows: what its target holds. -/

namespace MirrorV3

open Effect

/-- The consumer that reads a record of a target back. -/
class TargetReader (β : Type) where
  /-- The record at an offset of the partition. -/
  readRecordAt (topic : String) (partition : Int32) (offset : Nat) : Program String β Record

export TargetReader (readRecordAt)

/-- A target gives every record back as it was produced, or fails. -/
class LawfulTargetReader (β : Type) [TargetReader β] [PartitionHistory β] : Prop where
  readRecordAt_spec : ∀ topic partition offset (s : β),
    wp (readRecordAt topic partition offset : Program String β _)
      (fun last s' => stored s' = stored s
        ∧ ∃ produced, (stored s)[offset]? = some produced ∧ ChainSource.ReadBack produced last)
      (fun _ s' => stored s' = stored s) s

/-- Why a follower ends, or does not start. -/
inductive FollowHalt where
  | mirror (halt : Halt)
  | sink (error : SinkError)
  | reading (message : String)
  | restore (error : RestoreError)

/-- A backup, and the target that followers keep up with it. -/
structure Standby (β : Type) where
  backup : GrowingStore
  target : β

section Following

variable [EnvelopeLibraries] {β : Type} [Broker β] [TargetReader β]

/-- A follower: the backup as a source, and the target as its destination. -/
abbrev Follower (β : Type) := Mirror (ChainSource GrowingStore) (KafkaSink β) NoOpNotifier

/-- The target as a part of a follower. -/
def Follower.targetPart : Part (Follower β) β :=
  ⟨fun m => m.sink.broker, fun broker m => { m with sink := { m.sink with broker } }⟩

/-- How a target is written to: with the timestamps that the records have. -/
def KafkaSinkConfig.restoring (config : KafkaSinkConfig) : KafkaSinkConfig :=
  { config with timestampMode := .source }

/-- Open the backup as a source and the target as a destination. -/
def openBoth (cfg : ChainSourceConfig) (config : KafkaSinkConfig) (drops : Stream' Bool)
    (s : Standby β) : Except (Standby β) (Follower β) :=
  match (ChainSource.openChain cfg drops : Program RestoreError GrowingStore _) s.backup with
  | .error _ backup => .error { s with backup }
  | .ok source _ =>
    match KafkaSink.openSink config.restoring s.target with
    | .error _ target => .error ⟨source.store, target⟩
    | .ok sink _ => .ok ⟨source, sink, {}⟩

/-- Require a target that is not empty to end with the backup's record there. -/
def checkTarget : Program FollowHalt (Follower β) Nat := do
  let position ← focus Mirror.sinkPart .sink Sink.nextExpectedOffset
  if position = 0 then pure position
  else
    let m ← get
    let last ← focus Follower.targetPart .reading
      (readRecordAt m.sink.config.topic m.sink.config.partition (position - 1))
    focus Mirror.sourcePart .restore (ChainSource.checkResume position last)
    pure position

/-- Follow the backup from the target's high watermark on. -/
def follow (events : List LoopEvent) : Program FollowHalt (Follower β) Progress := do
  let _ ← checkTarget
  focus ⟨id, fun m _ => m⟩ .mirror (Mirror.runMirrorWithNotifier events)

/-- One opening of a follower: which polls are dropped, and what its loop wakes up for. -/
structure FollowLifetime where
  drops : Stream' Bool
  events : List LoopEvent

/-- What one opening leaves behind, however it ends. -/
def FollowLifetime.run (life : FollowLifetime) (cfg : ChainSourceConfig) (config : KafkaSinkConfig)
    (s : Standby β) : Standby β :=
  match openBoth cfg config life.drops s with
  | .error s' => s'
  | .ok m =>
    let m' := after (follow life.events) m
    ⟨m'.source.store, m'.sink.broker⟩

variable [PartitionHistory β]

/-- What followers leave behind, one after the other from an empty target, while the backup grows. -/
inductive FollowedTo (cfg : ChainSourceConfig) (config : KafkaSinkConfig)
    (backup : List BackupObject) : Standby β → Prop where
  | fresh {s : Standby β} (written : s.backup.written = backup.map (·.blob))
      (empty : stored s.target = []) : FollowedTo cfg config backup s
  | lifetime {s : Standby β} (earlier : FollowedTo cfg config backup s) (life : FollowLifetime) :
      FollowedTo cfg config backup (life.run cfg config s)
  /-- Nobody follows for a while, and objects are added. -/
  | meanwhile {s s' : Standby β} (earlier : FollowedTo cfg config backup s)
      (written : s'.backup.written = s.backup.written) (grown : s.backup.shown ≤ s'.backup.shown)
      (kept : stored s'.target = stored s.target) : FollowedTo cfg config backup s'

end Following

section Copies

variable [EnvelopeLibraries] {cfg : ChainSourceConfig} {config : KafkaSinkConfig}
  {backup : List BackupObject}

omit [EnvelopeLibraries] in
/-- Which offset a record had has no part in how it is produced. -/
theorem map_futureRecord_numbered (config : KafkaSinkConfig) (n : Nat) (records : List Record) :
    (numbered n records).map config.futureRecord = records.map config.futureRecord := by
  induction records generalizing n with
  | nil => rfl
  | cons r records ih =>
    rw [numbered, List.map_cons, List.map_cons, ih]
    rfl

omit [EnvelopeLibraries] in
/-- Numbered records are in increasing order. -/
theorem numbered_ordered (n : Nat) (records : List Record) :
    (numbered n records).Pairwise (·.sourceOffset < ·.sourceOffset)
      ∧ ∀ r ∈ numbered n records, n ≤ r.sourceOffset ∧ r.sourceOffset < n + records.length := by
  induction records generalizing n with
  | nil => exact ⟨.nil, nofun⟩
  | cons r records ih =>
    obtain ⟨ordered, range⟩ := ih (n + 1)
    refine ⟨.cons (fun later mem => (range later mem).1) ordered, fun later mem => ?_⟩
    rw [List.length_cons]
    rcases List.mem_cons.mp mem with rfl | mem
    · exact ⟨Nat.le_refl n, by show n < n + (records.length + 1); omega⟩
    · have := range later mem
      omega

/-- The records of a backup, numbered as a target numbers them. -/
def Backup.log (valid : Backup cfg.reader cfg.chainStart backup) : Log where
  records := numbered 0 (backupRecords backup)
  increasing := (numbered_ordered 0 _).1
  numbered := by
    intro r mem
    have := ((numbered_ordered 0 _).2 r mem).2
    have room : (backupRecords backup).length ≤ 2 ^ 63 := by
      cases valid with
      | nil => exact Nat.zero_le _
      | cons written rest =>
        have := written.lo
        have := written.range
        have := written.numbered
        exact Backup.length_lt (.cons written rest) (by omega)
    omega

/-- It has no hole. -/
theorem Backup.log_holeFree (valid : Backup cfg.reader cfg.chainStart backup) :
    valid.log.HoleFree := by
  intro i r here
  have here : (numbered 0 (backupRecords backup))[i]? = some r := here
  rw [getElem?_numbered] at here
  obtain ⟨r', -, rfl⟩ := Option.map_eq_some_iff.mp here
  exact Nat.zero_add i

variable {β : Type} [PartitionHistory β]

/-- A target that holds the first records of a backup, of objects that were there by then. -/
structure Copied (config : KafkaSinkConfig) (backup : List BackupObject) (s : Standby β) (n : Nat) :
    Prop where
  written : s.backup.written = backup.map (·.blob)
  shown : n ≤ recordsBefore backup s.backup.shown
  exact_ : stored s.target = ((backupRecords backup).take n).map config.futureRecord

/-- The parts of a follower that outlive it. -/
def Follower.standby (m : Follower β) : Standby β := ⟨m.source.store, m.sink.broker⟩

/-- Some first records are copied. -/
def CopiedSome (config : KafkaSinkConfig) (backup : List BackupObject) (m : Follower β) : Prop :=
  ∃ n, Copied config backup m.standby n

/-- A target holds the first records of a backup as it holds those of their log. -/
theorem Copied.of_produced (valid : Backup cfg.reader cfg.chainStart backup) {s : Standby β} {n : Nat}
    (written : s.backup.written = backup.map (·.blob)) (shown : n ≤ recordsBefore backup s.backup.shown)
    (produced : Produced config valid.log n (stored s.target)) : Copied config backup s n := by
  refine ⟨written, shown, ?_⟩
  rw [produced.exact, List.map_take]
  show ((numbered 0 (backupRecords backup)).map _).take n = _
  rw [map_futureRecord_numbered, List.map_take]

/-- And the other way around. -/
theorem Copied.produced (valid : Backup cfg.reader cfg.chainStart backup) {s : Standby β} {n : Nat}
    (copied : Copied config backup s n) : Produced config valid.log n (stored s.target) := by
  refine ⟨?_, ?_⟩
  · show n ≤ (numbered 0 (backupRecords backup)).length
    rw [length_numbered]
    exact Nat.le_trans copied.shown recordsBefore_le
  · rw [copied.exact_, List.map_take, List.map_take]
    show _ = ((numbered 0 (backupRecords backup)).map _).take n
    rw [map_futureRecord_numbered]

/-- What is left of a follower whose source is still one of the backup. -/
theorem CopiedSome.of_follows (valid : Backup cfg.reader cfg.chainStart backup) {m : Follower β}
    {n : Nat} (follows : ChainSource.Follows cfg backup m.source)
    (listed : n ≤ recordsBefore backup m.source.chain.length)
    (left : ∃ k ≤ n, Produced config valid.log k (stored m.sink.broker)) :
    CopiedSome config backup m := by
  -- What is listed is there.
  obtain ⟨k, fewer, produced⟩ := left
  have shown := @recordsBefore_mono backup _ _ follows.knows.shown
  exact ⟨k, .of_produced valid follows.knows.written
    (Nat.le_trans fewer (Nat.le_trans listed shown)) produced⟩

/-- A follower that may resume: its target holds records of objects it has listed. -/
structure Resumable (cfg : ChainSourceConfig) (config : KafkaSinkConfig)
    (valid : Backup cfg.reader cfg.chainStart backup) (n : Nat) (m : Follower β) : Prop where
  follows : ChainSource.Follows cfg backup m.source
  listed : n ≤ recordsBefore backup m.source.chain.length
  sink : Gated config valid.log n m.sink

/-- Its target holds some first records. -/
theorem Resumable.copiedSome {valid : Backup cfg.reader cfg.chainStart backup} {m : Follower β}
    {n : Nat} (resuming : Resumable cfg config valid n m) : CopiedSome config backup m :=
  .of_follows valid resuming.follows resuming.listed ⟨n, Nat.le_refl n, resuming.sink.produced⟩

/-- A follower that yields the record next that its target holds next. -/
structure Copying (cfg : ChainSourceConfig) (config : KafkaSinkConfig)
    (valid : Backup cfg.reader cfg.chainStart backup) (n : Nat) (m : Follower β) : Prop where
  placed : ChainSource.Placed cfg backup n m.source
  sink : Gated config valid.log n m.sink

/-- It may resume where it is. -/
theorem Copying.resuming {valid : Backup cfg.reader cfg.chainStart backup} {m : Follower β} {n : Nat}
    (copying : Copying cfg config valid n m) : Resumable cfg config valid n m := by
  -- What is buffered is listed as well.
  have within := copying.placed.within
  exact ⟨copying.placed.follows, by omega, copying.sink⟩

variable [Broker β] [LawfulBroker β]

/-- One poll copies the next record, or finds the target where it should be. -/
theorem poll_copying (restorable : ChainSource.Restorable cfg backup) {n : Nat} {m : Follower β}
    (copying : Copying cfg config restorable.valid n m) :
    wp (Mirror.poll n) (fun n' m' => Copying cfg config restorable.valid n' m')
      (fun _ m' => CopiedSome config backup m') m := by
  simp only [Mirror.poll, Mirror.onSource, wp_bind, wp_focus]
  refine wp_mono (ChainSource.pollOne_spec restorable copying.placed) ?_ ?_
  case refine_2 =>
    rintro e source ⟨_, placed, _⟩
    exact (Copying.mk (m := { m with source }) placed copying.sink).resuming.copiedSome
  rintro polled source ⟨yields, _⟩
  cases yields with
  | nothing _ same =>
    have idle : Copying cfg config restorable.valid n { m with source } := ⟨same, copying.sink⟩
    simp only [Mirror.verifyIdle, Mirror.onSink, wp_bind, wp_focus, wp_ensure, wp_pure]
    refine wp_mono (KafkaSink.fetchHighWatermark_gated copying.sink) ?_ ?_
    · rintro high sink ⟨kept, atHigh⟩
      rw [if_pos atHigh]
      exact ⟨same, kept⟩
    · rintro _ sink ⟨left, _⟩
      exact .of_follows restorable.valid same.follows idle.resuming.listed ⟨n, Nat.le_refl n, left⟩
  | @record r _ here placed =>
    -- The record is the expected one, so neither position check stops the run.
    have next : restorable.valid.log.records[n]? = some r := here
    have atPlace : r.sourceOffset = n := restorable.valid.log_holeFree n r next
    have inRange := restorable.valid.log.numbered r (List.mem_of_getElem? next)
    have within := placed.within
    simp only [Mirror.deliver, Mirror.onSink, Mirror.onNotifier, wp_bind, wp_get, wp_focus,
      wp_ensure, wp_pure]
    rw [if_pos (Nat.le_of_eq atPlace.symm), if_pos (.inl (Nat.le_of_eq atPlace))]
    refine wp_mono (KafkaSink.write_gated copying.sink next) (fun _ sink kept => ?_)
      (fun _ sink left => ?_)
    · rw [if_pos (by omega), atPlace]
      exact ⟨placed, kept⟩
    · have listed : n + 1 ≤ recordsBefore backup source.chain.length := by omega
      exact .of_follows restorable.valid placed.follows listed left

/-- Every event keeps the target a first part of the backup. -/
theorem loop_copying (restorable : ChainSource.Restorable cfg backup) (events : List LoopEvent) {n : Nat}
    {m : Follower β} (copying : Copying cfg config restorable.valid n m) :
    wp (Mirror.loop events n)
      (fun progress m' => CopiedSome config backup m' ∧ ∀ expected, progress = .running expected →
        Copying cfg config restorable.valid expected m')
      (fun _ m' => CopiedSome config backup m') m := by
  -- A poll that is dropped leaves the source at the same record.
  have drops : ∀ n (m : Follower β), Copying cfg config restorable.valid n m →
      Copying cfg config restorable.valid n (Mirror.abandonPoll m) := fun n m copying =>
    ⟨(ChainSource.abandonPoll_spec restorable copying.placed).1, copying.sink⟩
  have stops : ∀ n (m : Follower β), Copying cfg config restorable.valid n m →
      wp Mirror.stop (fun _ m' => CopiedSome config backup m')
        (fun _ m' => CopiedSome config backup m') m := fun n m copying =>
    copying.resuming.copiedSome
  refine wp_mono (Mirror.loop_rule (fun _ _ => poll_copying restorable) drops stops events n m
    copying) (fun progress m' left => ?_) (fun _ _ failed => failed)
  cases progress with
  | running expected =>
    refine ⟨left.resuming.copiedSome, ?_⟩
    intro n' same
    cases same
    exact left
  | finished => exact ⟨left, nofun⟩

/-- A startup resumes at the end of the target, wherever the source was. -/
theorem bootstrap_copying (restorable : ChainSource.Restorable cfg backup) {n : Nat} {m : Follower β}
    (resuming : Resumable cfg config restorable.valid n m) :
    wp Mirror.bootstrap
      (fun expected m' => expected = n ∧ Copying cfg config restorable.valid n m')
      (fun _ m' => CopiedSome config backup m') m := by
  have valid := restorable.valid
  simp only [Mirror.bootstrap, Mirror.onSink, Mirror.onSource, wp_bind, wp_focus]
  refine wp_mono (KafkaSink.fetchHighWatermark_gated resuming.sink) ?_ ?_
  case refine_2 =>
    rintro _ sink ⟨left, _⟩
    exact .of_follows valid resuming.follows resuming.listed ⟨n, Nat.le_refl n, left⟩
  rintro start sink ⟨kept, atStart⟩
  subst atStart
  -- A follower's source has no low watermark of its own, and its high one is where its chain ends.
  have low : (Source.lowWatermark : Program SourceError (ChainSource GrowingStore) _) = pure 0 := rfl
  have high : (Source.highWatermark : Program SourceError (ChainSource GrowingStore) _)
      = (do let _ ← ChainSource.asSource ChainSource.listNew; return (← get).positionsEnd) := rfl
  have furthest : (Sink.furthestNextOffset : Program SinkError (KafkaSink β) _) = pure none := rfl
  simp only [low, high, furthest, ChainSource.asSource, wp_bind, wp_focus, wp_pure, wp_get,
    wp_ensure, wp_ite, Option.getD_none]
  refine wp_mono (ChainSource.listNew_spec valid resuming.follows.knows) ?_ ?_
  case refine_2 =>
    rintro e source ⟨knows, learned, chain, _⟩
    exact .of_follows valid (resuming.follows.learned knows learned) (chain ▸ resuming.listed)
      ⟨_, Nat.le_refl _, kept.produced⟩
  rintro _ source ⟨knows, learned, _⟩
  have follows := resuming.follows.learned knows learned
  have listed := Nat.le_trans resuming.listed (@recordsBefore_mono backup _ _ learned.chain)
  have within := Nat.le_trans listed (ChainSource.recordsBefore_le_positionsEnd valid knows)
  rw [if_pos within, if_neg (Nat.not_lt_zero _)]
  refine wp_mono (ChainSource.seek_spec restorable follows start) ?_ ?_
  · rintro _ source' ⟨placed, _⟩
    exact ⟨trivial, placed, kept⟩
  · rintro e source' ⟨follows', onward, _⟩
    exact .of_follows valid follows'
      (Nat.le_trans listed (recordsBefore_mono onward.chain)) ⟨_, Nat.le_refl _, kept.produced⟩

/-- Opening both ends makes a follower that may resume, and copies nothing. -/
theorem openBoth_copied (restorable : ChainSource.Restorable cfg backup) {n : Nat} {s : Standby β}
    (copied : Copied config.restoring backup s n) (drops : Stream' Bool) :
    match openBoth cfg config drops s with
    | .ok m => Resumable cfg config.restoring restorable.valid n m
    | .error s' => Copied config.restoring backup s' n := by
  have valid := restorable.valid
  have opening := ChainSource.openChain_spec valid restorable.allowed copied.written drops
  have later : ∀ backup', GrowingStore.Later s.backup backup' → ∀ target : β,
      stored target = stored s.target → Copied config.restoring backup ⟨backup', target⟩ n :=
    fun backup' later target same => ⟨later.written.trans copied.written,
      Nat.le_trans copied.shown (recordsBefore_mono later.shown), same.trans copied.exact_⟩
  unfold openBoth
  cases opened : (ChainSource.openChain cfg drops : Program RestoreError GrowingStore _) s.backup with
  | error e backup' => exact later backup' (wp_of_error opening opened).2 s.target rfl
  | ok source _ =>
    obtain ⟨follows, length, grown⟩ := wp_of_ok opening opened
    have gated := KafkaSink.openSink_gated (copied.produced valid)
    cases connected : KafkaSink.openSink config.restoring s.target with
    | error e target =>
      have same : stored target = stored s.target := by
        have left := wp_of_error gated connected
        rw [left.exact, (copied.produced valid).exact]
      exact later source.store grown target same
    | ok sink _ =>
      -- Every object that the target has records of was there to be listed.
      have listed : recordsBefore backup s.backup.shown ≤ recordsBefore backup source.chain.length := by
        rw [length]
        rcases Nat.le_total source.store.shown backup.length with fewer | all
        · rw [Nat.min_eq_left fewer]
          exact recordsBefore_mono grown.shown
        · rw [Nat.min_eq_right all, recordsBefore_length]
          exact recordsBefore_le
      have kept := wp_of_ok gated connected
      exact ⟨follows, Nat.le_trans copied.shown listed, kept⟩

variable [TargetReader β] [LawfulTargetReader β]

/-- The target of a follower that may resume is the backup's, unless the backup is out of reach. -/
theorem checkTarget_copying (restorable : ChainSource.Restorable cfg backup)
    (stamped : config.timestampMode = .source) {n : Nat} {m : Follower β}
    (resuming : Resumable cfg config restorable.valid n m) :
    wp checkTarget (fun _ m' => Resumable cfg config restorable.valid n m')
      (fun halt m' => CopiedSome config backup m' ∧ ∀ reason, halt = .restore reason →
        ChainSource.Unreachable m.source reason) m := by
  have valid := restorable.valid
  have asked : (Sink.nextExpectedOffset : Program SinkError (KafkaSink β) _)
    = KafkaSink.fetchHighWatermark := rfl
  simp only [checkTarget, asked, wp_bind, wp_focus, wp_ite, wp_pure, wp_get]
  refine wp_mono (KafkaSink.fetchHighWatermark_gated resuming.sink)
    (fun position sink ⟨kept, atEnd⟩ => ?_) (fun _ sink ⟨left, _⟩ => ?_)
  case refine_2 =>
    exact ⟨.of_follows valid resuming.follows resuming.listed ⟨n, Nat.le_refl n, left⟩, nofun⟩
  subst atEnd
  split
  · exact ⟨resuming.follows, resuming.listed, kept⟩
  · rename_i some_
    refine wp_mono (LawfulTargetReader.readRecordAt_spec _ _ (position - 1) sink.broker)
      (fun last broker ⟨same, produced, atLast, back⟩ => ?_) (fun _ broker same => ?_)
    case refine_2 =>
      refine ⟨.of_follows valid resuming.follows resuming.listed ⟨position, Nat.le_refl _, ?_⟩, nofun⟩
      exact same ▸ kept.produced
    -- The record that is read back is the one that the backup has at that place.
    have ends : ∀ place r, position = place + 1 → (backupRecords backup)[place]? = some r →
        ChainSource.ReadBack (config.futureRecord { r with sourceOffset := place }) last := by
      intro place r size here
      subst size
      have whole := kept.produced.exact
      rw [Nat.add_sub_cancel, whole] at atLast
      have here' : (restorable.valid.log.records.take (place + 1))[place]?
          = some { r with sourceOffset := place } := by
        rw [List.getElem?_take_of_lt (Nat.lt_succ_self place)]
        show (numbered 0 (backupRecords backup))[place]? = _
        rw [getElem?_numbered, here, Nat.zero_add]
        rfl
      rw [List.getElem?_map, here'] at atLast
      cases atLast
      exact back
    refine wp_mono (ChainSource.checkResume_spec restorable resuming.follows.knows stamped
      resuming.listed ends) (fun _ source ⟨knows, learned⟩ => ?_)
      (fun reason source ⟨unreachable, knows, learned⟩ => ?_)
    · exact ⟨resuming.follows.learned knows learned,
        Nat.le_trans resuming.listed (recordsBefore_mono learned.chain), kept.settings,
        kept.noRetries, same ▸ kept.produced⟩
    · refine ⟨.of_follows valid (resuming.follows.learned knows learned)
        (Nat.le_trans resuming.listed (recordsBefore_mono learned.chain))
        ⟨position, Nat.le_refl _, same ▸ kept.produced⟩, ?_⟩
      intro reason' same'
      cases same'
      exact unreachable

/-- Following keeps the target a first part of the backup, however it ends. -/
theorem follow_copying (restorable : ChainSource.Restorable cfg backup)
    (stamped : config.timestampMode = .source) (events : List LoopEvent) {n : Nat} {m : Follower β}
    (resuming : Resumable cfg config restorable.valid n m) :
    wp (follow events)
      (fun progress m' => CopiedSome config backup m' ∧ ∀ expected, progress = .running expected →
        Copying cfg config restorable.valid expected m')
      (fun _ m' => CopiedSome config backup m') m := by
  simp only [follow, Mirror.runMirrorWithNotifier, wp_bind, wp_focus]
  refine wp_mono (checkTarget_copying restorable stamped resuming) (fun _ m₁ resuming₁ => ?_)
    (fun _ _ failed => failed.1)
  refine wp_mono (bootstrap_copying restorable resuming₁) ?_ (fun _ _ left => left)
  rintro expected m₂ ⟨same, copying⟩
  subst same
  exact loop_copying restorable events copying

/-- One opening leaves a first part of the backup in the target. -/
theorem run_copied (restorable : ChainSource.Restorable cfg backup) (life : FollowLifetime)
    {s : Standby β} (copied : ∃ n, Copied config.restoring backup s n) :
    ∃ n, Copied config.restoring backup (life.run cfg config s) n := by
  obtain ⟨n, copied⟩ := copied
  have opening := openBoth_copied restorable copied life.drops
  unfold FollowLifetime.run
  cases opened : openBoth cfg config life.drops s with
  | error s' =>
    rw [opened] at opening
    exact ⟨n, opening⟩
  | ok m =>
    rw [opened] at opening
    apply after_of_wp (CopiedSome config.restoring backup)
    exact wp_mono (follow_copying restorable rfl life.events opening) (fun _ _ kept => kept.1)
      (fun _ _ left => left)

/-- So do any number of them, while the backup grows. -/
theorem FollowedTo.copied (restorable : ChainSource.Restorable cfg backup) {s : Standby β}
    (reached : FollowedTo cfg config backup s) : ∃ n, Copied config.restoring backup s n := by
  induction reached with
  | fresh written empty => exact ⟨0, written, Nat.zero_le _, empty⟩
  | lifetime _ life ih => exact run_copied restorable life ih
  | meanwhile _ written grown kept ih =>
    obtain ⟨n, copied⟩ := ih
    exact ⟨n, written.trans copied.written, Nat.le_trans copied.shown (recordsBefore_mono grown),
      kept.trans copied.exact_⟩

/--
A follower keeps its target a first part of the backup, each record once and at its own place.

A target that is opened again is never refused as not the backup's, and a poll that finds nothing
finds the target to hold every record of every object that is listed.
-/
theorem follower_copies (restorable : ChainSource.Restorable cfg backup) {s : Standby β}
    (reached : FollowedTo cfg config backup s) :
    (∃ n ≤ (backupRecords backup).length,
        stored s.target = ((backupRecords backup).take n).map config.restoring.futureRecord)
      ∧ ∀ (drops : Stream' Bool) (m : Follower β), openBoth cfg config drops s = .ok m →
        (∀ reason, failure? checkTarget m = some (.restore reason) →
          (∃ message, reason = .store message) ∧ ¬ m.source.store.Quiet)
        ∧ ∀ events expected m', follow events m = .ok (.running expected) m' →
          stored m'.sink.broker
              = ((backupRecords backup).take expected).map config.restoring.futureRecord
            ∧ ∀ source, ChainSource.pollOne m'.source = .ok none source →
              stored m'.sink.broker = (backupRecords (backup.take source.chain.length)).map
                config.restoring.futureRecord := by
  obtain ⟨n, copied⟩ := reached.copied restorable
  refine ⟨⟨n, Nat.le_trans copied.shown recordsBefore_le, copied.exact_⟩, ?_⟩
  intro drops m opened
  have resuming := openBoth_copied restorable copied drops
  rw [opened] at resuming
  constructor
  · intro reason failed
    have checked := checkTarget_copying restorable rfl resuming
    cases outcome : checkTarget m with
    | ok position m' =>
      rw [failure?, outcome] at failed
      cases failed
    | error halt m' =>
      rw [failure?, outcome] at failed
      cases failed
      exact (wp_of_error checked outcome).2 reason rfl
  · intro events expected m' running
    have followed := wp_of_ok (follow_copying restorable rfl events resuming) running
    have copying := followed.2 expected rfl
    have whole : stored m'.sink.broker
        = ((backupRecords backup).take expected).map config.restoring.futureRecord :=
      (Copied.of_produced restorable.valid (s := m'.standby) copying.placed.follows.knows.written
        (Nat.le_trans copying.resuming.listed
          (recordsBefore_mono copying.placed.follows.knows.shown))
        copying.sink.produced).exact_
    refine ⟨whole, ?_⟩
    intro source polled
    obtain ⟨yields, _⟩ := wp_of_ok (ChainSource.pollOne_spec restorable copying.placed) polled
    cases yields with
    | nothing all same =>
      -- Nothing is left of what is listed, so the target has as many records as it.
      rw [whole, all, take_backupRecords]

end Copies

namespace Sample

/-- A produced record as a consumer of its partition reads it. -/
def consumed (offset : Nat) (produced : FutureRecord) : Record where
  topic := produced.topic
  partition := produced.partition.getD 0
  sourceOffset := offset
  timestampMs := produced.timestamp
  timestampType := .createTime
  key := produced.key
  value := produced.payload
  headers := produced.headers.getD []

instance : TargetReader Partition where
  readRecordAt _ _ offset := do
    let _ ← Partition.request
    match (← get).records[offset]? with
    | some produced => pure (consumed offset produced)
    | none => throw s!"no record at offset {offset}"

instance : LawfulTargetReader Partition where
  readRecordAt_spec topic partition offset s := by
    show wp (Partition.request >>= _) _ _ s
    simp only [wp_bind, wp_get]
    apply wp_mono (Partition.request_spec s)
    · intro _ s' same
      cases here : s'.records[offset]? with
      | none => exact same
      | some produced =>
        have there : (stored s)[offset]? = some produced := by
          show s.records[offset]? = _
          rw [← same, here]
        exact ⟨same, produced, there, rfl, rfl, rfl, fun _ time _ => time⟩
    · intro _ _ same
      exact same

/-- A standby of a backup of three records whose target's broker loses an acknowledgement. -/
def standby : Standby Partition := ⟨holding, partitionOf [] 4⟩

/-- A follower that polls, drops a poll and polls again. -/
def followed : FollowLifetime := ⟨Stream'.const true, [.poll, .heartbeat, .poll]⟩

/-- Two followers, one after the other, leave some first records of the backup, and each once. -/
theorem follower_copies_standby :
    ∃ n ≤ 3, stored (followed.run closingHoles kafka (followed.run closingHoles kafka standby)).target
      = ([record 3, record 5, record 6].take n).map kafka.restoring.futureRecord := by
  have start : FollowedTo closingHoles kafka withHole standby := .fresh rfl rfl
  exact (follower_copies withHole_restorable (.lifetime (.lifetime start followed) followed)).1

end Sample

end MirrorV3
