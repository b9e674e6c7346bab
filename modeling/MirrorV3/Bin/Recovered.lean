import MirrorV3.Bin.Recovery
import MirrorV3.Restore.BackedUp

/-! A topic that was mirrored to a directory and restored from it is the source again. -/

namespace MirrorV3

open Effect Results

/-- The copy of a record in a topic: key, value, headers and timestamp are the source's. -/
def FutureRecord.copyOf (topic : String) (partition : Int32) (record : Record) : FutureRecord :=
  { FutureRecord.to topic with
    partition := some partition
    key := record.key
    payload := record.value
    timestamp := record.timestampMs
    headers := if record.headers = [] then none else some record.headers }

section Reading

variable {σ : Type} [EnvelopeLibraries] [BlobStore σ] [BlobHistory σ] [LawfulBlobStore σ]
  [ByteDigest] {reader : Reader} {start : Nat} {objects : List BackupObject} {o : BackupObject}
  {s : σ}

omit [BlobStore σ] [BlobHistory σ] [LawfulBlobStore σ] in
/-- The objects of a backup are what a verify pass sums up. -/
theorem Backup.verified (backup : Backup reader start objects) :
    Verified reader (objects.map (·.object)) (objects.map (·.summary)) (backupRecords objects) := by
  induction backup with
  | nil => exact .nil
  | cons written rest ih => exact .cons written.reads ih

/-- Whatever a store fails to answer, an object that it does answer with is the one it holds. -/
theorem readObjectWithDigest_held (there : Readable reader s o) :
    wp (reader.readObjectWithDigest o.object)
      (fun read s' => read = (o.records, ByteDigest.digest o.bytes)
        ∧ BlobHistory.objects s' = BlobHistory.objects s)
      (fun _ s' => BlobHistory.objects s' = BlobHistory.objects s) s := by
  obtain ⟨⟨_, written⟩, stored⟩ := there
  simp only [Reader.readObjectWithDigest, wp_bind, wp_get, wp_focus, id, wp_ofExcept, wp_pure]
  apply wp_mono (LawfulBlobStore.get_spec o.object.name s)
  · rintro bytes s' ⟨found, same⟩
    -- The store answers with the bytes that were written, and these read as the records.
    obtain rfl : o.bytes = bytes := Option.some.inj (stored.symm.trans found)
    rw [Reader.checkBytes_location written.reads]
    exact ⟨rfl, same⟩
  · intro _ _ same
    exact same

/-- Objects that are there are summed up one after the other. -/
theorem readSummaries_held (there : ∀ o ∈ objects, Readable reader s o) :
    wp (reader.readSummaries (objects.map (·.object)))
      (fun summaries s' => summaries = objects.map (·.summary)
        ∧ BlobHistory.objects s' = BlobHistory.objects s)
      (fun _ s' => BlobHistory.objects s' = BlobHistory.objects s) s := by
  induction objects generalizing s with
  | nil => exact ⟨rfl, rfl⟩
  | cons o objects ih =>
    simp only [List.map_cons, Reader.readSummaries, wp_bind, wp_pure]
    apply wp_mono (readObjectWithDigest_held (there o List.mem_cons_self))
    · rintro _ s' ⟨rfl, same⟩
      -- Reading one object leaves the others where they are.
      apply wp_mono (ih fun o mem => (there o (List.mem_cons_of_mem _ mem)).congr same)
      · rintro _ s'' ⟨rfl, same'⟩
        exact ⟨rfl, same'.trans same⟩
      · intro _ _ same'
        exact same'.trans same
    · intro _ _ same
      exact same

/-- A verify pass that succeeds has read the backup that is there. -/
theorem verify_held (backup : Backup reader start objects)
    (held : BlobHistory.objects s = objects.map (·.blob)) :
    wp (reader.verify (objects.map (·.object)))
      (fun summary s' => summary.objects = objects.map (·.summary)
        ∧ summary.records = (backupRecords objects).length
        ∧ BlobHistory.objects s' = BlobHistory.objects s)
      (fun _ s' => BlobHistory.objects s' = BlobHistory.objects s) s := by
  rw [Reader.verify]
  split
  · -- A chain that reads well is summed up object by object.
    simp only [wp_bind, wp_pure]
    apply wp_mono (readSummaries_held (backup.readable held))
    · rintro _ s' ⟨rfl, same⟩
      exact ⟨rfl, backup.verified.records_eq, same⟩
    · intro _ _ same
      exact same
  · exact rfl

end Reading

/-- A partition that holds a backup is the list of its records' copies. -/
theorem Restored.stored_eq {β : Type} [PartitionHistory β] [QueueHistory β] {mode : OffsetMode}
    {records : List Record} {opened target : RestoreProducer β}
    (restored : Restored opened mode records target) :
    stored target.broker = records.map (FutureRecord.copyOf opened.topic opened.partition) := by
  -- Place by place: each record is at its own, and no other place is taken.
  apply List.ext_getElem?
  intro place
  by_cases below : place < records.length
  · obtain ⟨record, here, there, -⟩ := restored.placed place below
    rw [there, List.getElem?_map, here]
    rfl
  · rw [List.getElem?_eq_none (by rw [restored.whole]; omega),
      List.getElem?_eq_none (by rw [List.length_map]; omega)]

section Sending

variable {σ β : Type} [EnvelopeLibraries] [ByteDigest] [LawfulByteDigest] [BlobStore σ]
  [QueueingBroker β] [PartitionHistory β] [QueueHistory β] [LawfulQueueingBroker β]
  {reader : Reader} {mode : OffsetMode} {chain : List ChainObject} {summary : BackupSummary}
  {records : List Record} {opened : RestoreProducer β} {s : Restoring σ (RestoreProducer β)}

/-- Up to the wait for the records in flight, every record was sent, or as many as are counted. -/
theorem untilDrain_spec (read : Verified reader chain summary.objects records)
    (idle : s.target.inFlight = []) :
    wp (Restoring.untilDrain reader chain summary mode)
      (fun outcome s' => match outcome with
        | .ok () => Sent s.target mode records s'
        | .error _ => Stopped s.target s')
      (fun _ s' => queued s'.target.broker = queued s.target.broker) s := by
  simp only [Restoring.untilDrain, wp_bind, wp_ofExcept, wp_ensure, wp_focus, wp_modify, wp_attempt,
    Restoring.targetPart]
  cases mode.check summary with
  | error e => exact trivial
  | ok _ =>
    dsimp only
    rw [if_pos read.length_eq]
    apply wp_mono (asked_spec s.target)
    · rintro high target ⟨broker, here, grew, -⟩
      -- A target that is not empty is refused before anything is sent.
      by_cases empty : high = 0
      · rw [if_pos empty]
        have start : Sent s.target mode [] (⟨s.store, target, 0⟩ : Restoring σ _) := by
          subst here
          exact sent_nil s.store rfl idle grew.1
        exact wp_mono (sendAll_spec read start) (fun _ _ sent => sent) (fun _ _ stopped => stopped)
      · rw [if_neg empty, here]
        exact grew.1
    · intro _ _ same
      exact same

omit [ByteDigest] [LawfulByteDigest] [BlobStore σ] in
/-- From there on a restore succeeds only with every record at its place. -/
theorem fromDrain_spec (counted : summary.records = records.length)
    {outcome : Except RestoreError Unit}
    (ends : match outcome with
      | .ok () => Sent opened mode records s
      | .error _ => Stopped opened s) :
    wp (Restoring.fromDrain summary outcome)
      (fun report s' => Restored opened mode records s'.target
        ∧ report = ⟨records.length, records.length⟩)
      (fun e s' => (∃ message, e = .produce message)
        ∨ queued s'.target.broker = queued opened.broker) s := by
  cases outcome with
  | ok done =>
    have sent : Sent opened mode records s := ends
    obtain ⟨acked, sending⟩ := sent.target
    simp only [Restoring.fromDrain, wp_bind, wp_focus, wp_get, wp_ensure, wp_pure,
      Restoring.targetPart]
    -- Every record was acknowledged, and the partition is asked for its length once more.
    apply wp_mono (finish_spec sending)
    · intro _ target landed
      apply wp_mono (asked_spec target)
      · rintro high target' ⟨broker, here, grew, length⟩
        subst here
        dsimp only
        split
        · rename_i full
          -- The partition is as long as the backup, so nothing else is in it.
          have next := sent.next
          have whole : (stored broker).length = records.length := by omega
          refine ⟨landed.restored sent.kept grew whole, ?_⟩
          rw [next, full.1, next]
        · exact .inl ⟨_, rfl⟩
      · intro _ _ _
        exact .inl ⟨_, rfl⟩
    · intro _ _ _
      exact .inl ⟨_, rfl⟩
  | error e =>
    obtain ⟨sent, count, queue⟩ : Stopped opened s := ends
    simp only [Restoring.fromDrain, wp_bind, wp_get, wp_ite, wp_throw]
    -- A failure says that it produced as soon as one record was counted.
    by_cases none_ : s.next = 0
    · rw [if_pos none_]
      obtain rfl : sent = [] := List.eq_nil_of_length_eq_zero (by omega)
      exact .inr (by simpa using queue.queue)
    · rw [if_neg none_]
      apply wp_mono (drained_spec s)
      · intro _ _ _
        exact .inl ⟨_, rfl⟩
      · intro _ _ never
        exact never.elim

end Sending

namespace MirrorBackup

variable {σ β N : Type} [Config.ConfigLibraries] [EnvelopeLibraries] [LawfulEnvelopeLibraries]
  [ByteDigest] [LawfulByteDigest] [BlobStore σ] [BlobHistory σ] [LawfulBlobStore σ]
  [DescribingBroker β] [PartitionHistory β] [QueueHistory β] [LawfulDescribingBroker β]
  [Notifier N] {backup : MirrorBackup} {keyring : Option Keyring}
  {records : List Record} {chain : List ChainObject} {summary : BackupSummary}
  {s : Recovery σ β}

/-- What a restore leaves behind when it succeeds. -/
def Recovered (backup : MirrorBackup) (records : List Record) (before after : β) :
    Option RestoreTopic → Option RestoreReport → Prop
  | none, report => report = none ∧ queued after = queued before
  | some target, report =>
    report = some ⟨records.length, records.length⟩
      ∧ stored after = records.map (FutureRecord.copyOf target.topic backup.source.partition)
      ∧ (backup.mode = .preserve →
        ∀ place (record : Record), records[place]? = some record → record.sourceOffset = place)

omit [LawfulEnvelopeLibraries] [BlobHistory σ] [LawfulBlobStore σ] in
/-- Producing what was verified succeeds only with the target a copy of it. -/
theorem produced_spec (read : Verified (backup.reader keyring) chain summary.objects records)
    (counted : summary.records = records.length) (target : RestoreTopic) :
    wp (backup.produced keyring target chain summary)
      (fun report s' => backup.Recovered records s.broker s'.broker (some target) (some report))
      (fun e s' => (∃ context message, e = .restoring context (.produce message))
        ∨ queued s'.broker = queued s.broker) s := by
  simp only [produced, wp_bind, wp_focus, Recovery.brokerPart, Recovery.restoringPart]
  apply wp_mono (RestoreProducer.open_spec _ _ _ _ _ _ s.broker)
  · rintro opened broker ⟨here, topic, partition, idle, grew⟩
    -- The producer is opened over the broker that it asked.
    have same : ({ opened with broker } : RestoreProducer β) = opened := by rw [← here]
    simp only [Restoring.produce, wp_bind, same]
    apply wp_mono (untilDrain_spec (s := ⟨s.store, opened, 0⟩) read idle)
    · intro outcome between ends
      apply wp_mono (fromDrain_spec counted ends)
      · rintro report s' ⟨restored, reported⟩
        refine ⟨congrArg some reported, ?_, fun preserve place record at_ => ?_⟩
        · rw [← topic, ← partition]
          exact restored.stored_eq
        · -- A record was sent to its place, which is its offset when offsets are preserved.
          have below : place < records.length := (List.getElem?_eq_some_iff.mp at_).1
          obtain ⟨record', at', -, own⟩ := restored.placed place below
          rw [Option.some.inj (at_.symm.trans at')]
          exact own preserve
      · rintro e s' (⟨message, rfl⟩ | unsent)
        · exact .inl ⟨_, message, rfl⟩
        · exact .inr (unsent.trans (by rw [here]; exact grew.1))
    · intro e s' unsent
      exact .inr (unsent.trans (by rw [here]; exact grew.1))
  · intro e broker grew
    exact .inr grew.1

/--
A topic that was mirrored to a directory and restored from it is the source again.

Whatever lifetimes have left the directory behind, and whatever fails on the way: a restore that
succeeds leaves a copy of the source's records up to where the backup ends, in order and nothing
else, at their own offsets if these were to be preserved; and one that fails without saying that it
produced has sent nothing.
-/
theorem recovers_source (location : String) {log : Log}
    (reached : Reached N (backup.reader keyring).archive log s.store)
    (ours : ∀ r ∈ log.records, r.topic = backup.source.topic ∧ r.partition = backup.source.partition)
    (fromStart : backup.chainStart = 0) :
    ∃ durable, (∀ names : List String, names.Perm ((objects s.store).map (·.1)) →
        ∃ mirrored, validateChain names backup.format none = .ok mirrored
          ∧ mirrored.durable = durable)
      ∧ ∀ target, wp (backup.run location keyring target)
          (fun report s' =>
            backup.Recovered (log.records.filter (·.sourceOffset < durable)) s.broker s'.broker
              target report)
          (fun e s' => (∃ context message, e = .restoring context (.produce message))
            ∨ queued s'.broker = queued s.broker) s := by
  -- The lifetimes leave an archive, whose objects are a backup of what they hold.
  obtain ⟨durable, archive⟩ := archived_of_reached reached
  obtain ⟨written, backed, held, ends, records⟩ := archive.exists_backup ours
  have below : log.between 0 durable = log.records.filter (·.sourceOffset < durable) := by
    simp [Log.between, Window.between]
  rw [below] at records
  have named : (objects s.store).map (·.1) = written.map (·.object.name) := by
    rw [← held, List.map_map]
    rfl
  refine ⟨durable, fun names listed => ⟨_, archive.validateChain_eq listed, rfl⟩, fun target => ?_⟩
  simp only [run, verified, wp_bind, wp_focus, wp_ofExcept, Recovery.storePart]
  apply wp_mono (LawfulBlobStore.list_spec s.store)
  · rintro names store ⟨listed, same⟩
    by_cases empty : written = []
    · -- Of a directory that holds nothing no chain is planned.
      rw [named, empty] at listed
      obtain rfl := listed.eq_nil
      exact .inr trivial
    · -- Only the listing decides on the plan, whatever its order.
      have planned : planChain names backup.format 0 keyring = .ok (written.map (·.object)) :=
        backed.planChain_perm empty (named ▸ listed)
      rw [fromStart, planned]
      dsimp only [Except.mapError]
      apply wp_mono (verify_held backed (same.trans held.symm))
      · rintro summary store' ⟨summed, counted, -⟩
        cases backup.mode.check summary with
        | error e => exact .inr trivial
        | ok passed =>
          dsimp only [Except.mapError]
          cases target with
          | none => exact ⟨rfl, rfl⟩
          | some target =>
            -- What is produced is what was verified, and that is the archive.
            have read := backed.verified
            rw [← summed, records] at read
            rw [records] at counted
            simp only [wp_bind, wp_pure]
            exact produced_spec read counted target
      · intro _ _ _
        exact .inr trivial
  · intro _ _ _
    exact .inr trivial

end MirrorBackup

namespace Sample

open FlushSample

/-- The backup that a crash cut short, whose records are to keep their offsets. -/
def cutShort : MirrorBackup := ⟨toDirectory, .ndjson, 0, .preserve, reader.source⟩

/-- The directory of that backup, and an empty topic whose broker answers every request. -/
def recovery : Recovery ObjectStore QueueingPartition :=
  ⟨crashed, ⟨[], [], Stream'.const ⟨[], none, none⟩⟩⟩

/-- The first record had landed before the crash, and is the whole topic after the restore. -/
theorem recovers_source_crashed : ∃ report s',
    cutShort.run "" none (some ⟨"broker:9092", "copy"⟩) recovery = .ok report s'
      ∧ stored s'.broker = [FutureRecord.copyOf "copy" 0 (record 0)] := by
  have reads : (⟨.ndjson, none⟩ : ArchiveReader).Reads spec :=
    ⟨rfl, rfl, fun _ setting => by cases setting⟩
  have start : Reached NoOpNotifier ⟨.ndjson, none⟩ log (directory []) := .fresh rfl
  have reached : Reached NoOpNotifier (cutShort.reader none).archive log recovery.store :=
    .lifetime start ⟨life, reads, rfl⟩ List.nil_prefix (List.take_prefix _ _)
  have returned : (value? (cutShort.run "" none (some ⟨"broker:9092", "copy"⟩) recovery)).isSome
      = true := by decide +kernel
  have ends : (validateChain ((objects crashed).map (·.1)) .ndjson none).toOption.map (·.durable)
      = some 1 := by decide +kernel
  obtain ⟨durable, named, recovers⟩ :=
    MirrorBackup.recovers_source "" reached (by decide) rfl
  obtain ⟨chain, valid, rfl⟩ := named _ (.refl _)
  have one : chain.durable = 1 := by
    rw [show validateChain ((objects crashed).map (·.1)) .ndjson none = .ok chain from valid] at ends
    exact Option.some.inj ends
  obtain ⟨report, known⟩ := Option.isSome_iff_exists.mp returned
  have run := eq_ok_of_value? known
  obtain ⟨-, copied, -⟩ := wp_of_ok (recovers (some ⟨"broker:9092", "copy"⟩)) run
  refine ⟨report, _, run, copied.trans ?_⟩
  rw [one]
  rfl

end Sample

end MirrorV3
