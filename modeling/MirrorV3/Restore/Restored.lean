import MirrorV3.Envelope.Sample
import MirrorV3.Fs.Store
import MirrorV3.Kafka.Delivery
import MirrorV3.Restore.Verified

/-! A restore that reports success has every record of the backup at its own place. -/

namespace MirrorV3

open Effect

section Target

variable {β : Type} [QueueingBroker β] [PartitionHistory β] [QueueHistory β]
  {opened s s' : RestoreProducer β} {sent : List Record} {acked : Nat}

/-- A target that was opened, and since then queued exactly these records. -/
structure Queued (opened : RestoreProducer β) (sent : List Record) (s : RestoreProducer β) :
    Prop where
  settings : s = { opened with broker := s.broker, inFlight := s.inFlight }
  queue : queued s.broker = queued opened.broker ++ sent.map opened.futureRecord

/-- Of the records that were queued the first ones landed, and the others are in flight. -/
structure Sending (opened : RestoreProducer β) (sent : List Record) (acked : Nat)
    (s : RestoreProducer β) : Prop extends Queued opened sent s where
  within : acked ≤ sent.length
  window : s.inFlight = (List.range' acked (sent.length - acked)).map fun place =>
    (place, (queued opened.broker).length + place)
  inRange : acked ≤ 2 ^ 63
  landed : ∀ place < acked, ∃ record, sent[place]? = some record
    ∧ (stored s.broker)[place]? = some (opened.futureRecord record)

omit [QueueingBroker β] in
/-- What happens at the broker alone changes nothing about what was queued. -/
theorem Queued.grew {broker : β} (queue : Queued opened sent s) (grew : OnlyGrew s.broker broker) :
    Queued opened sent { s with broker } := by
  constructor
  · rw [queue.settings]
  · rw [← queue.queue]
    exact grew.1

omit [QueueingBroker β] in
/-- Nor does it move a record that landed. -/
theorem Sending.grew {broker : β} (sending : Sending opened sent acked s)
    (grew : OnlyGrew s.broker broker) : Sending opened sent acked { s with broker } := by
  refine ⟨sending.toQueued.grew grew, sending.within, sending.window, sending.inRange, ?_⟩
  intro place below
  obtain ⟨record, here, landed⟩ := sending.landed place below
  exact ⟨record, here, getElem?_of_prefix grew.2 landed⟩

omit [QueueingBroker β] in
/-- The window holds the records that were sent and did not land yet. -/
theorem Sending.length_inFlight (sending : Sending opened sent acked s) :
    s.inFlight.length = sent.length - acked := by
  simp [sending.window]

/-- A signed offset that is a natural number below the sign bit is that number. -/
theorem eq_of_ofNat {offset place : Nat} {reported : Int64} (natural : reported.toInt = offset)
    (same : reported = Int64.ofNat place) (small : place ≤ 2 ^ 63) : offset = place := by
  subst same
  have width : (Int64.size : Int) = 18446744073709551616 := rfl
  rw [Int64.toInt_ofNat', Int.bmod_def, width] at natural
  split at natural <;> omega

variable [LawfulQueueingBroker β]

/-- The oldest record in flight landed where it was sent for, when its acknowledgement passes. -/
theorem ackOldest_spec (sending : Sending opened sent acked s) (more : acked < sent.length) :
    wp RestoreProducer.ackOldest (fun _ => Sending opened sent (acked + 1))
      (fun _ => Queued opened sent) s := by
  obtain ⟨count, short⟩ : ∃ count, sent.length - acked = count + 1 :=
    ⟨sent.length - acked - 1, by omega⟩
  have window := sending.window
  rw [short, List.range'_succ, List.map_cons] at window
  obtain ⟨record, here⟩ : ∃ record, sent[acked]? = some record :=
    ⟨_, List.getElem?_eq_getElem more⟩
  -- The ticket of the oldest record is its place in the queue.
  have ticketed : (queued s.broker)[(queued opened.broker).length + acked]?
      = some (opened.futureRecord record) := by
    rw [sending.queue, List.getElem?_append_right (by omega)]
    simp [here]
  simp only [RestoreProducer.ackOldest, wp_bind, wp_get, window, wp_set, wp_focus, wp_ensure,
    RestoreProducer.brokerPart]
  apply wp_mono (LawfulQueueingBroker.delivery_spec ((queued opened.broker).length + acked) s.broker)
  · rintro delivered broker ⟨grew, reported⟩
    have kept := sending.grew grew
    have rest : Queued opened sent
        { s with broker, inFlight := (List.range' (acked + 1) count).map fun place =>
          (place, (queued opened.broker).length + place) } :=
      ⟨by rw [sending.settings], kept.queue⟩
    split
    · rename_i placed
      have partition : s.partition = opened.partition := by rw [sending.settings]
      -- The report says where the record is stored, and the check says that this is its place.
      obtain ⟨offset, natural, landed⟩ := reported _ ticketed
        (by rw [placed.1, partition]; rfl)
      have place := eq_of_ofNat natural placed.2 sending.inRange
      subst place
      refine ⟨rest, more, ?_, ?_, ?_⟩
      · show List.map _ _ = List.map _ _
        rw [show sent.length - (offset + 1) = count by omega]
      · -- A place is an offset of the broker, which has a sign bit.
        have bound := Int64.toInt_lt delivered.offset
        omega
      · intro place below
        by_cases last : place = offset
        · rw [last]
          exact ⟨record, here, landed⟩
        · exact kept.landed place (by omega)
    · exact rest
  · intro _ broker grew
    have kept := sending.grew grew
    exact ⟨by rw [sending.settings], kept.queue⟩

/-- Making room in the window loses no record that landed. -/
theorem makeRoom_spec (sending : Sending opened sent acked s) :
    wp RestoreProducer.ackOldest (fun _ s' => ∃ acked', Sending opened sent acked' s')
      (fun _ => Queued opened sent) s := by
  by_cases more : acked < sent.length
  · apply wp_mono (ackOldest_spec sending more)
    · intro _ _ next
      exact ⟨acked + 1, next⟩
    · intro _ _ queue
      exact queue
  · -- A window that is full and empty has no oldest record.
    have none : s.inFlight = [] := List.eq_nil_of_length_eq_zero (by
      rw [sending.length_inFlight]
      omega)
    simp only [RestoreProducer.ackOldest, wp_bind, wp_get, none, wp_pure]
    exact ⟨acked, sending⟩

/-- When every acknowledgement passes, every record that was sent has landed. -/
theorem drain_spec {count : Nat} (sending : Sending opened sent acked s)
    (left : count = sent.length - acked) :
    wp (RestoreProducer.drain count) (fun _ => Sending opened sent sent.length)
      (fun _ => Queued opened sent) s := by
  induction count generalizing acked s with
  | zero =>
    -- Nothing is in flight, so the records that landed are all of them.
    have all : acked = sent.length := by
      have := sending.within
      omega
    rw [all] at sending
    exact sending
  | succ count ih =>
    simp only [RestoreProducer.drain, wp_bind]
    apply wp_mono (ackOldest_spec sending (by omega))
    · intro _ s' next
      exact ih next (by omega)
    · intro _ _ queue
      exact queue

/-- Waiting for the records in flight queues nothing, and succeeds when they all landed. -/
theorem finish_spec (sending : Sending opened sent acked s) :
    wp RestoreProducer.finish (fun _ => Sending opened sent sent.length)
      (fun _ => Queued opened sent) s := by
  simp only [RestoreProducer.finish, wp_bind, wp_get, wp_focus, RestoreProducer.brokerPart]
  apply wp_mono (drain_spec sending sending.length_inFlight)
  · intro _ s' landed
    apply wp_mono (LawfulQueueingBroker.flush_spec s'.broker)
    · intro _ broker grew
      exact landed.grew grew
    · intro _ broker grew
      exact landed.toQueued.grew grew
  · intro _ _ queue
    exact queue

omit [QueueingBroker β] [LawfulQueueingBroker β] in
/-- A record that was queued is the last of those in flight. -/
theorem Sending.push {record : Record} {broker : β} (sending : Sending opened sent acked s)
    (queue : queued broker = queued s.broker ++ [opened.futureRecord record])
    (grew : stored s.broker <+: stored broker) :
    Sending opened (sent ++ [record]) acked
      (RestoreProducer.push sent.length (queued s.broker).length { s with broker }) := by
  have within := sending.within
  refine ⟨⟨by rw [sending.settings]; rfl, ?_⟩, by simp; omega, ?_, sending.inRange, ?_⟩
  · show queued broker = _
    rw [queue, sending.queue]
    simp
  · show s.inFlight ++ _ = _
    -- One more place follows the ones that are in flight.
    have places : (sent ++ [record]).length - acked = sent.length - acked + 1 := by
      simp
      omega
    rw [places, List.range'_concat, List.map_append, sending.window, sending.queue]
    simp [show acked + (sent.length - acked) = sent.length by omega]
  · intro place below
    obtain ⟨other, here, landed⟩ := sending.landed place below
    refine ⟨other, ?_, getElem?_of_prefix grew landed⟩
    rw [List.getElem?_append_left (by omega)]
    exact here

/-- A record that the producer takes is queued after those that were sent before it. -/
theorem trySend_spec {record : Record} (sending : Sending opened sent acked s) :
    wp (RestoreProducer.trySend (opened.futureRecord record))
      (fun answer s' => match answer with
        | .ok ticket => Sending opened (sent ++ [record]) acked
            (RestoreProducer.push sent.length ticket s')
        | .error _ => Sending opened sent acked s') (fun _ _ => False) s := by
  simp only [RestoreProducer.trySend, wp_bind, wp_get, wp_focus, wp_attempt,
    RestoreProducer.brokerPart]
  apply wp_mono (LawfulQueueingBroker.sendResult_spec s.producer (opened.futureRecord record)
    s.broker)
  · rintro ticket broker ⟨ticketed, queue, grew⟩
    rw [ticketed]
    exact sending.push queue grew
  · intro _ broker grew
    exact sending.grew grew

/-- However often the queue is full, a record is queued once or not at all. -/
theorem enqueue_spec {record : Record} {count : Nat} (sending : Sending opened sent acked s)
    (left : count = sent.length - acked) :
    wp (RestoreProducer.enqueue (opened.futureRecord record) sent.length count)
      (fun _ s' => ∃ acked', Sending opened (sent ++ [record]) acked' s')
      (fun _ => Queued opened sent) s := by
  induction count generalizing acked s with
  | zero =>
    simp only [RestoreProducer.enqueue, wp_bind]
    apply wp_mono (trySend_spec sending)
    · intro answer s' told
      cases answer with
      | ok ticket => exact ⟨acked, told⟩
      | error e => exact told.toQueued
    · intro _ _ never
      exact never.elim
  | succ count ih =>
    simp only [RestoreProducer.enqueue, wp_bind]
    apply wp_mono (trySend_spec sending)
    · intro answer s' told
      cases answer with
      | ok ticket => exact ⟨acked, told⟩
      | error e =>
        cases e with
        | queueFull =>
          simp only [wp_bind]
          apply wp_mono (ackOldest_spec told (by omega))
          · intro _ s'' next
            exact ih next (by omega)
          · intro _ _ queue
            exact queue
        | other message => exact told.toQueued
    · intro _ _ never
      exact never.elim

/-- A record that is sent is queued after those before it, and one that is not is not queued. -/
theorem send_spec [PayloadParsers] {record : Record} (original : Record)
    (sending : Sending opened sent acked s)
    (same : opened.futureRecord record = opened.futureRecord original) :
    wp (RestoreProducer.send record sent.length)
      (fun _ s' => ∃ acked', Sending opened (sent ++ [original]) acked' s')
      (fun _ => Queued opened sent) s := by
  have future : s.futureRecord record = opened.futureRecord original := by
    rw [sending.settings]
    exact same
  have queues : ∀ {acked' : Nat} {s' : RestoreProducer β}, Sending opened sent acked' s' →
      wp (RestoreProducer.enqueue (opened.futureRecord original) sent.length s'.inFlight.length)
        (fun _ s' => ∃ acked', Sending opened (sent ++ [original]) acked' s')
        (fun _ => Queued opened sent) s' := by
    intro acked' s' sending'
    exact enqueue_spec sending' sending'.length_inFlight
  simp only [RestoreProducer.send, wp_bind, wp_get, wp_ofExcept, wp_ensure, wp_ite, future]
  -- Nothing is queued before every check has passed.
  cases s.keys.validate "key" sent.length record.key with
  | error message => exact sending.toQueued
  | ok valid =>
    cases s.values.validate "value" sent.length record.value with
    | error message => exact sending.toQueued
    | ok valid =>
      dsimp only
      split
      · split
        · apply wp_mono (makeRoom_spec sending)
          · rintro _ s' ⟨acked', sending'⟩
            exact queues sending'
          · intro _ _ queue
            exact queue
        · exact queues sending
      · exact sending.toQueued

omit [QueueHistory β] [LawfulQueueingBroker β] [PartitionHistory β] [QueueingBroker β] in
/-- A watermark that is a number of records is read as that number. -/
theorem watermark_eq {mark : Int64} {topic : String} {partition : Int32} {known : Nat}
    (read : watermark mark topic partition = .ok known) : mark.toInt = known := by
  unfold watermark u64TryFrom at read
  split at read
  · rename_i found
    split at found
    · cases found
      cases read
      omega
    · cases found
  · cases read

/-- The high watermark is the number of records in the partition when it was asked for. -/
theorem highWatermark_spec (bootstrap topic : String) (partition : Int32) (s : β) :
    wp (fetchHighWatermark bootstrap topic partition)
      (fun high s' => OnlyGrew s s' ∧ high = (stored s').length) (fun _ => OnlyGrew s) s := by
  simp only [fetchHighWatermark, fetchWatermarks, wp_bind, wp_focus, id, wp_ofExcept, wp_pure]
  apply wp_mono (LawfulQueueingBroker.create_spec (statusConfig bootstrap) s)
  · intro _ s' created
    apply wp_mono (LawfulQueueingBroker.fetchWatermarks_spec topic partition s')
    · rintro marks s'' ⟨asked, number⟩
      have grew := created.trans asked
      -- Either watermark may be one the broker does not know, which is an error.
      split
      · split
        · rename_i high read
          have value := watermark_eq read
          exact ⟨grew, by omega⟩
        · exact grew
      · exact grew
    · intro _ s'' asked
      exact created.trans asked
  · intro _ _ created
    exact created

end Target

section Restore

variable [EnvelopeLibraries] [ByteDigest] {σ β : Type} [BlobStore σ] [QueueingBroker β]
  [PartitionHistory β] [QueueHistory β] {reader : Reader} {mode : OffsetMode}
  {opened : RestoreProducer β} {sent : List Record} {s : Restoring σ (RestoreProducer β)}

/-- A restore has sent exactly these records, and in preserve mode each has its original offset. -/
structure Sent (opened : RestoreProducer β) (mode : OffsetMode) (sent : List Record)
    (s : Restoring σ (RestoreProducer β)) : Prop where
  next : s.next = sent.length
  target : ∃ acked, Sending opened sent acked s.target
  kept : mode = .preserve → ∀ place (record : Record), sent[place]? = some record →
    record.sourceOffset = place

/-- A restore failed, with as many records queued as it counts. -/
def Stopped (opened : RestoreProducer β) (s : Restoring σ (RestoreProducer β)) : Prop :=
  ∃ sent, s.next = sent.length ∧ Queued opened sent s.target

/-- The target holds a backup, every record at its place and nothing else. -/
structure Restored (opened : RestoreProducer β) (mode : OffsetMode) (backup : List Record)
    (s : RestoreProducer β) : Prop where
  /-- The records were sent in chain order. -/
  inOrder : queued s.broker = queued opened.broker ++ backup.map opened.futureRecord
  /-- Each is stored at its place in the backup, which in preserve mode is its original offset. -/
  placed : ∀ place < backup.length, ∃ record, backup[place]? = some record
    ∧ (stored s.broker)[place]? = some (opened.futureRecord record)
    ∧ (mode = .preserve → record.sourceOffset = place)
  whole : (stored s.broker).length = backup.length

omit [EnvelopeLibraries] [ByteDigest] [BlobStore σ] [QueueingBroker β] in
/-- A record at the offset that comes next continues what was sent. -/
theorem Sent.snoc {record : Record} {s' : Restoring σ (RestoreProducer β)}
    (sent_ : Sent opened mode sent s) (next : s'.next = s.next + 1)
    (target : ∃ acked, Sending opened (sent ++ [record]) acked s'.target)
    (own : mode = .preserve → record.sourceOffset = sent.length) :
    Sent opened mode (sent ++ [record]) s' := by
  refine ⟨by rw [next, sent_.next]; simp, target, ?_⟩
  intro preserve place other here
  by_cases last : place < sent.length
  · rw [List.getElem?_append_left last] at here
    exact sent_.kept preserve place other here
  · rw [List.getElem?_append_right (by omega)] at here
    have zero : place - sent.length = 0 := by
      by_contra more
      rw [List.getElem?_eq_none (by simp; omega)] at here
      cases here
    rw [zero] at here
    cases here
    have := own preserve
    omega

variable [LawfulQueueingBroker β]

omit [ByteDigest] [BlobStore σ] in
/-- Sending a record sends it next, or fails with what was queued before. -/
theorem sendRecord_spec (record : Record) (sent_ : Sent opened mode sent s) :
    wp (Restoring.sendRecord mode record) (fun _ => Sent opened mode (sent ++ [record]))
      (fun _ => Stopped opened) s := by
  obtain ⟨acked, sending⟩ := sent_.target
  simp only [Restoring.sendRecord, wp_bind, wp_get]
  cases mode with
  | preserve =>
    simp only [wp_ensure, wp_bind, wp_focus, Restoring.targetPart, wp_modify]
    split
    · rename_i own
      rw [sent_.next] at own ⊢
      apply wp_mono (send_spec record sending rfl)
      · intro _ target queues
        exact sent_.snoc (by rw [sent_.next]) queues fun _ => own
      · intro _ target queue
        exact ⟨sent, rfl, queue⟩
    · exact ⟨sent, sent_.next, sending.toQueued⟩
  | renumber =>
    simp only [wp_bind, wp_focus, Restoring.targetPart, wp_modify]
    rw [sent_.next]
    -- The offset a record had is not part of what is produced.
    apply wp_mono (send_spec record sending rfl)
    · intro _ target queues
      exact sent_.snoc (by rw [sent_.next]) queues nofun
    · intro _ target queue
      exact ⟨sent, rfl, queue⟩

omit [ByteDigest] [BlobStore σ] in
/-- The records of an object are sent in their order. -/
theorem sendRecords_spec (records : List Record) (sent_ : Sent opened mode sent s) :
    wp (records.forM (Restoring.sendRecord mode))
      (fun _ => Sent opened mode (sent ++ records)) (fun _ => Stopped opened) s := by
  induction records generalizing sent s with
  | nil => simpa using sent_
  | cons record records ih =>
    show wp (Restoring.sendRecord mode record >>= fun _ => records.forM _) _ _ s
    rw [wp_bind]
    apply wp_mono (sendRecord_spec record sent_)
    · intro _ s' sent'
      have rest := ih sent'
      rw [List.append_assoc] at rest
      exact rest
    · intro _ _ stopped
      exact stopped

variable [LawfulByteDigest]

/-- An object that has not changed has the records it was verified with. -/
theorem sendObject_spec {object : ChainObject} {location : String} {bytes : Bytes}
    {records : List Record} (read : reader.checkBytes object location bytes = .ok records)
    (sent_ : Sent opened mode sent s) :
    wp (Restoring.sendObject reader mode object
        (Reader.summarize object records (ByteDigest.digest bytes)))
      (fun _ => Sent opened mode (sent ++ records)) (fun _ => Stopped opened) s := by
  obtain ⟨acked, sending⟩ := sent_.target
  have stopped : ∀ store : σ, Stopped opened { s with store } := fun store =>
    ⟨sent, sent_.next, sending.toQueued⟩
  simp only [Restoring.sendObject, wp_bind, wp_focus, wp_get, wp_ensure, Restoring.storePart]
  apply wp_mono (readObjectWithDigest_spec object s.store)
  · rintro again store ⟨location', bytes', read', hashed⟩
    split
    · rename_i unchanged
      -- The same hash is the same bytes, and the same bytes decode to the same records.
      rw [hashed] at unchanged
      have same : bytes' = bytes := LawfulByteDigest.digest_injective unchanged
      rw [same, Reader.checkBytes_location read location'] at read'
      rw [← Except.ok.inj read']
      exact sendRecords_spec records ⟨sent_.next, sent_.target, sent_.kept⟩
    · exact stopped store
  · intro _ store _
    exact stopped store

/-- A chain that has not changed is sent in its order. -/
theorem sendAll_spec {chain : List ChainObject} {objects : List ObjectSummary}
    {backup : List Record} (verified : Verified reader chain objects backup)
    (sent_ : Sent opened mode sent s) :
    wp (Restoring.sendAll reader mode chain objects)
      (fun _ => Sent opened mode (sent ++ backup)) (fun _ => Stopped opened) s := by
  induction verified generalizing sent s with
  | nil => simpa [Restoring.sendAll] using sent_
  | cons read rest ih =>
    simp only [Restoring.sendAll, wp_bind]
    apply wp_mono (sendObject_spec read sent_)
    · intro _ s' sent'
      have more := ih sent'
      rw [List.append_assoc] at more
      exact more
    · intro _ _ stopped
      exact stopped

omit [EnvelopeLibraries] [ByteDigest] [BlobStore σ] [LawfulQueueingBroker β]
  [LawfulByteDigest] [QueueingBroker β] in
/-- Once every record landed, a partition that is as long as the backup is the backup. -/
theorem Sending.restored {backup : List Record} {target : RestoreProducer β} {broker : β}
    (landed : Sending opened backup backup.length target)
    (kept : mode = .preserve → ∀ place (record : Record), backup[place]? = some record →
      record.sourceOffset = place)
    (grew : OnlyGrew target.broker broker) (whole : (stored broker).length = backup.length) :
    Restored opened mode backup { target with broker } := by
  have final := landed.grew grew
  refine ⟨final.queue, ?_, whole⟩
  intro place below
  obtain ⟨record, here, there⟩ := final.landed place below
  exact ⟨record, here, there, fun preserve => kept preserve place record here⟩

omit [EnvelopeLibraries] [ByteDigest] [BlobStore σ] [LawfulQueueingBroker β]
  [LawfulByteDigest] [QueueingBroker β] in
/-- Nothing was sent yet when nothing is in flight. -/
theorem sent_nil {target : RestoreProducer β} (store : σ)
    (settings : target = { opened with broker := target.broker, inFlight := target.inFlight })
    (idle : target.inFlight = []) (queue : queued target.broker = queued opened.broker) :
    Sent opened mode [] (⟨store, target, 0⟩ : Restoring σ (RestoreProducer β)) := by
  refine ⟨rfl, ⟨0, ⟨⟨settings, by simpa using queue⟩, le_refl 0, by simpa using idle, by omega, ?_⟩⟩,
    ?_⟩
  · intro _ below
    omega
  · intro _ _ _ here
    cases here

omit [LawfulByteDigest] [ByteDigest] in
/-- Asking a target for its high watermark queues nothing. -/
theorem asked_spec (target : RestoreProducer β) :
    wp (RestoreTarget.highWatermark : Program String (RestoreProducer β) Nat)
      (fun high target' => ∃ broker, target' = { target with broker }
        ∧ OnlyGrew target.broker broker ∧ high = (stored broker).length)
      (fun _ target' => queued target'.broker = queued target.broker) target := by
  simp only [RestoreTarget.highWatermark, wp_bind, wp_get, wp_focus, RestoreProducer.brokerPart]
  apply wp_mono (highWatermark_spec target.bootstrapServers target.topic target.partition _)
  · rintro high broker ⟨grew, length⟩
    exact ⟨broker, rfl, grew, length⟩
  · intro _ broker grew
    exact grew.1

omit [LawfulByteDigest] [LawfulQueueingBroker β] [PartitionHistory β] [QueueHistory β]
  [ByteDigest] [BlobStore σ] in
/-- Waiting for what is in flight after a failure only adds to its message. -/
theorem drained_spec (s : Restoring σ (RestoreProducer β)) :
    wp Restoring.drained (fun _ _ => True) (fun _ _ => False) s := by
  simp only [Restoring.drained, wp_bind, wp_focus, wp_attempt]
  apply wp_any
  · intro _ _
    trivial
  · intro _ _
    trivial

/--
A restore that reports success restored everything at the right offsets.

The target then holds the records the verify pass read, in chain order and nothing else, each at
its place; and a restore that fails without saying that it produced has queued nothing.
-/
theorem restored_of_produce {chain : List ChainObject} {summary : BackupSummary} {store store' : σ}
    (verified : reader.verify chain store = .ok summary store') (mode : OffsetMode)
    {s : Restoring σ (RestoreProducer β)} (idle : s.target.inFlight = []) :
    ∃ backup, Verified reader chain summary.objects backup
      ∧ wp (Restoring.produce reader chain summary mode)
        (fun report s' => Restored s.target mode backup s'.target
          ∧ report.records = summary.records ∧ report.highWatermark = summary.records
          ∧ summary.records = backup.length)
        (fun e s' => (∃ message, e = .produce message)
          ∨ queued s'.target.broker = queued s.target.broker) s := by
  obtain ⟨backup, read, counted⟩ := wp_of_ok (verify_spec chain store) verified
  refine ⟨backup, read, ?_⟩
  simp only [Restoring.produce, Restoring.untilDrain, wp_bind, wp_ofExcept, wp_ensure, wp_focus,
    wp_modify, wp_attempt, Restoring.targetPart]
  cases mode.check summary with
  | error e => exact .inr trivial
  | ok _ =>
    dsimp only
    split
    · apply wp_mono (asked_spec s.target)
      · rintro high target ⟨broker, here, grew, length⟩
        split
        · -- The restore begins with nothing sent to a target that is empty.
          have start : Sent s.target mode [] (⟨s.store, target, 0⟩ : Restoring σ _) := by
            apply sent_nil
            · rw [here]
            · rw [here]
              exact idle
            · rw [here]
              exact grew.1
          apply wp_mono (sendAll_spec read start)
          · intro _ s' sent_
            rw [List.nil_append] at sent_
            obtain ⟨acked, sending⟩ := sent_.target
            simp only [Restoring.fromDrain, wp_bind, wp_focus, wp_get, wp_ensure, wp_pure,
              Restoring.targetPart]
            apply wp_mono (finish_spec sending)
            · intro _ target' landed
              apply wp_mono (asked_spec target')
              · rintro high' target'' ⟨broker', there, grew', length'⟩
                split
                · rename_i full
                  have counts := sent_.next
                  subst there
                  refine ⟨landed.restored sent_.kept grew' (by omega), full.2, by omega, counted⟩
                · exact .inl ⟨_, rfl⟩
              · intro _ _ _
                exact .inl ⟨_, rfl⟩
            · intro _ _ _
              exact .inl ⟨_, rfl⟩
          · rintro e s' ⟨sent, count, queue⟩
            simp only [Restoring.fromDrain, wp_bind, wp_get, wp_ite, wp_throw]
            split
            · -- As long as nothing was counted, nothing was queued.
              rename_i none
              have empty : sent = [] := List.eq_nil_of_length_eq_zero (by omega)
              rw [empty] at queue
              exact .inr (by simpa using queue.queue)
            · apply wp_mono (drained_spec s')
              · intro _ _ _
                exact .inl ⟨_, rfl⟩
              · intro _ _ never
                exact never.elim
        · exact .inr (by rw [here]; exact grew.1)
      · intro _ target same
        exact .inr same
    · exact .inr trivial

end Restore

namespace Sample

/-- A hash that tells all texts apart, as numbers with a digit for each byte. -/
scoped instance : ByteDigest where
  digest bytes := bytes.foldr (fun b rest => b.toNat + 1 + 257 * rest) 0

scoped instance : LawfulByteDigest where
  digest_injective := by
    intro bytes
    induction bytes with
    | nil =>
      intro bytes' same
      cases bytes' with
      | nil => rfl
      | cons b' rest' =>
        -- No byte is written as a digit that is zero.
        simp only [ByteDigest.digest, List.foldr_nil, List.foldr_cons] at same
        omega
    | cons b rest ih =>
      intro bytes' same
      cases bytes' with
      | nil =>
        simp only [ByteDigest.digest, List.foldr_nil, List.foldr_cons] at same
        omega
      | cons b' rest' =>
        simp only [ByteDigest.digest, List.foldr_cons] at same
        have low := b.toNat_lt
        have low' := b'.toNat_lt
        have first : b = b' := UInt8.toNat_inj.mp (by omega)
        rw [first, ih (show ByteDigest.digest rest = ByteDigest.digest rest' by
          simp only [ByteDigest.digest]
          omega)]

/-- How a backup of the sample records is read. -/
def reader : Reader := ⟨.ndjson, none, "t", 0⟩

/-- A directory with two records in one object and a third in another. -/
def backup : ObjectStore where
  stored := [(blobFilename 0 1 none "ndjson", line 0 ++ [10] ++ line 1 ++ [10]),
    (blobFilename 2 2 none "ndjson", line 2 ++ [10])]
  answers := Stream'.const ⟨none, false⟩

/-- The objects of that directory. -/
def backedUp : List ChainObject :=
  [⟨blobFilename 0 1 none "ndjson", 0, 1, none⟩, ⟨blobFilename 2 2 none "ndjson", 2, 2, none⟩]

/-- What a verify pass says about them. -/
def backupSummary : BackupSummary :=
  (value? (reader.verify backedUp backup)).getD ⟨[], 0, 0, 0, 0, none⟩

/-- The verify pass passes. -/
theorem backupSummary_verified : value? (reader.verify backedUp backup) = some backupSummary := by
  have passes : (value? (reader.verify backedUp backup)).isSome = true := by decide +kernel
  obtain ⟨summary, verified⟩ := Option.isSome_iff_exists.mp passes
  rw [backupSummary, verified]
  rfl

/-- A restore into an empty topic whose broker answers like this. -/
def restoring (answers : Stream' QueueAnswer) :
    Restoring ObjectStore (RestoreProducer QueueingPartition) where
  store := backup
  target := ⟨⟨[], [], answers⟩, [], "", "t", 0, .bytes, .bytes, 1000000, defaultWindow, []⟩
  next := 0

/-- Three records that are verified and restored are in the target, each at its offset. -/
theorem restored_of_produce_three : ∃ report s' records,
    Restoring.produce reader backedUp backupSummary .preserve
        (restoring (Stream'.const ⟨[], none, none⟩)) = .ok report s'
      ∧ Restored (restoring (Stream'.const ⟨[], none, none⟩)).target .preserve records s'.target
      ∧ report.highWatermark = 3 := by
  have verified := backupSummary_verified
  have returned : value? (Restoring.produce reader backedUp backupSummary .preserve
      (restoring (Stream'.const ⟨[], none, none⟩))) = some ⟨3, 3⟩ := by decide +kernel
  -- Only what the two runs returned matters from here on.
  generalize backupSummary = summary at verified returned ⊢
  have run := eq_ok_of_value? returned
  obtain ⟨records, -, ends⟩ := restored_of_produce (eq_ok_of_value? verified) .preserve
    (s := restoring (Stream'.const ⟨[], none, none⟩)) rfl
  exact ⟨⟨3, 3⟩, _, records, run, (wp_of_ok ends run).1, rfl⟩

end Sample

end MirrorV3
