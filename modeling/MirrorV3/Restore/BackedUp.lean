import MirrorV3.Fs.Lifetimes
import MirrorV3.Restore.Backup
import MirrorV3.Restore.Planned
import MirrorV3.Restore.Restored

/-! What a mirror wrote is a backup, and what a verify pass reports of a backup is so. -/

namespace MirrorV3

open Effect Ranges Results

section Backups

variable [EnvelopeLibraries]

section Written

variable {reader : Reader} {start : Nat} {objects : List BackupObject} {o : BackupObject}
  {object : ChainObject} {records : List Record} {bytes : Bytes}

/-- A stretch of a backup goes on with an object that is written where it ends. -/
theorem Backup.snoc (backup : Backup reader start objects)
    (written : WellWritten reader (backupEnd start objects) o) :
    Backup reader start (objects ++ [o]) := by
  induction backup with
  | nil => exact .cons written .nil
  | cons first rest ih => exact .cons first (ih written)

omit [EnvelopeLibraries] in
/-- Records in order, in an object's range and from the backup's source pass the check. -/
theorem Reader.checkRecords_eq_ok {bad : String → RestoreError} {previous : Option Nat}
    (inside : ∀ r ∈ records, object.lo ≤ r.sourceOffset)
    (later : ∀ p ∈ previous, ∀ r ∈ records, p < r.sourceOffset)
    (ours : ∀ r ∈ records, r.topic = reader.source.topic ∧ r.partition = reader.source.partition)
    (ordered : records.Pairwise (·.sourceOffset < ·.sourceOffset)) :
    reader.checkRecords object bad previous records = .ok () := by
  induction records generalizing previous with
  | nil => rfl
  | cons r records ih =>
    obtain ⟨first, ordered⟩ := List.pairwise_cons.mp ordered
    have above := inside r List.mem_cons_self
    have increases : previous.filter (r.sourceOffset ≤ ·) = none := by
      rw [Option.filter_eq_none_iff]
      intro p known
      have := later p known r List.mem_cons_self
      simp only [decide_eq_true_eq]
      omega
    obtain ⟨topic, partition⟩ := ours r List.mem_cons_self
    rw [checkRecords, if_neg (by omega), increases]
    dsimp only
    rw [if_neg (by simp [topic, partition])]
    -- From here on this record is the one before.
    apply ih
    · exact fun x mem => inside x (List.mem_cons_of_mem _ mem)
    · intro p known x mem
      cases known
      exact first x mem
    · exact fun x mem => ours x (List.mem_cons_of_mem _ mem)
    · exact ordered

/-- An object that decodes to records that pass the check and end where its name says is read. -/
theorem Reader.checkBytes_eq_ok {location : String} {last : Record}
    (decodes : decodeBlob object.name location bytes reader.format reader.keyring = .ok records)
    (ends : records.getLast? = some last) (at_end : last.sourceOffset = object.hi)
    (passes : ∀ bad, reader.checkRecords object bad none records = .ok ()) :
    reader.checkBytes object location bytes = .ok records := by
  simp [checkBytes, decodes, Except.mapError, bind, Except.bind, ends, at_end, passes, pure,
    Except.pure]

omit [EnvelopeLibraries] in
/-- A stretch ends one past the object it was extended by. -/
@[simp] theorem backupEnd_concat : backupEnd start (objects ++ [o]) = o.object.hi + 1 := by
  simp [backupEnd_eq]

/-- A key that an object was read with is in the keyring. -/
theorem holdsKey_of_decodes {name location id : String} {format : Format}
    {keyring : Option Keyring} {blob : BlobName}
    (parsed : parseBlobName name format.extension = some blob) (encrypted : blob.keyId = some id)
    (decodes : decodeBlob name location bytes format keyring = .ok records) :
    holdsKey keyring id = true := by
  cases keyring with
  | none => simp [decodeBlob, parsed, encrypted] at decodes
  | some ring =>
    cases found : ring.get id with
    | error message => simp [decodeBlob, parsed, encrypted, found] at decodes
    | ok key => simp [holdsKey, found, Except.isOk, Except.toBool]

/-- What a mirror wrote of a log is a backup, of the log up to where it ends. -/
theorem Archive.exists_backup {log : Log} {blobs : List BlobObject} {durable : Nat}
    (archive : Archive reader.format reader.keyring log blobs durable)
    (ours : ∀ r ∈ log.records,
      r.topic = reader.source.topic ∧ r.partition = reader.source.partition) :
    ∃ objects, Backup reader 0 objects ∧ objects.map (·.blob) = blobs
      ∧ backupEnd 0 objects = durable ∧ backupRecords objects = log.between 0 durable := by
  induction archive with
  | empty => exact ⟨[], .nil, rfl, rfl, by simp [backupRecords, Log.between]⟩
  | extend earlier last keyId bytes ends ordered named decodes ih =>
    rename_i blobs lo
    obtain ⟨objects, backup, stored, reached, holds⟩ := ih
    have high := log.numbered last ends
    have parsed := parseBlobName_blobFilename reader.format.extension
      (by omega : lo < 2 ^ 64) (by omega : last.sourceOffset < 2 ^ 64) named
    have inside : ∀ r ∈ log.between lo (last.sourceOffset + 1),
        r ∈ log.records ∧ lo ≤ r.sourceOffset :=
      fun r mem => ⟨(Log.mem_between.mp mem).1, (Log.mem_between.mp mem).2.1⟩
    -- The new object holds the stretch of the log from the end of the one before.
    let o : BackupObject :=
      ⟨⟨blobFilename lo last.sourceOffset keyId reader.format.extension, lo, last.sourceOffset,
        keyId⟩, bytes, log.between lo (last.sourceOffset + 1)⟩
    have written : WellWritten reader (backupEnd 0 objects) o := by
      refine ⟨reached.symm, ordered, high, rfl, fun id keyed => ⟨named id keyed, ?_⟩, ?_⟩
      · exact holdsKey_of_decodes parsed keyed (decodes "")
      · refine Reader.checkBytes_eq_ok (decodes _)
          (Window.getLast?_between log.increasing ends ordered) rfl fun bad => ?_
        apply Reader.checkRecords_eq_ok
        · exact fun r mem => (inside r mem).2
        · intro p known
          cases known
        · exact fun r mem => ours r (inside r mem).1
        · exact log.increasing.filter _
    refine ⟨objects ++ [o], backup.snoc written, ?_, ?_, ?_⟩
    · rw [List.map_append, stored]
      rfl
    · rw [backupEnd_concat]
    · rw [backupRecords, List.flatMap_append, ← backupRecords, holds, List.flatMap_singleton]
      exact Window.between_append log.increasing (Nat.zero_le lo) (by omega)

/-- In whatever order a backup is listed, it is planned in the order it was written. -/
theorem Backup.planChain_perm {names : List String} (backup : Backup reader start objects)
    (some_ : objects ≠ []) (listed : names.Perm (objects.map (·.object.name))) :
    planChain names reader.format start reader.keyring = .ok (objects.map (·.object)) := by
  obtain ⟨read, planned, left, inOrder, adjoins, held⟩ :=
    planChain_ok_iff.mp (backup.planChain_eq some_)
  obtain ⟨read', planned', shuffled⟩ := List.perm_comp_forall₂ listed planned
  have sorted : ∀ read : List ChainObject,
      (read.mergeSort fun a b => a.entry.before b.entry).Pairwise (·.entry.before ·.entry = true) :=
    List.pairwise_mergeSort (fun a b c => ChainEntry.before_trans)
      (fun a b => ChainEntry.before_total _ _)
  refine planChain_ok_iff.mpr ⟨read', planned', ?_, ?_, adjoins, held⟩
  · intro nothing
    rw [nothing] at shuffled
    exact left shuffled.symm.eq_nil
  · rw [inOrder]
    refine List.Perm.eq_of_pairwise (fun a b memA memB below above => ?_) (sorted read) (sorted read')
      ((List.mergeSort_perm _ _).trans (shuffled.symm.trans (List.mergeSort_perm _ _).symm))
    -- Objects of one entry have one name, which tells the key as well.
    have same := ChainEntry.before_antisymm below above
    obtain ⟨name, -, one⟩ := exists_after_of_forall₂ planned.flip
      ((List.mergeSort_perm _ _).mem_iff.mp memA)
    obtain ⟨name', -, other⟩ := exists_after_of_forall₂ planned'.flip
      ((List.mergeSort_perm _ _).mem_iff.mp memB)
    have named : a.name = b.name := congrArg ChainEntry.name same
    have key : a.keyId = b.keyId := by
      have parsed := one.parsed
      rw [← one.named, named, other.named, other.parsed] at parsed
      exact (congrArg BlobName.keyId (Option.some.inj parsed)).symm
    cases a
    cases b
    simp only [ChainObject.entry, ChainEntry.mk.injEq] at same
    simp_all

end Written

section Summary

variable {reader : Reader} {start : Nat} {objects : List BackupObject} {object : ChainObject}
  {records : List Record}

omit [EnvelopeLibraries] in
/-- The first hole of an object is the first position of its range without a record. -/
theorem firstHole_missing {next hi : Nat}
    (inside : ∀ r ∈ records, next ≤ r.sourceOffset ∧ r.sourceOffset ≤ hi)
    (ordered : records.Pairwise (·.sourceOffset < ·.sourceOffset)) (numbered : hi < 2 ^ 63)
    (ends : (records.getLast?.map (·.sourceOffset + 1)).getD next = hi + 1) :
    FirstMissing (fun p => ∃ r ∈ records, r.sourceOffset = p) next (hi + 1)
      (Reader.firstHole next records) := by
  -- By induction on the records: the first one leaves a hole before it, or moves on by one.
  induction records generalizing next with
  | nil =>
    obtain rfl : next = hi + 1 := ends
    intro position above below
    omega
  | cons r records ih =>
    obtain ⟨above, below⟩ := inside r List.mem_cons_self
    obtain ⟨first, ordered⟩ := List.pairwise_cons.mp ordered
    rw [Reader.firstHole]
    by_cases hole : next < r.sourceOffset
    · -- Nothing is at `next`, for every record is at this one or behind it.
      rw [if_pos hole]
      refine ⟨Nat.le_refl _, by omega, ?_, fun position above below => by omega⟩
      rintro ⟨x, mem, here⟩
      rcases List.mem_cons.mp mem with rfl | mem
      · omega
      · have := first x mem
        omega
    · rw [if_neg hole, addOne_eq (by omega)]
      have at_next : r.sourceOffset = next := by omega
      have ends' : (records.getLast?.map (·.sourceOffset + 1)).getD (r.sourceOffset + 1) = hi + 1 := by
        cases records with
        | nil => simpa using ends
        | cons x records =>
          rw [List.getLast?_cons_cons] at ends
          cases last : (x :: records).getLast? with
          | none => simp at last
          | some last_ => simpa [last] using ends
      have rest := ih (fun x mem => ⟨first x mem, (inside x (List.mem_cons_of_mem _ mem)).2⟩)
        ordered ends'
      have here : FirstMissing (fun p => ∃ x ∈ r :: records, x.sourceOffset = p) next
          (r.sourceOffset + 1) none := by
        intro position above below
        exact ⟨r, List.mem_cons_self, by omega⟩
      refine here.append (rest.congr fun position above below => ?_) (by omega) (by omega)
      constructor
      · rintro ⟨x, mem, at_x⟩
        exact ⟨x, List.mem_cons_of_mem _ mem, at_x⟩
      · rintro ⟨x, mem, at_x⟩
        rcases List.mem_cons.mp mem with rfl | mem
        · omega
        · exact ⟨x, mem, at_x⟩

/-- The records of a well written object are in its range and in order, the last at its end. -/
theorem WellWritten.inside {o : BackupObject} (written : WellWritten reader start o) :
    (∀ r ∈ o.records, start ≤ r.sourceOffset ∧ r.sourceOffset ≤ o.object.hi)
      ∧ o.records.Pairwise (·.sourceOffset < ·.sourceOffset)
      ∧ (o.records.getLast?.map (·.sourceOffset + 1)).getD start = o.object.hi + 1 := by
  obtain ⟨⟨last, ends, at_end⟩, above, ordered⟩ := of_checkBytes written.reads
  refine ⟨fun r mem => ⟨written.lo ▸ above r mem, ?_⟩, ordered, by simp [ends, at_end]⟩
  -- In order, none is behind the last.
  obtain ⟨front, split⟩ := List.getLast?_eq_some_iff.mp ends
  rw [split] at mem ordered
  rcases List.mem_append.mp mem with before | same
  · have := (List.pairwise_append.mp ordered).2.2 r before last (by simp)
    omega
  · rw [List.mem_singleton.mp same]
    omega

/-- No record of a stretch is before its start. -/
theorem Backup.start_le (backup : Backup reader start objects) {r : Record}
    (mem : r ∈ backupRecords objects) : start ≤ r.sourceOffset := by
  obtain ⟨o, listed, mem⟩ := List.mem_flatMap.mp mem
  obtain ⟨above, written⟩ := backup.written listed
  have := (written.inside.1 r mem).1
  omega

/-- A stretch does not end before it starts. -/
theorem Backup.start_le_end (backup : Backup reader start objects) :
    start ≤ backupEnd start objects := by
  have := backup.records_le
  omega

/-- A backup has no hole before the first one that its objects report. -/
theorem Backup.firstMissing (backup : Backup reader start objects) :
    FirstMissing (fun p => ∃ r ∈ backupRecords objects, r.sourceOffset = p) start
      (backupEnd start objects)
      (objects.findSome? fun o => Reader.firstHole o.object.lo o.records) := by
  induction backup with
  | nil => exact fun position above below => absurd below (Nat.not_lt.mpr above)
  | cons written rest ih =>
    rename_i start o objects
    obtain ⟨inside, ordered, ends⟩ := written.inside
    have split : backupRecords (o :: objects) = o.records ++ backupRecords objects := by
      simp [backupRecords]
    have range : start ≤ o.object.hi := written.lo ▸ written.range
    have first := firstHole_missing inside ordered written.numbered ends
    rw [List.findSome?_cons, backupEnd, written.lo, split]
    -- Below its end the object's own records decide, and from there on the others'.
    have here : FirstMissing (fun p => ∃ r ∈ o.records ++ backupRecords objects, r.sourceOffset = p)
        start (o.object.hi + 1) (Reader.firstHole start o.records) := by
      refine first.congr fun position above below => ?_
      constructor
      · rintro ⟨r, mem, at_r⟩
        exact ⟨r, List.mem_append_left _ mem, at_r⟩
      · rintro ⟨r, mem, at_r⟩
        rcases List.mem_append.mp mem with own | other
        · exact ⟨r, own, at_r⟩
        · have := rest.start_le other
          omega
    have there : FirstMissing (fun p => ∃ r ∈ o.records ++ backupRecords objects, r.sourceOffset = p)
        (o.object.hi + 1) (backupEnd (o.object.hi + 1) objects)
        (objects.findSome? fun o => Reader.firstHole o.object.lo o.records) := by
      refine ih.congr fun position above below => ?_
      constructor
      · rintro ⟨r, mem, at_r⟩
        exact ⟨r, List.mem_append_right _ mem, at_r⟩
      · rintro ⟨r, mem, at_r⟩
        rcases List.mem_append.mp mem with own | other
        · have := (inside r own).2
          omega
        · exact ⟨r, other, at_r⟩
    have whole := here.append there (by omega) rest.start_le_end
    cases hole : Reader.firstHole start o.records with
    | none => simpa [hole] using whole
    | some position => simpa [hole] using whole

/-- A position of a well written object holds a record or is counted as a hole. -/
theorem WellWritten.holes_eq {o : BackupObject} {digest : Nat}
    (written : WellWritten reader start o) :
    o.records.length + (Reader.summarize o.object o.records digest).holes + start
      = o.object.hi + 1 := by
  obtain ⟨inside, ordered, ends⟩ := written.inside
  have range := written.range
  have numbered := written.numbered
  have lo := written.lo
  -- An object has as many positions as its range is wide, and a record at no more than each.
  have count : o.records.length + start ≤ o.object.hi + 1 := by
    cases last : o.records.getLast? with
    | none =>
      rw [List.getLast?_eq_none_iff.mp last]
      simp only [List.length_nil]
      omega
    | some r =>
      rw [List.getLast?_eq_getElem?] at last
      have := offset_ge ordered (fun x mem => (inside x mem).1) last
      have := (inside r (List.mem_of_getElem? last)).2
      omega
  have width : Reader.positions o.object = o.object.hi - o.object.lo + 1 := by
    rw [Reader.positions, subtract_eq range (by omega), addOne_eq (by omega)]
  show o.records.length + subtract (Reader.positions o.object) o.records.length + start = _
  rw [width, subtract_eq (by omega) (by omega)]
  omega

/-- An object as a verify pass sums it up. -/
def BackupObject.summary [ByteDigest] (o : BackupObject) : ObjectSummary :=
  Reader.summarize o.object o.records (ByteDigest.digest o.bytes)

/-- Positions of a backup hold its records or are counted as holes. -/
theorem Backup.holes_eq [ByteDigest] (backup : Backup reader start objects) :
    (backupRecords objects).length + ((objects.map (·.summary)).map (·.holes)).sum + start
      = backupEnd start objects := by
  induction backup with
  | nil => simp [backupRecords, backupEnd]
  | cons written rest ih =>
    rename_i start o objects
    have here := @WellWritten.holes_eq _ _ _ _ (ByteDigest.digest o.bytes) written
    have split : (backupRecords (o :: objects)).length
        = o.records.length + (backupRecords objects).length := by
      simp [backupRecords]
    simp only [List.map_cons, List.sum_cons]
    rw [backupEnd, split, ← ih]
    simp only [BackupObject.summary]
    omega

/-- What a summary reports of a backup's records, from `start` up to where the backup ends. -/
structure Reports (summary : BackupSummary) (records : List Record) (start bound : Nat) : Prop where
  firstOffset : summary.firstOffset = start
  lastOffset : summary.lastOffset + 1 = bound
  counted : summary.records = records.length
  holes : summary.records + summary.holes + start = bound
  firstHole : FirstMissing (fun p => ∃ r ∈ records, r.sourceOffset = p) start bound summary.firstHole

omit [EnvelopeLibraries] in
/-- Preserving offsets is refused exactly when the backup has a hole. -/
theorem check_preserve {summary : BackupSummary} {records : List Record} {bound : Nat}
    (reports : Reports summary records 0 bound) :
    OffsetMode.preserve.check summary = .ok ()
      ↔ ∀ position < bound, ∃ r ∈ records, r.sourceOffset = position := by
  have whole := reports.firstHole.eq_none_iff
  rw [OffsetMode.check, reports.firstOffset, if_neg (by simp)]
  cases hole : summary.firstHole with
  | none =>
    have all := whole.mp hole
    exact ⟨fun _ position below => all position (Nat.zero_le _) below, fun _ => rfl⟩
  | some position =>
    constructor
    · intro accepted
      cases accepted
    · intro all
      rw [whole.mpr fun position _ below => all position below] at hole
      cases hole

end Summary

section Reading

variable {σ : Type} [BlobStore σ] [BlobHistory σ] [ByteDigest] {quiet : σ → Prop} {s : σ}
  {reader : Reader} {start : Nat} {objects : List BackupObject} {o : BackupObject}

/-- A store that is quiet answers every read of an object it holds, and stays quiet. -/
def AnswersReads (quiet : σ → Prop) : Prop :=
  ∀ s name bytes, quiet s → (BlobHistory.objects s).lookup name = some bytes →
    wp (BlobStore.get name : Program BlobError σ _)
      (fun read s' => read = bytes ∧ quiet s' ∧ BlobHistory.objects s' = BlobHistory.objects s)
      (fun _ _ => False) s

/-- Read every object of a chain, for its records in order. -/
def Reader.readAll (reader : Reader) : List ChainObject → Program RestoreError σ (List Record)
  | [] => pure []
  | object :: chain => do
    let (records, _) ← reader.readObjectWithDigest object
    let later ← readAll reader chain
    pure (records ++ later)

/-- An object that is well written and there. -/
structure Readable (reader : Reader) (s : σ) (o : BackupObject) : Prop where
  written : ∃ start, WellWritten reader start o
  stored : (BlobHistory.objects s).lookup o.object.name = some o.bytes

omit [ByteDigest] [BlobStore σ] in
/-- Only what the store holds matters. -/
theorem Readable.congr {s' : σ} (there : Readable reader s o)
    (same : BlobHistory.objects s' = BlobHistory.objects s) : Readable reader s' o :=
  ⟨there.written, same ▸ there.stored⟩

omit [ByteDigest] [BlobStore σ] in
/-- A store that holds a backup has every object of it to read. -/
theorem Backup.readable (backup : Backup reader start objects)
    (held : BlobHistory.objects s = objects.map (·.blob)) : ∀ o ∈ objects, Readable reader s o := by
  intro o mem
  refine ⟨⟨_, (backup.written mem).2⟩, ?_⟩
  rw [held]
  exact backup.lookup_eq mem

/-- An object that is there is read with its records. -/
theorem readObjectWithDigest_stored (answers : AnswersReads quiet) (ready : quiet s)
    (there : Readable reader s o) :
    wp (reader.readObjectWithDigest o.object)
      (fun read s' => read = (o.records, ByteDigest.digest o.bytes) ∧ quiet s'
        ∧ BlobHistory.objects s' = BlobHistory.objects s) (fun _ _ => False) s := by
  obtain ⟨⟨_, written⟩, stored⟩ := there
  simp only [Reader.readObjectWithDigest, wp_bind, wp_get, wp_focus, id, wp_ofExcept, wp_pure]
  refine wp_mono (answers s _ _ ready stored) ?_ (fun _ _ failed => failed)
  rintro _ s' ⟨rfl, still, same⟩
  rw [Reader.checkBytes_location written.reads]
  exact ⟨rfl, still, same⟩

/-- Objects that are there are read one after the other, for all their records. -/
theorem readAll_stored (answers : AnswersReads quiet) (ready : quiet s)
    (there : ∀ o ∈ objects, Readable reader s o) :
    wp (reader.readAll (objects.map (·.object)))
      (fun records _ => records = backupRecords objects) (fun _ _ => False) s := by
  induction objects generalizing s with
  | nil => rfl
  | cons o objects ih =>
    simp only [List.map_cons, Reader.readAll, wp_bind, wp_pure]
    refine wp_mono (readObjectWithDigest_stored answers ready (there o List.mem_cons_self)) ?_
      (fun _ _ failed => failed)
    rintro _ s' ⟨rfl, still, same⟩
    refine wp_mono (ih still fun o mem => (there o (List.mem_cons_of_mem _ mem)).congr same) ?_
      (fun _ _ failed => failed)
    rintro _ _ rfl
    simp [backupRecords]

/-- Objects that are there are summed up one after the other. -/
theorem readSummaries_stored (answers : AnswersReads quiet) (ready : quiet s)
    (there : ∀ o ∈ objects, Readable reader s o) :
    wp (reader.readSummaries (objects.map (·.object)))
      (fun summaries _ => summaries = objects.map (·.summary)) (fun _ _ => False) s := by
  induction objects generalizing s with
  | nil => rfl
  | cons o objects ih =>
    simp only [List.map_cons, Reader.readSummaries, wp_bind, wp_pure]
    refine wp_mono (readObjectWithDigest_stored answers ready (there o List.mem_cons_self)) ?_
      (fun _ _ failed => failed)
    rintro _ s' ⟨rfl, still, same⟩
    refine wp_mono (ih still fun o mem => (there o (List.mem_cons_of_mem _ mem)).congr same) ?_
      (fun _ _ failed => failed)
    rintro _ _ rfl
    rfl

/-- A verify pass over a backup that is there succeeds, and reports what is so. -/
theorem verify_stored (answers : AnswersReads quiet) (ready : quiet s)
    (backup : Backup reader start objects) (some_ : objects ≠ [])
    (held : BlobHistory.objects s = objects.map (·.blob)) :
    wp (reader.verify (objects.map (·.object)))
      (fun summary _ => Reports summary (backupRecords objects) start (backupEnd start objects))
      (fun _ _ => False) s := by
  -- Each object reads back as it was written, so the summaries are those of the backup.
  obtain ⟨first, others, rfl⟩ : ∃ first others, objects = first :: others :=
    List.exists_cons_of_ne_nil some_
  obtain ⟨last, ends⟩ : ∃ last, (first :: others).getLast? = some last :=
    Option.isSome_iff_exists.mp (by simp)
  have starts : first.object.lo = start := by
    cases backup with
    | cons written _ => exact written.lo
  have head : ((first :: others).map (·.object)).head? = some first.object := rfl
  have tail : ((first :: others).map (·.object)).getLast? = some last.object := by
    rw [List.getLast?_map, ends]
    rfl
  rw [Reader.verify, head, tail]
  simp only [wp_bind, wp_pure]
  refine wp_mono (readSummaries_stored answers ready (backup.readable held)) ?_
    (fun _ _ failed => failed)
  rintro _ _ rfl
  have counted : (((first :: others).map (·.summary)).map (·.records)).sum
      = (backupRecords (first :: others)).length := by
    rw [backupRecords, List.length_flatMap, List.map_map]
    rfl
  refine ⟨starts, ?_, counted, ?_, ?_⟩
  · simp [backupEnd_eq, ends]
  · rw [counted]
    exact backup.holes_eq
  · show FirstMissing _ _ _ (((first :: others).map (·.summary)).findSome? (·.firstHole))
    rw [List.findSome?_map]
    exact backup.firstMissing

end Reading

section Mirrored

variable {σ N : Type} [BlobStore σ] [BlobHistory σ] [LawfulBlobStore σ] [LawfulEnvelopeLibraries]
  [Notifier N] [ByteDigest] {quiet : σ → Prop}

/-- What a mirror's lifetimes have to be read with to be restored by a reader. -/
def Reader.archive (reader : Reader) : ArchiveReader := ⟨reader.format, reader.keyring⟩

/--
What a mirror backs up, a restore accepts and reads back.

Whatever lifetimes have left a directory with an object in it, and in whatever order it is listed:
its names are planned from the start, its objects are read as the log's records up to where the
chain ends, and the verify pass reports those records and the holes between them.
-/
theorem backed_up_restores {store : σ} {reader : Reader} {log : Log}
    (reached : Reached N reader.archive log store) (flushed : objects store ≠ [])
    (ours : ∀ r ∈ log.records,
      r.topic = reader.source.topic ∧ r.partition = reader.source.partition)
    {names : List String} (listed : names.Perm ((objects store).map (·.1)))
    (answers : AnswersReads quiet) (ready : quiet store) :
    ∃ mirrored chain, validateChain names reader.format none = .ok mirrored
      ∧ planChain names reader.format 0 reader.keyring = .ok chain
      ∧ wp (reader.readAll chain)
          (fun records _ => records = log.records.filter (·.sourceOffset < mirrored.durable))
          (fun _ _ => False) store
      ∧ wp (reader.verify chain)
          (fun summary _ =>
            Reports summary (log.records.filter (·.sourceOffset < mirrored.durable)) 0
                mirrored.durable
              ∧ (OffsetMode.preserve.check summary = .ok () ↔ ∀ position < mirrored.durable,
                ∃ r ∈ log.records, r.sourceOffset = position))
          (fun _ _ => False) store := by
  obtain ⟨durable, archive⟩ := archived_of_reached reached
  obtain ⟨backup, written, held, ends, records⟩ := archive.exists_backup ours
  have some_ : backup ≠ [] := by
    rintro rfl
    exact flushed held.symm
  have below : log.between 0 durable = log.records.filter (·.sourceOffset < durable) := by
    simp [Log.between, Window.between]
  rw [below] at records
  have named : (objects store).map (·.1) = backup.map (·.object.name) := by
    rw [← held, List.map_map]
    rfl
  refine ⟨_, _, archive.validateChain_eq listed, written.planChain_perm some_ (named ▸ listed),
    ?_, ?_⟩
  · have read := readAll_stored answers ready (written.readable held.symm)
    rwa [records] at read
  · have verified := verify_stored answers ready written some_ held.symm
    rw [records, ends] at verified
    refine wp_mono verified (fun summary _ reports => ⟨reports, ?_⟩) (fun _ _ failed => failed)
    rw [check_preserve reports]
    -- Below the end, a record of the log is one of the backup's.
    refine forall_congr' fun position => imp_congr_right fun low => ?_
    constructor
    · rintro ⟨r, mem, here⟩
      exact ⟨r, (List.mem_filter.mp mem).1, here⟩
    · rintro ⟨r, mem, here⟩
      exact ⟨r, List.mem_filter.mpr ⟨mem, by simpa [here] using low⟩, here⟩

end Mirrored

end Backups

/-- A store kept in memory answers every read while it has no failure to report. -/
theorem ObjectStore.answersReads :
    AnswersReads fun s : ObjectStore => ∀ n, (s.answers n).error = none := by
  intro s name bytes quiet stored
  have no_error : s.answers.head.error = none := quiet 0
  show wp (ObjectStore.getObject name) _ _ s
  simp only [ObjectStore.getObject, ObjectStore.request, wp_bind, wp_get, wp_set, no_error, wp_pure]
  have found : s.stored.lookup name = some bytes := stored
  rw [found]
  exact ⟨rfl, fun n => quiet (n + 1), rfl⟩

namespace Sample

/-- What a lifetime leaves of a log with a hole, on a store that answers every request. -/
def mirrored : ObjectStore := directory (objects (life.run log (directory [])))

/-- Two records with a hole between them are read back, and the hole is reported. -/
theorem backed_up_restores_hole : ∃ mirrored_ chain,
    validateChain ((objects mirrored).map (·.1)) .ndjson none = .ok mirrored_
      ∧ planChain ((objects mirrored).map (·.1)) .ndjson 0 none = .ok chain
      ∧ wp (reader.readAll chain)
          (fun records _ => records = log.records.filter (·.sourceOffset < mirrored_.durable))
          (fun _ _ => False) mirrored
      ∧ wp (reader.verify chain)
          (fun summary _ =>
            Reports summary (log.records.filter (·.sourceOffset < mirrored_.durable)) 0
                mirrored_.durable
              ∧ (OffsetMode.preserve.check summary = .ok () ↔ ∀ position < mirrored_.durable,
                ∃ r ∈ log.records, r.sourceOffset = position))
          (fun _ _ => False) mirrored := by
  have reads : (⟨.ndjson, none⟩ : ArchiveReader).Reads spec :=
    ⟨rfl, rfl, fun _ setting => by cases setting⟩
  have start : Reached NoOpNotifier ⟨.ndjson, none⟩ log (directory []) := .fresh rfl
  have reached : Reached NoOpNotifier reader.archive log mirrored :=
    .lifetime start ⟨life, reads, rfl⟩ (by decide +kernel) (List.prefix_refl _)
  have flushed : objects mirrored ≠ [] := by decide +kernel
  have ours : ∀ r ∈ log.records,
      r.topic = reader.source.topic ∧ r.partition = reader.source.partition := by decide
  exact backed_up_restores reached flushed ours (.refl _) ObjectStore.answersReads (fun _ => rfl)

end Sample

end MirrorV3
