import MirrorV3.Fs.Archive
import MirrorV3.Lib.Results
import MirrorV3.Restore.Read

/-! A backup as its mirror writes it: objects that follow each other, each holding its records. -/

namespace MirrorV3

open Results Text

/-- An object of a backup: what its name says, its bytes, and the records they decode to. -/
structure BackupObject where
  object : ChainObject
  bytes : Bytes
  records : List Record

/-- The object as its store holds it. -/
def BackupObject.blob (o : BackupObject) : BlobObject := (o.object.name, o.bytes)

/-- Where a stretch of a backup ends, which is where the next object starts. -/
def backupEnd : (start : Nat) → List BackupObject → Nat
  | start, [] => start
  | _, o :: objects => backupEnd (o.object.hi + 1) objects

/-- A stretch ends one past the last object it has. -/
theorem backupEnd_eq (start : Nat) (objects : List BackupObject) :
    backupEnd start objects = (objects.getLast?.map fun o => o.object.hi + 1).getD start := by
  -- Each object moves the end on, and the last one is the last to do so.
  induction objects generalizing start with
  | nil => rfl
  | cons o objects ih =>
    rw [backupEnd, ih]
    cases objects with
    | nil => rfl
    | cons next objects =>
      rw [List.getLast?_cons_cons]
      cases last : (next :: objects).getLast? with
      | none => simp at last
      | some o => rfl

/-- An object that is named, encrypted and filled as a mirror does it. -/
structure WellWritten [EnvelopeLibraries] (reader : Reader) (start : Nat) (o : BackupObject) :
    Prop where
  lo : o.object.lo = start
  range : o.object.lo ≤ o.object.hi
  numbered : o.object.hi < 2 ^ 63
  named : o.object.name
    = blobFilename o.object.lo o.object.hi o.object.keyId reader.format.extension
  keyed : ∀ id ∈ o.object.keyId, isKeyId id = true ∧ holdsKey reader.keyring id = true
  reads : reader.checkBytes o.object o.object.name o.bytes = .ok o.records

/-- A stretch of a backup from an offset on: every object starts where the one before it ended. -/
inductive Backup [EnvelopeLibraries] (reader : Reader) : (start : Nat) → List BackupObject → Prop where
  | nil {start : Nat} : Backup reader start []
  | cons {start : Nat} {o : BackupObject} {objects : List BackupObject}
      (written : WellWritten reader start o) (rest : Backup reader (o.object.hi + 1) objects) :
      Backup reader start (o :: objects)

namespace Backup

variable [EnvelopeLibraries] {reader : Reader} {start : Nat} {objects others : List BackupObject}

/-- Every object starts at the start of the stretch or later, and is well written. -/
theorem written (backup : Backup reader start objects) {o : BackupObject} (mem : o ∈ objects) :
    start ≤ o.object.lo ∧ WellWritten reader o.object.lo o := by
  induction backup with
  | nil => exact absurd mem List.not_mem_nil
  | cons first rest ih =>
    rcases List.mem_cons.mp mem with rfl | mem
    · exact ⟨Nat.le_of_eq first.lo.symm, first.lo ▸ first⟩
    · obtain ⟨above, well⟩ := ih mem
      have := first.lo
      have := first.range
      exact ⟨by omega, well⟩

/-- A stretch is cut where its first part ends. -/
theorem split (backup : Backup reader start (objects ++ others)) :
    Backup reader start objects ∧ Backup reader (backupEnd start objects) others := by
  induction objects generalizing start with
  | nil => exact ⟨.nil, backup⟩
  | cons o objects ih =>
    cases backup with
    | cons first rest =>
      obtain ⟨one, other⟩ := ih rest
      exact ⟨.cons first one, other⟩

/-- An object starts where the objects before it end. -/
theorem lo_eq (backup : Backup reader start objects) {o : BackupObject} {i : Nat}
    (here : objects[i]? = some o) : o.object.lo = backupEnd start (objects.take i) := by
  obtain ⟨within, rfl⟩ := List.getElem?_eq_some_iff.mp here
  have parts : objects = objects.take i ++ (objects[i] :: objects.drop (i + 1)) := by
    rw [← List.drop_eq_getElem_cons within, List.take_append_drop]
  rw [parts] at backup
  obtain ⟨-, rest⟩ := backup.split
  cases rest with
  | cons first _ => exact first.lo

/-- Objects are written one after the other. -/
theorem ascending (backup : Backup reader start objects) :
    objects.Pairwise (·.object.hi < ·.object.lo) := by
  induction backup with
  | nil => exact .nil
  | cons first rest ih => exact .cons (fun o mem => (rest.written mem).1) ih

/-- Names sort in the order the objects were written. -/
theorem names_sorted (backup : Backup reader start objects) :
    (objects.map (·.object.name)).Pairwise (· < ·) := by
  rw [List.pairwise_map]
  refine backup.ascending.imp_of_mem fun first later below => ?_
  obtain ⟨-, before⟩ := backup.written first
  obtain ⟨-, after⟩ := backup.written later
  have := before.range
  have := after.range
  have := after.numbered
  rw [before.named, after.named]
  exact blobFilename_lt _ (by omega) (by omega)

/-- A name reads back as the range and the key it was written for. -/
theorem parse_eq (backup : Backup reader start objects) {o : BackupObject} (mem : o ∈ objects) :
    parseBlobName o.object.name reader.format.extension
      = some ⟨o.object.lo, o.object.hi, o.object.keyId⟩ := by
  obtain ⟨-, well⟩ := backup.written mem
  have := well.range
  have := well.numbered
  rw [well.named]
  exact parseBlobName_blobFilename _ (by omega) (by omega) fun id named => (well.keyed id named).1

/-- An object is read from the name it was written under. -/
theorem chainObject_eq (backup : Backup reader start objects) {o : BackupObject}
    (mem : o ∈ objects) : chainObject reader.format o.object.name = .ok o.object := by
  have := (backup.written mem).2.range
  simp only [chainObject, backup.parse_eq mem]
  rw [if_neg (by omega)]

/-- Objects that follow each other adjoin. -/
theorem adjoining_eq (backup : Backup reader start objects) :
    adjoining start (objects.map (·.object)) = .ok () := by
  induction backup with
  | nil => rfl
  | cons first rest ih =>
    have at_start := first.lo
    have inRange := first.numbered
    rw [List.map_cons, adjoining, if_neg (by omega), if_neg (by omega), addOne_eq (by omega)]
    exact ih

/-- No object needs a key that is missing. -/
theorem missingKeys_eq (backup : Backup reader start objects) :
    missingKeys reader.keyring (objects.map (·.object)) = [] := by
  unfold missingKeys
  induction backup with
  | nil => rfl
  | cons first rest ih =>
    rename_i o _
    rw [List.map_cons, List.foldl_cons]
    cases named : o.object.keyId with
    | none => exact ih
    | some id =>
      have held := (first.keyed id named).2
      simp only [held, Bool.true_eq_false, false_and, if_false]
      exact ih

/-- The first object of a stretch starts it. -/
theorem min_lo (backup : Backup reader start objects) (some_ : objects ≠ []) :
    ((objects.map (·.object)).map (·.lo)).min? = some start := by
  -- No other object starts before the first.
  rw [List.min?_eq_some_iff]
  constructor
  · cases backup with
    | nil => exact absurd rfl some_
    | cons first rest => simp [first.lo]
  · intro lo mem
    simp only [List.mem_map] at mem
    obtain ⟨_, ⟨o, mem, rfl⟩, rfl⟩ := mem
    exact (backup.written mem).1

/-- The names of a stretch are planned as that stretch. -/
theorem planChain_eq (backup : Backup reader start objects) (some_ : objects ≠ []) :
    planChain (objects.map (·.object.name)) reader.format start reader.keyring
      = .ok (objects.map (·.object)) := by
  have read : (objects.map (·.object.name)).mapM (chainObject reader.format)
      = .ok (objects.map (·.object)) := by
    rw [List.mapM_map]
    exact mapM_ok fun o mem => backup.chainObject_eq mem
  have least := backup.min_lo some_
  have sorted : (objects.map (·.object)).mergeSort (fun a b => a.entry.before b.entry)
      = objects.map (·.object) := by
    refine List.mergeSort_of_pairwise ?_
    rw [List.pairwise_map]
    refine backup.ascending.imp_of_mem fun {a b} memA memB below => ?_
    have := (backup.written memA).2.range
    rw [ChainEntry.before_iff]
    exact .inl (by show a.object.lo < b.object.lo; omega)
  unfold planChain
  rw [read]
  simp only [bind, Except.bind, least]
  rw [sorted, backup.adjoining_eq, backup.missingKeys_eq, if_neg (not_not_intro rfl)]
  rfl

/-- A listing from the last listed name on names what was written since. -/
theorem names_after (backup : Backup reader start (objects ++ others)) :
    ((objects ++ others).map (·.object.name)).filter
        (fun name => (objects.getLast?.map (·.object.name)).all (· < name))
      = others.map (·.object.name) := by
  have sorted := backup.names_sorted
  rw [List.map_append, List.pairwise_append] at sorted
  obtain ⟨within, -, across⟩ := sorted
  rw [List.map_append, List.filter_append]
  cases last : objects.getLast? with
  | none =>
    rw [List.getLast?_eq_none_iff.mp last]
    simp
  | some o =>
    have mem := List.mem_of_getLast? last
    -- No listed name comes after the last one, and every other name does.
    have old : (objects.map (·.object.name)).filter
        (fun name => ((some o).map (·.object.name)).all (· < name)) = [] := by
      rw [List.filter_eq_nil_iff]
      intro name listed after
      have after : o.object.name < name := by simpa using after
      obtain ⟨front, rfl⟩ := List.getLast?_eq_some_iff.mp last
      rw [List.map_append, List.pairwise_append] at within
      rw [List.map_append, List.mem_append] at listed
      rcases listed with earlier | same
      · have := within.2.2 name earlier o.object.name (by simp)
        exact absurd after (String.lt_asymm this)
      · have same : name = o.object.name := by simpa using same
        exact absurd (same ▸ after) (String.lt_irrefl _)
    have new : (others.map (·.object.name)).filter
        (fun name => ((some o).map (·.object.name)).all (· < name)) = others.map (·.object.name) := by
      rw [List.filter_eq_self]
      intro name listed
      simpa using across o.object.name (List.mem_map_of_mem mem) name listed
    rw [old, new, List.nil_append]

/-- Every object is found under its name. -/
theorem lookup_eq (backup : Backup reader start objects) {o : BackupObject} (mem : o ∈ objects) :
    (objects.map (·.blob)).lookup o.object.name = some o.bytes := by
  have distinct : ((objects.map (·.blob)).map (·.1)).Nodup := by
    rw [List.map_map]
    refine backup.names_sorted.imp ?_
    intro a b below same
    rw [same] at below
    exact String.lt_irrefl _ below
  exact lookup_of_mem distinct (List.mem_map_of_mem mem)

end Backup

section Objects

variable [EnvelopeLibraries] {reader : Reader} {object : ChainObject}

omit [EnvelopeLibraries] in
/-- Records that pass a check are in the object's range and in order. -/
theorem of_checkRecords {bad : String → RestoreError} {previous : Option Nat}
    {records : List Record} (passed : reader.checkRecords object bad previous records = .ok ()) :
    (∀ r ∈ records, object.lo ≤ r.sourceOffset ∧ ∀ p ∈ previous, p < r.sourceOffset)
      ∧ records.Pairwise (·.sourceOffset < ·.sourceOffset) := by
  induction records generalizing previous with
  | nil => exact ⟨by simp, .nil⟩
  | cons r records ih =>
    unfold Reader.checkRecords at passed
    split at passed
    · cases passed
    · rename_i above
      split at passed
      · cases passed
      · rename_i later
        split at passed
        · cases passed
        · obtain ⟨each, ordered⟩ := ih passed
          have after : ∀ p ∈ previous, p < r.sourceOffset := by
            intro p known
            rw [Option.mem_def] at known
            rw [known, Option.filter_eq_none_iff] at later
            simpa using later p rfl
          refine ⟨fun x mem => ?_, .cons (fun x mem => (each x mem).2 _ rfl) ordered⟩
          rcases List.mem_cons.mp mem with rfl | mem
          · exact ⟨Nat.le_of_not_lt above, after⟩
          · have := (each x mem).2 _ rfl
            exact ⟨(each x mem).1, fun p known => Nat.lt_trans (after p known) this⟩

/-- An object that passes its checks holds records, in order, in its range and up to its end. -/
theorem of_checkBytes {location : String} {bytes : Bytes} {records : List Record}
    (passed : reader.checkBytes object location bytes = .ok records) :
    (∃ last, records.getLast? = some last ∧ last.sourceOffset = object.hi)
      ∧ (∀ r ∈ records, object.lo ≤ r.sourceOffset)
      ∧ records.Pairwise (·.sourceOffset < ·.sourceOffset) := by
  unfold Reader.checkBytes at passed
  obtain ⟨decoded, -, passed⟩ := of_bind_ok passed
  cases last : decoded.getLast? with
  | none =>
    rw [last] at passed
    cases passed
  | some record =>
    rw [last] at passed
    by_cases named : record.sourceOffset = object.hi
    · simp only [named, ne_eq, not_true_eq_false, if_false] at passed
      obtain ⟨⟨⟩, checked, same⟩ := of_bind_ok passed
      cases same
      obtain ⟨each, ordered⟩ := of_checkRecords checked
      exact ⟨⟨record, last, named⟩, fun r mem => (each r mem).1, ordered⟩
    · simp only [ne_eq, named, not_false_eq_true, if_true] at passed
      cases passed

end Objects

section Positions

/-- How many records the first objects of a backup hold. -/
def recordsBefore (objects : List BackupObject) (i : Nat) : Nat :=
  ((objects.take i).map (·.records.length)).sum

/-- The records of a backup, object by object. -/
def backupRecords (objects : List BackupObject) : List Record := objects.flatMap (·.records)

variable {objects : List BackupObject} {o : BackupObject} {i j n : Nat}

/-- No object is before the first. -/
@[simp] theorem recordsBefore_zero : recordsBefore objects 0 = 0 := rfl

/-- One object further, its records are before as well. -/
theorem recordsBefore_succ (here : objects[i]? = some o) :
    recordsBefore objects (i + 1) = recordsBefore objects i + o.records.length := by
  obtain ⟨within, rfl⟩ := List.getElem?_eq_some_iff.mp here
  unfold recordsBefore
  rw [List.take_succ_eq_append_getElem within, List.map_append, List.sum_append]
  rfl

/-- Further on, no fewer records are before. -/
theorem recordsBefore_mono (further : i ≤ j) : recordsBefore objects i ≤ recordsBefore objects j := by
  obtain ⟨k, rfl⟩ := Nat.exists_eq_add_of_le further
  unfold recordsBefore
  rw [List.take_add, List.map_append, List.sum_append]
  exact Nat.le_add_right _ _

/-- The first objects hold the first records. -/
theorem length_backupRecords_take :
    (backupRecords (objects.take i)).length = recordsBefore objects i := by
  exact List.length_flatMap

/-- And they are those that are before the rest. -/
theorem take_backupRecords :
    (backupRecords objects).take (recordsBefore objects i) = backupRecords (objects.take i) := by
  have parts : backupRecords objects
      = backupRecords (objects.take i) ++ backupRecords (objects.drop i) := by
    unfold backupRecords
    rw [← List.flatMap_append, List.take_append_drop]
  rw [parts, ← length_backupRecords_take, List.take_left]

/-- Before the end of a backup are all its records. -/
theorem recordsBefore_length : recordsBefore objects objects.length = (backupRecords objects).length := by
  rw [← length_backupRecords_take, List.take_length]

/-- Before any object there are at most all the records. -/
theorem recordsBefore_le : recordsBefore objects i ≤ (backupRecords objects).length := by
  rw [← recordsBefore_length]
  rcases Nat.le_total i objects.length with within | beyond
  · exact recordsBefore_mono within
  · simp [recordsBefore, List.take_of_length_le beyond]

/-- The records from an object on start with its own. -/
theorem drop_backupRecords (here : objects[i]? = some o) :
    (backupRecords objects).drop (recordsBefore objects i)
      = o.records ++ backupRecords (objects.drop (i + 1)) := by
  obtain ⟨within, rfl⟩ := List.getElem?_eq_some_iff.mp here
  have parts : objects = objects.take i ++ (objects[i] :: objects.drop (i + 1)) := by
    rw [← List.drop_eq_getElem_cons within, List.take_append_drop]
  have split : backupRecords objects
      = backupRecords (objects.take i) ++ (objects[i].records
        ++ backupRecords (objects.drop (i + 1))) := by
    have whole := congrArg backupRecords parts
    simpa only [backupRecords, List.flatMap_append, List.flatMap_cons] using whole
  rw [split, ← length_backupRecords_take, List.drop_left]

/-- A record of an object is one of the backup's, at its place behind the objects before. -/
theorem getElem?_backupRecords (here : objects[i]? = some o) (k : Nat)
    (within : k < o.records.length) :
    (backupRecords objects)[recordsBefore objects i + k]? = o.records[k]? := by
  rw [← List.getElem?_drop, drop_backupRecords here, List.getElem?_append_left within]

/-- Every record before an object is in an object before it. -/
theorem exists_object {position : Nat} (below : position < recordsBefore objects j) :
    ∃ i o, i < j ∧ objects[i]? = some o ∧ recordsBefore objects i ≤ position
      ∧ position < recordsBefore objects (i + 1) := by
  -- Coming from the start, the first object that ends behind the position holds it.
  induction j with
  | zero => exact absurd below (Nat.not_lt_zero _)
  | succ j ih =>
    rcases Nat.lt_or_ge position (recordsBefore objects j) with earlier | here
    · obtain ⟨i, o, before, at_i, place⟩ := ih earlier
      exact ⟨i, o, Nat.lt_succ_of_lt before, at_i, place⟩
    · cases at_j : objects[j]? with
      | some o => exact ⟨j, o, Nat.lt_succ_self j, at_j, here, below⟩
      | none =>
        -- Behind the last object nothing more is before.
        have beyond : objects.length ≤ j := List.getElem?_eq_none_iff.mp at_j
        have same : recordsBefore objects (j + 1) = recordsBefore objects j := by
          unfold recordsBefore
          rw [List.take_of_length_le beyond, List.take_of_length_le (by omega)]
        omega

/-- A backup without holes has every record at its own offset. -/
def NoHoles (objects : List BackupObject) : Prop :=
  ∀ (i : Nat) (record : Record), (backupRecords objects)[i]? = some record →
    record.sourceOffset = i

variable [EnvelopeLibraries] {reader : Reader}

/-- An object of a backup holds at least one record, the last of them at its end. -/
theorem Backup.last_record {start : Nat} (backup : Backup reader start objects)
    (here : objects[i]? = some o) :
    ∃ k last, o.records.length = k + 1 ∧ o.records[k]? = some last
      ∧ last.sourceOffset = o.object.hi := by
  obtain ⟨-, well⟩ := backup.written (List.mem_of_getElem? here)
  obtain ⟨⟨last, at_end, offset⟩, -, -⟩ := of_checkBytes well.reads
  rw [List.getLast?_eq_getElem?] at at_end
  obtain ⟨within, -⟩ := List.getElem?_eq_some_iff.mp at_end
  exact ⟨o.records.length - 1, last, by omega, at_end, offset⟩

/-- Without holes, an object's range is the places of its records. -/
theorem NoHoles.place (holeFree : NoHoles objects) (backup : Backup reader 0 objects)
    (here : objects[i]? = some o) :
    o.object.lo = recordsBefore objects i ∧ o.object.hi + 1 = recordsBefore objects (i + 1) := by
  have upper : ∀ {i o}, objects[i]? = some o →
      o.object.hi + 1 = recordsBefore objects (i + 1) := by
    intro i o here
    obtain ⟨k, last, length, at_end, offset⟩ := backup.last_record here
    have place := getElem?_backupRecords here k (by omega)
    rw [at_end] at place
    rw [← offset, holeFree _ _ place, recordsBefore_succ here, length, Nat.add_assoc]
  refine ⟨?_, upper here⟩
  rw [backup.lo_eq here]
  cases i with
  | zero => rfl
  | succ i =>
    -- The object before this one ends where its records do.
    obtain ⟨within, -⟩ := List.getElem?_eq_some_iff.mp here
    have before : objects[i]? = some objects[i] := List.getElem?_eq_getElem (by omega)
    rw [List.take_succ_eq_append_getElem (by omega), backupEnd_eq, List.getLast?_concat]
    exact upper before

omit [EnvelopeLibraries] in
/-- In increasing order, each record is at least one further than the one before it. -/
theorem offset_ge {records : List Record} (ordered : records.Pairwise (·.sourceOffset < ·.sourceOffset))
    {lo : Nat} (above : ∀ r ∈ records, lo ≤ r.sourceOffset) {k : Nat} {record : Record}
    (here : records[k]? = some record) : lo + k ≤ record.sourceOffset := by
  induction records generalizing lo k with
  | nil => simp at here
  | cons r records ih =>
    cases k with
    | zero =>
      obtain rfl : r = record := by simpa using here
      exact above r List.mem_cons_self
    | succ k =>
      obtain ⟨first, rest⟩ := List.pairwise_cons.mp ordered
      have least := above r List.mem_cons_self
      have later := ih rest (fun x mem => (first x mem : r.sourceOffset + 1 ≤ _)) here
      omega

/-- A backup holds no more records than it covers positions. -/
theorem Backup.records_le {start : Nat} (backup : Backup reader start objects) :
    (backupRecords objects).length + start ≤ backupEnd start objects := by
  induction backup with
  | nil => simp [backupRecords, backupEnd]
  | cons first rest ih =>
    rename_i o rest_
    obtain ⟨⟨last, at_end, offset⟩, above, ordered⟩ := of_checkBytes first.reads
    rw [List.getLast?_eq_getElem?] at at_end
    have reached := offset_ge ordered above at_end
    have starts := first.lo
    have count : (backupRecords (o :: rest_)).length
        = o.records.length + (backupRecords rest_).length := by
      simp [backupRecords]
    rw [count, backupEnd]
    omega

/-- Every record of a backup has a place that a broker can number. -/
theorem Backup.length_lt {start : Nat} (backup : Backup reader start objects)
    (starts : start ≤ 2 ^ 63) : (backupRecords objects).length ≤ 2 ^ 63 := by
  have room := backup.records_le
  have ends : backupEnd start objects ≤ 2 ^ 63 := by
    rw [backupEnd_eq]
    cases last : objects.getLast? with
    | none => exact starts
    | some o => exact (backup.written (List.mem_of_getLast? last)).2.numbered
  omega

end Positions

end MirrorV3
