import MirrorV3.Restore.Produce

/-! What a verify pass establishes, and that an object with the same bytes reads the same again. -/

namespace MirrorV3

open Effect Results

/-- Objects with one hash are one object. -/
class LawfulByteDigest [ByteDigest] : Prop where
  digest_injective : Function.Injective ByteDigest.digest

variable [EnvelopeLibraries]

/-- Where an object lives only names it in messages. -/
theorem decodeBlob_location {name location : String} {bytes : Bytes} {format : Format}
    {keyring : Option Keyring} {records : List Record}
    (decoded : decodeBlob name location bytes format keyring = .ok records)
    (location' : String) : decodeBlob name location' bytes format keyring = .ok records := by
  -- In every branch a location occurs in errors alone.
  simp only [decodeBlob] at decoded ⊢
  generalize (parseBlobName name format.extension).bind (·.keyId) = keyId at decoded ⊢
  cases keyId with
  | none => cases clear : decodeBatch format bytes <;> simp_all
  | some id =>
    cases keyring with
    | none => simp at decoded
    | some ring =>
      cases found : ring.get id with
      | error message => simp [found] at decoded
      | ok key => cases encrypted : decodeBatchEncrypted bytes key <;> simp_all

namespace Reader

variable {reader : Reader} {object : ChainObject} {records : List Record} {bytes : Bytes}

omit [EnvelopeLibraries] in
/-- Records that pass a check pass it however its failures are worded. -/
theorem checkRecords_bad {bad bad' : String → RestoreError} {previous : Option Nat}
    (passed : reader.checkRecords object bad previous records = .ok ()) :
    reader.checkRecords object bad' previous records = .ok () := by
  induction records generalizing previous with
  | nil => rfl
  | cons r records ih =>
    unfold checkRecords at passed ⊢
    split at passed
    · cases passed
    · rename_i above
      rw [if_neg above]
      split at passed
      · cases passed
      · split at passed
        · cases passed
        · rename_i ours
          simp only [if_neg ours]
          exact ih passed

/-- An object reads the same from wherever its bytes are. -/
theorem checkBytes_location {location : String}
    (read : reader.checkBytes object location bytes = .ok records) (location' : String) :
    reader.checkBytes object location' bytes = .ok records := by
  unfold checkBytes at read ⊢
  obtain ⟨decoded, decodes, rest⟩ := of_bind_ok read
  have here : decodeBlob object.name location bytes reader.format reader.keyring = .ok decoded := by
    cases outcome : decodeBlob object.name location bytes reader.format reader.keyring with
    | ok found =>
      rw [outcome] at decodes
      exact congrArg Except.ok (Except.ok.inj decodes)
    | error e =>
      rw [outcome] at decodes
      cases decodes
  rw [decodeBlob_location here location']
  cases last : decoded.getLast? with
  | none =>
    rw [last] at rest
    cases rest
  | some record =>
    rw [last] at rest
    by_cases named : record.sourceOffset = object.hi
    · simp only [named, ne_eq, not_true_eq_false, if_false] at rest
      obtain ⟨⟨⟩, passed, same⟩ := of_bind_ok rest
      simp only [Except.mapError, bind, Except.bind, last, named, ne_eq, not_true_eq_false, if_false,
        checkRecords_bad passed]
      exact same
    · simp only [ne_eq, named, not_false_eq_true, if_true] at rest
      cases rest

end Reader

section Pass

variable {σ : Type} [BlobStore σ] [ByteDigest]

/-- The records of a backup, as a verify pass read them to sum its objects up. -/
inductive Verified (reader : Reader) :
    List ChainObject → List ObjectSummary → List Record → Prop where
  | nil : Verified reader [] [] []
  | cons {object : ChainObject} {location : String} {bytes : Bytes} {records : List Record}
      {chain : List ChainObject} {objects : List ObjectSummary} {backup : List Record}
      (read : reader.checkBytes object location bytes = .ok records)
      (rest : Verified reader chain objects backup) :
      Verified reader (object :: chain)
        (Reader.summarize object records (ByteDigest.digest bytes) :: objects) (records ++ backup)

variable {reader : Reader} {chain : List ChainObject} {objects : List ObjectSummary}
  {backup : List Record}

omit [BlobStore σ] in
/-- Every object is summed up. -/
theorem Verified.length_eq (verified : Verified reader chain objects backup) :
    chain.length = objects.length := by
  induction verified with
  | nil => rfl
  | cons read rest ih => simp [ih]

omit [BlobStore σ] in
/-- The summaries count every record. -/
theorem Verified.records_eq (verified : Verified reader chain objects backup) :
    (objects.map (·.records)).sum = backup.length := by
  induction verified with
  | nil => rfl
  | cons read rest ih => simp [Reader.summarize, ih]

/-- An object that is read holds the records its bytes decode to. -/
theorem readObjectWithDigest_spec (object : ChainObject) (s : σ) :
    wp (reader.readObjectWithDigest object)
      (fun read _ => ∃ location bytes, reader.checkBytes object location bytes = .ok read.1
        ∧ read.2 = ByteDigest.digest bytes) (fun _ _ => True) s := by
  simp only [Reader.readObjectWithDigest, wp_bind, wp_get, wp_focus, id, wp_ofExcept, wp_pure]
  apply wp_any
  · intro bytes s'
    cases checked : reader.checkBytes object (BlobStore.location s object.name) bytes with
    | ok records => exact ⟨_, bytes, checked, rfl⟩
    | error e => trivial
  · intro _ _
    trivial

/-- The objects of a chain that were summed up were read one after the other. -/
theorem readSummaries_spec (chain : List ChainObject) (s : σ) :
    wp (reader.readSummaries chain)
      (fun objects _ => ∃ backup, Verified reader chain objects backup) (fun _ _ => True) s := by
  induction chain generalizing s with
  | nil => exact ⟨[], .nil⟩
  | cons object chain ih =>
    simp only [Reader.readSummaries, wp_bind, wp_pure]
    apply wp_mono (readObjectWithDigest_spec object s)
    · rintro read s' ⟨location, bytes, checked, hashed⟩
      apply wp_mono (ih s')
      · rintro objects _ ⟨backup, rest⟩
        rw [hashed]
        exact ⟨read.1 ++ backup, .cons checked rest⟩
      · intro _ _ _
        trivial
    · intro _ _ _
      trivial

/-- A summary that a verify pass answers is of the records it read. -/
theorem verify_spec (chain : List ChainObject) (s : σ) :
    wp (reader.verify chain) (fun summary _ => ∃ backup,
      Verified reader chain summary.objects backup ∧ summary.records = backup.length)
      (fun _ _ => True) s := by
  unfold Reader.verify
  split
  · simp only [wp_bind, wp_pure]
    apply wp_mono (readSummaries_spec chain s)
    · rintro objects _ ⟨backup, verified⟩
      exact ⟨backup, verified, verified.records_eq⟩
    · intro _ _ _
      trivial
  · trivial

end Pass

end MirrorV3
