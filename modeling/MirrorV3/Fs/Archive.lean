import MirrorV3.Core.LogSource
import MirrorV3.Fs.Chain

/-! What an append destination should be: a log cut into adjoining objects, read back in order. -/

namespace MirrorV3

/-- An object of a directory: its name and its content. -/
abbrev BlobObject := String × Bytes

variable [EnvelopeLibraries]

/-- The records of the object an entry names. -/
def readEntry (objects : List BlobObject) (format : Format) (keyring : Option Keyring)
    (entry : ChainEntry) : Except BlobError (List Record) :=
  match objects.lookup entry.name with
  | some bytes => decodeBlob entry.name entry.name bytes format keyring
  | none => .error (.store entry.name)

/-- The records of a directory's objects, decoded in the order of a chain's entries. -/
def readChain (objects : List BlobObject) (entries : List ChainEntry) (format : Format)
    (keyring : Option Keyring) : Except BlobError (List Record) := do
  return (← entries.mapM (readEntry objects format keyring)).flatten

/--
A directory that holds a log up to a position, cut into objects.

Objects are listed in the order they were put.
Each continues where the one before it ended, ends at a record of the log, and decodes to the
records in its range.
-/
inductive Archive (format : Format) (keyring : Option Keyring) (log : Log) :
    List BlobObject → Nat → Prop where
  | empty : Archive format keyring log [] 0
  | extend {objects : List BlobObject} {lo : Nat} (earlier : Archive format keyring log objects lo)
      (last : Record) (keyId : Option String) (bytes : Bytes)
      (ends : last ∈ log.records) (ordered : lo ≤ last.sourceOffset)
      (named : ∀ id ∈ keyId, isKeyId id = true)
      (decodes : ∀ location,
        decodeBlob (blobFilename lo last.sourceOffset keyId format.extension) location bytes format
          keyring = .ok (log.between lo (last.sourceOffset + 1))) :
      Archive format keyring log
        (objects ++ [(blobFilename lo last.sourceOffset keyId format.extension, bytes)])
        (last.sourceOffset + 1)

/-- The place in the chain of a name that is accepted in a listing. -/
def entryOf (format : Format) (name : String) : ChainEntry :=
  (chainEntry format name).toOption.getD ⟨0, 0, name⟩

section Names

omit [EnvelopeLibraries]

/-- The extension of a name is what stands after its last dot. -/
theorem fileExtension_blobFilename (lo hi : Nat) (keyId : Option String) (format : Format) :
    fileExtension (blobFilename lo hi keyId format.extension) = some format.extension := by
  have dotless : '.' ∉ format.extension.toList := by cases format <;> decide
  cases keyId with
  | none =>
    rw [fileExtension, blobFilename, batchFilename, String.toList_ofList,
      Text.afterLast_append _ dotless]
    simp
  | some id =>
    rw [fileExtension, blobFilename, String.toList_ofList, Text.afterLast_append _ dotless]
    simp

/-- A name the mirror wrote is accepted in a listing, as the range it was written for. -/
theorem chainEntry_blobFilename {lo hi : Nat} {keyId : Option String} (format : Format)
    (ordered : lo ≤ hi) (high : hi < 2 ^ 64) (named : ∀ id ∈ keyId, isKeyId id = true) :
    chainEntry format (blobFilename lo hi keyId format.extension)
      = .ok ⟨lo, hi, blobFilename lo hi keyId format.extension⟩ := by
  have parsed := parseBlobName_blobFilename format.extension (by omega : lo < 2 ^ 64) high named
  simp [chainEntry, fileExtension_blobFilename, parsed, Option.filter, Nat.not_lt.mpr ordered]

/-- Appending an entry to a contiguous chain continues it. -/
theorem contiguous_append {start next : Nat} {entries : List ChainEntry} {entry : ChainEntry}
    (before : contiguous start entries = .ok next) (adjoins : entry.lo = next) :
    contiguous start (entries ++ [entry]) = .ok (addOne entry.hi) := by
  induction entries generalizing start with
  | nil =>
    have here : start = next := Except.ok.inj before
    simp [contiguous, adjoins, here]
  | cons first entries ih =>
    by_cases starts : first.lo = start
    · have rest : contiguous (addOne first.hi) entries = .ok next := by
        simpa [contiguous, starts] using before
      simpa [contiguous, starts] using ih rest
    · simp [contiguous, starts] at before

/-- One entry stands before another by range and then by name. -/
theorem ChainEntry.before_iff {a b : ChainEntry} :
    a.before b = true ↔
      a.lo < b.lo ∨ a.lo = b.lo ∧ (a.hi < b.hi ∨ a.hi = b.hi ∧ a.name ≤ b.name) := by
  simp [before]

/-- The order of entries is transitive. -/
theorem ChainEntry.before_trans {a b c : ChainEntry} (ab : a.before b = true)
    (bc : b.before c = true) : a.before c = true := by
  rw [before_iff] at ab bc ⊢
  rcases ab with ab | ⟨ab, ab' | ⟨ab', names⟩⟩ <;> rcases bc with bc | ⟨bc, bc' | ⟨bc', names'⟩⟩
  all_goals first
    | exact .inl (by omega)
    | exact .inr ⟨by omega, .inl (by omega)⟩
    | exact .inr ⟨by omega, .inr ⟨by omega, String.le_trans names names'⟩⟩

/-- Any two entries are ordered one way or the other. -/
theorem ChainEntry.before_total (a b : ChainEntry) : (a.before b || b.before a) = true := by
  rw [Bool.or_eq_true, before_iff, before_iff]
  rcases String.le_total a.name b.name with name | name <;> grind

/-- Entries that each stand before the other are one entry. -/
theorem ChainEntry.before_antisymm {a b : ChainEntry} (ab : a.before b = true)
    (ba : b.before a = true) : a = b := by
  rw [before_iff] at ab ba
  have lo : a.lo = b.lo := by omega
  have hi : a.hi = b.hi := by omega
  have name : a.name = b.name := String.le_antisymm (by grind) (by grind)
  cases a
  cases b
  simp_all

/-- Every name of a listing is read when every object's name is. -/
theorem mapM_chainEntry {format : Format} {objects : List BlobObject} {names : List String}
    (read : ∀ object ∈ objects, chainEntry format object.1 = .ok (entryOf format object.1)
      ∧ (entryOf format object.1).name = object.1)
    (listed : names.Perm (objects.map (·.1))) :
    names.mapM (chainEntry format) = .ok (names.map (entryOf format)) := by
  refine Results.mapM_ok fun name mem => ?_
  obtain ⟨object, put, same⟩ := List.mem_map.mp (listed.mem_iff.mp mem)
  rw [← same]
  exact (read object put).1

/-- Sorting a listing gives the entries in the order they were put, if that order is sorted. -/
theorem mergeSort_entries {before : ChainEntry → ChainEntry → Bool} {format : Format}
    {objects : List BlobObject} {names : List String}
    (trans : ∀ a b c, before a b = true → before b c = true → before a c = true)
    (total : ∀ a b, (before a b || before b a) = true)
    (antisymm : ∀ a ∈ objects.map (entryOf format ·.1), ∀ b ∈ objects.map (entryOf format ·.1),
      before a b = true → before b a = true → a = b)
    (sorted : (objects.map (entryOf format ·.1)).Pairwise (before · · = true))
    (listed : names.Perm (objects.map (·.1))) :
    (names.map (entryOf format)).mergeSort before = objects.map (entryOf format ·.1) := by
  have shuffled : ((names.map (entryOf format)).mergeSort before).Perm
      (objects.map (entryOf format ·.1)) := by
    refine (List.mergeSort_perm _ _).trans ?_
    simpa [Function.comp_def] using listed.map (entryOf format)
  exact List.Perm.eq_of_pairwise
    (fun a b memA memB => antisymm a (shuffled.mem_iff.mp memA) b memB)
    (List.pairwise_mergeSort trans total _) sorted shuffled

/-- Where no two objects share a name, looking one up by its name finds its content. -/
theorem lookup_of_mem {objects : List BlobObject} {object : BlobObject}
    (distinct : (objects.map (·.1)).Nodup) (mem : object ∈ objects) :
    objects.lookup object.1 = some object.2 := by
  obtain ⟨before, after, split⟩ := List.append_of_mem mem
  rw [split, List.map_append, List.map_cons, List.nodup_append] at distinct
  refine List.lookup_eq_some_iff.mpr ⟨before, after, split, fun other mem => ?_⟩
  have apart := distinct.2.2 other.1 (List.mem_map_of_mem mem) object.1 (by simp)
  simpa using apart.symm

end Names

namespace Archive

variable {format : Format} {keyring : Option Keyring} {log : Log} {objects : List BlobObject}
  {durable : Nat}

/-- The first objects of an archive are an archive themselves. -/
theorem take (archive : Archive format keyring log objects durable) (count : Nat) :
    ∃ position, Archive format keyring log (objects.take count) position := by
  induction archive with
  | empty => exact ⟨0, by simpa using Archive.empty⟩
  | @extend objects lo earlier last keyId bytes ends ordered named decodes ih =>
    by_cases all : objects.length < count
    · refine ⟨last.sourceOffset + 1, ?_⟩
      rw [List.take_of_length_le (by simpa using Nat.succ_le_of_lt all)]
      exact .extend earlier last keyId bytes ends ordered named decodes
    · rw [List.take_append_of_le_length (by omega)]
      exact ih

/--
An archive's names are the entries of a contiguous chain.

The entries stand in the order the objects were put, each below the archive's end.
-/
theorem entries (archive : Archive format keyring log objects durable) :
    (∀ object ∈ objects, chainEntry format object.1 = .ok (entryOf format object.1)
        ∧ (entryOf format object.1).name = object.1)
      ∧ contiguous 0 (objects.map (entryOf format ·.1)) = .ok durable
      ∧ (objects.map (entryOf format ·.1)).Pairwise (·.lo < ·.lo)
      ∧ ∀ entry ∈ objects.map (entryOf format ·.1), entry.lo < durable := by
  -- By induction on the archive: the newest object starts where the chain before it ends.
  induction archive with
  | empty => exact ⟨by simp, rfl, .nil, by simp⟩
  | @extend objects lo earlier last keyId bytes ends ordered named decodes ih =>
    obtain ⟨read, chained, sorted, below⟩ := ih
    have high : last.sourceOffset < 2 ^ 64 := by
      have := log.numbered last ends
      omega
    have entry := chainEntry_blobFilename format ordered high named
    have place : entryOf format (blobFilename lo last.sourceOffset keyId format.extension)
        = ⟨lo, last.sourceOffset, blobFilename lo last.sourceOffset keyId format.extension⟩ := by
      rw [entryOf, entry]
      rfl
    rw [List.map_append, List.map_singleton, place]
    refine ⟨?_, ?_, ?_, ?_⟩
    · intro object mem
      rcases List.mem_append.mp mem with old | new
      · exact read object old
      · rw [List.mem_singleton.mp new, place]
        exact ⟨entry, rfl⟩
    · rw [contiguous_append chained rfl, log.addOne_offset ends]
    · exact List.pairwise_append.mpr ⟨sorted, by simp, by simpa using below⟩
    · intro entry mem
      rcases List.mem_append.mp mem with old | new
      · exact Nat.lt_of_lt_of_le (below entry old) (by omega)
      · rw [List.mem_singleton.mp new]
        exact Nat.lt_succ_of_le ordered

/-- No two objects of an archive share a name. -/
theorem names_nodup (archive : Archive format keyring log objects durable) :
    (objects.map (·.1)).Nodup := by
  -- Objects of one name would start at the same offset.
  have sorted := archive.entries.2.2.1
  rw [List.pairwise_map] at sorted
  refine List.pairwise_map.mpr (sorted.imp fun below same => ?_)
  rw [same] at below
  exact Nat.lt_irrefl _ below

/-- A name that continues an archive is not one of its names. -/
theorem fresh (archive : Archive format keyring log objects durable) {hi : Nat}
    {keyId : Option String} (ordered : durable ≤ hi) (high : hi < 2 ^ 64)
    (named : ∀ id ∈ keyId, isKeyId id = true) :
    blobFilename durable hi keyId format.extension ∉ objects.map (·.1) := by
  intro taken
  obtain ⟨object, mem, same⟩ := List.mem_map.mp taken
  have place : entryOf format object.1 = ⟨durable, hi, object.1⟩ := by
    rw [same, entryOf, chainEntry_blobFilename format ordered high named]
    rfl
  have below := archive.entries.2.2.2 _ (List.mem_map_of_mem mem)
  rw [place] at below
  exact Nat.lt_irrefl _ below

/-- However a directory lists its objects, the chain is checked in the order they were put. -/
theorem chainEntries_eq (archive : Archive format keyring log objects durable)
    {names : List String} (listed : names.Perm (objects.map (·.1))) :
    chainEntries names format none = .ok (objects.map (entryOf format ·.1)) := by
  obtain ⟨read, -, sorted, -⟩ := archive.entries
  have inOrder := mergeSort_entries (fun a b c => @ChainEntry.before_trans a b c)
    ChainEntry.before_total (fun a _ b _ => ChainEntry.before_antisymm)
    (sorted.imp fun below => by simp [ChainEntry.before, below]) listed
  simp [chainEntries, mapM_chainEntry read listed, inOrder, bind, Except.bind, pure, Except.pure]

/-- However a directory lists its objects, the chain is valid and ends where the archive does. -/
theorem validateChain_eq (archive : Archive format keyring log objects durable)
    {names : List String} (listed : names.Perm (objects.map (·.1))) :
    validateChain names format none
      = .ok ⟨durable, none, tailOf (objects.map (entryOf format ·.1))⟩ := by
  simp [validateChain, archive.chainEntries_eq listed, archive.entries.2.1, bind, Except.bind,
    pure, Except.pure]

/-- Object by object, an archive decodes to the log up to its end. -/
theorem decode_objects (archive : Archive format keyring log objects durable) :
    ∃ batches, objects.mapM (fun object => decodeBlob object.1 object.1 object.2 format keyring)
        = .ok batches ∧ batches.flatten = log.between 0 durable := by
  induction archive with
  | empty => exact ⟨[], rfl, by simp [Log.between]⟩
  | @extend objects lo earlier last keyId bytes ends ordered named decodes ih =>
    obtain ⟨batches, read, flat⟩ := ih
    refine ⟨batches ++ [log.between lo (last.sourceOffset + 1)], ?_, ?_⟩
    · simp [List.mapM_append, read, List.mapM_cons, decodes, bind, Except.bind, pure, Except.pure]
    · rw [List.flatten_append, flat, List.flatten_singleton]
      exact Window.between_append log.increasing (Nat.zero_le lo) (by omega)

/-- Looking an object up by its name finds its content. -/
theorem lookup_object (archive : Archive format keyring log objects durable)
    {object : BlobObject} (mem : object ∈ objects) : objects.lookup object.1 = some object.2 :=
  lookup_of_mem archive.names_nodup mem

/-- Read in chain order, an archive is the log up to its end. -/
theorem readChain_eq (archive : Archive format keyring log objects durable) :
    readChain objects (objects.map (entryOf format ·.1)) format keyring
      = .ok (log.between 0 durable) := by
  obtain ⟨batches, read, flat⟩ := archive.decode_objects
  have each : ∀ object ∈ objects, readEntry objects format keyring (entryOf format object.1)
      = decodeBlob object.1 object.1 object.2 format keyring := by
    intro object mem
    rw [readEntry, (archive.entries.1 object mem).2, archive.lookup_object mem]
  have all := Results.mapM_congr each
  rw [read] at all
  simp [readChain, List.mapM_map, Function.comp_def, all, flat, bind, Except.bind, pure,
    Except.pure]

end Archive

end MirrorV3
