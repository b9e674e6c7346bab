import Mathlib.Data.List.Infix
import MirrorV3.Fs.Chain
import MirrorV3.Lib.Results
import MirrorV3.Lib.Utf8
import MirrorV3.S3.Directory

/-! Names sort, byte by byte, as the ranges they say, so a listing from a name is what comes later. -/

namespace MirrorV3

/-- What reading a directory of the file system gives. -/
inductive ReadDir where
  | missing
  | failed (message : String)
  /-- The file names, each of which may fail to be read. -/
  | entries (names : List (Except String String))

namespace FsStore

/-- An I/O error at a path. -/
def ioError (path message : String) : BlobError := .store s!"filesystem io {path}: {message}"

/-- Whether a name is that of a write that did not reach its rename. -/
def isTemporary (name : String) : Bool := decide (".tmp.".toList <:+: name.toList)

/-- Read the name of one entry. -/
def readEntry (dir : String) : Except String String → Except BlobError String
  | .ok name => .ok name
  | .error message => .error (ioError dir message)

/-- Names in the directory, without temporary files; a missing directory is an empty one. -/
def listSync (dir : String) : ReadDir → Except BlobError (List String)
  | .missing => .ok []
  | .failed message => .error (ioError dir message)
  | .entries names => do
    let names ← names.mapM (readEntry dir)
    return names.filter fun name => !isTemporary name

/-- The names that sort after a given one, or all of them. -/
def listAfter (dir : String) (read : ReadDir) (after : Option String) :
    Except BlobError (List String) := do
  let names ← listSync dir read
  return match after with
    | some after => names.filter fun name => decide (after < name)
    | none => names

end FsStore

/-- The order of two names as their bytes compare. -/
def ByteLess (a b : String) : Prop := a.toUTF8.data.toList < b.toUTF8.data.toList

/-- Strings are ordered as their bytes are. -/
theorem byteLess_iff {a b : String} : ByteLess a b ↔ a < b := by
  rw [ByteLess, Utf8.toUTF8_eq, Utf8.toUTF8_eq, Utf8.encode_lt_encode_iff, String.lt_iff]

/-- What an object's name may say: positions of `u64`, and a key id a directory may hold. -/
structure BlobName.Writable (blob : BlobName) : Prop where
  low : blob.lo < 2 ^ 64
  high : blob.hi < 2 ^ 64
  named : ∀ id ∈ blob.keyId, isKeyId id = true

/-- The name an object is written under. -/
def BlobName.filename (blob : BlobName) (format : Format) : String :=
  blobFilename blob.lo blob.hi blob.keyId format.extension

/-- Objects that cover positions, each of them after those of the objects before it. -/
structure InOrder (chain : List BlobName) : Prop where
  writable : ∀ blob ∈ chain, blob.Writable
  covers : ∀ blob ∈ chain, blob.lo ≤ blob.hi
  later : chain.Pairwise fun a b => a.hi < b.lo

section Order

variable {format : Format} {a b : BlobName}

/-- Of two disjoint ranges the one that comes first has the name that sorts first. -/
theorem filename_lt_iff (writable : a.Writable) (writable' : b.Writable) (covers : a.lo ≤ a.hi)
    (covers' : b.lo ≤ b.hi) (disjoint : a.hi < b.lo ∨ b.hi < a.lo) :
    a.filename format < b.filename format ↔ a.hi < b.lo := by
  constructor
  · intro less
    rcases disjoint with before | after
    · exact before
    · -- A name cannot sort both before and after another.
      have greater : b.filename format < a.filename format :=
        blobFilename_lt format.extension (by omega) writable.low
      exact absurd greater (String.lt_asymm less)
  · intro before
    exact blobFilename_lt format.extension (by omega) writable'.low

/-- The names that sort after one of a chain are those of the objects behind it. -/
theorem filter_after {before after : List BlobName} {blob : BlobName}
    (ordered : InOrder (before ++ blob :: after)) :
    ((before ++ blob :: after).map (·.filename format)).filter
        (fun name => decide (blob.filename format < name))
      = after.map (·.filename format) := by
  obtain ⟨writable, covers, later⟩ := ordered
  obtain ⟨-, behind, ahead⟩ := List.pairwise_append.mp later
  have decides : ∀ other ∈ before ++ blob :: after, blob.hi < other.lo ∨ other.hi < blob.lo →
      (blob.filename format < other.filename format ↔ blob.hi < other.lo) := by
    intro other mem disjoint
    exact filename_lt_iff (writable blob (by simp)) (writable other mem) (covers blob (by simp))
      (covers other mem) disjoint
  have dropped : (before.map (·.filename format)).filter
      (fun name => decide (blob.filename format < name)) = [] := by
    rw [List.filter_eq_nil_iff]
    intro name mem
    obtain ⟨other, listed, rfl⟩ := List.mem_map.mp mem
    have first := ahead other listed blob (by simp)
    have width := covers blob (by simp)
    have width' := covers other (by simp [listed])
    rw [decide_eq_true_eq, decides other (by simp [listed]) (.inr first)]
    omega
  have kept : (after.map (·.filename format)).filter
      (fun name => decide (blob.filename format < name)) = after.map (·.filename format) := by
    rw [List.filter_eq_self]
    intro name mem
    obtain ⟨other, listed, rfl⟩ := List.mem_map.mp mem
    have next := List.rel_of_pairwise_cons behind listed
    rw [decide_eq_true_eq, decides other (by simp [listed]) (.inl next)]
    exact next
  -- A name does not sort after itself.
  have self : decide (blob.filename format < blob.filename format) = false := by simp
  rw [List.map_append, List.map_cons, List.filter_append, dropped, List.nil_append,
    List.filter_cons, self, kept]
  rfl

/-- No name of an object is that of a temporary file. -/
theorem isTemporary_filename (writable : a.Writable) :
    FsStore.isTemporary (a.filename format) = false := by
  have dotless : '.' ∉ format.extension.toList := by cases format <;> decide
  have range := dot_notMem_rangeText a.lo a.hi
  have noDot : ∀ {text : List Char}, '.' ∉ text → text.count '.' = 0 := List.count_eq_zero.mpr
  rw [FsStore.isTemporary, decide_eq_false_iff_not]
  rintro ⟨before, after, split⟩
  -- The mark has two dots in it, and a name has at most that many.
  have dots : (a.filename format).toList.count '.' = before.count '.' + 2 + after.count '.' := by
    rw [← split, List.count_append, List.count_append]
    rfl
  cases key : a.keyId with
  | none =>
    have written : (a.filename format).toList
        = rangeText a.lo a.hi ++ '.' :: format.extension.toList := by
      rw [BlobName.filename, key, blobFilename, batchFilename, String.toList_ofList]
    rw [written, List.count_append, List.count_cons_self, noDot range, noDot dotless] at dots
    omega
  | some id =>
    have plain : '.' ∉ id.toList := fun mem =>
      absurd (mem_of_isKeyId (writable.named id key) mem) (by decide)
    have written : (a.filename format).toList
        = rangeText a.lo a.hi ++ '.' :: 'k' :: '-' :: (id.toList ++ '.' :: format.extension.toList) := by
      rw [BlobName.filename, key, blobFilename, String.toList_ofList]
      simp
    -- So the first dot of the name is that of the mark, and a different letter follows it.
    have lead : '.' ∉ before := by
      rw [written, List.count_append, List.count_cons_self,
        List.count_cons_of_ne (by decide), List.count_cons_of_ne (by decide), List.count_append,
        List.count_cons_self, noDot range, noDot plain, noDot dotless] at dots
      exact List.count_eq_zero.mp (by omega)
    have first : (rangeText a.lo a.hi ++ '.' :: 'k' :: '-' ::
        (id.toList ++ '.' :: format.extension.toList)).dropWhile (· ≠ '.')
        = (before ++ ('.' :: "tmp.".toList ++ after)).dropWhile (· ≠ '.') := by
      rw [← written, ← split]
      simp
    rw [List.dropWhile_append_of_pos fun c mem => by simpa using fun same : c = '.' => range (same ▸ mem),
      List.dropWhile_append_of_pos fun c mem => by simpa using fun same : c = '.' => lead (same ▸ mem)]
      at first
    simp at first

end Order

section Later

variable {format : Format} {before after : List BlobName} {blob : BlobName}

/-- In a directory with temporary files left about, what is listed after an object comes later. -/
theorem FsStore.listAfter_chain (ordered : InOrder (before ++ blob :: after)) (dir : String)
    {names temporaries : List String} (left : ∀ name ∈ temporaries, isTemporary name = true)
    (held : names.Perm ((before ++ blob :: after).map (·.filename format) ++ temporaries)) :
    ∃ later, listAfter dir (.entries (names.map .ok)) (some (blob.filename format)) = .ok later ∧
      later.Perm (after.map (·.filename format)) := by
  -- The entries that are no temporaries are the objects, in whatever order they are read.
  have listed : listSync dir (.entries (names.map .ok))
      = .ok (names.filter fun name => !isTemporary name) := by
    have each : (names.map Except.ok).mapM (readEntry dir) = .ok names :=
      Results.mapM_map_ok fun _ _ => rfl
    rw [listSync, each]
    rfl
  have objects : (names.filter fun name => !isTemporary name).Perm
      ((before ++ blob :: after).map (·.filename format)) := by
    have kept := held.filter fun name => !isTemporary name
    have whole : ((before ++ blob :: after).map (·.filename format)).filter
        (fun name => !isTemporary name) = (before ++ blob :: after).map (·.filename format) := by
      rw [List.filter_eq_self]
      intro name mem
      obtain ⟨other, among, rfl⟩ := List.mem_map.mp mem
      simp [isTemporary_filename (ordered.writable other among)]
    have gone : temporaries.filter (fun name => !isTemporary name) = [] := by
      rw [List.filter_eq_nil_iff]
      intro name mem
      simp [left name mem]
    rw [List.filter_append, whole, gone, List.append_nil] at kept
    exact kept
  rw [listAfter, listed]
  refine ⟨_, rfl, ?_⟩
  have later := objects.filter fun name => decide (blob.filename format < name)
  rw [filter_after ordered] at later
  exact later

/-- In a directory of a bucket that finds what is put, what is listed after an object comes later. -/
theorem S3Store.listAfter_chain [ObjectPaths] (ordered : InOrder (before ++ blob :: after))
    {dir : Path} (stays : Stays dir) {s : S3Store} {names : List String}
    (holds : s.Holds dir names)
    (held : names.Perm ((before ++ blob :: after).map (·.filename format))) :
    ∃ later, BlobStore.listAfter (some (blob.filename format)) s = .ok later s ∧
      later.Perm (after.map (·.filename format)) := by
  have named : IsBlobName (blob.filename format) :=
    ⟨_, _, _, format, (ordered.writable blob (by simp)).named, rfl⟩
  -- Paths in the directory sort as the names do.
  have listed := holds.listing stays
    (fun path => decide ((pathIn dir (blob.filename format)).raw < path.raw))
    (fun name => decide (blob.filename format < name)) fun name mem =>
      decide_eq_decide.mpr (stays.pathIn_lt_iff named (holds.named name mem))
  refine ⟨_, rfl, ?_⟩
  rw [S3Store.path, holds.here]
  have later := held.filter fun name => decide (blob.filename format < name)
  rw [filter_after ordered] at later
  exact listed.trans later

end Later

/-- Names read back as what they were written from, no two objects share one, names of disjoint
ranges sort byte by byte as the ranges do, and so a listing after an object of a chain, on disk or
in a bucket, is what comes later in the chain. -/
theorem filename_sorts [ObjectPaths] (format : Format) :
    (∀ blob : BlobName, blob.Writable →
      parseBlobName (blob.filename format) format.extension = some blob) ∧
    (∀ a b : BlobName, a.Writable → b.Writable → a.filename format = b.filename format → a = b) ∧
    (∀ a b : BlobName, a.Writable → b.Writable → a.lo ≤ a.hi → b.lo ≤ b.hi →
      a.hi < b.lo ∨ b.hi < a.lo →
        (ByteLess (a.filename format) (b.filename format) ↔ a.hi < b.lo)) ∧
    (∀ before blob after, InOrder (before ++ blob :: after) →
      ∀ (dir : String) (names temporaries : List String),
      (∀ name ∈ temporaries, FsStore.isTemporary name = true) →
      names.Perm ((before ++ blob :: after).map (·.filename format) ++ temporaries) →
        ∃ later, FsStore.listAfter dir (.entries (names.map .ok)) (some (blob.filename format))
            = .ok later ∧ later.Perm (after.map (·.filename format))) ∧
    ∀ before blob after, InOrder (before ++ blob :: after) → ∀ (dir : Path) (s : S3Store)
      (names : List String),
      Stays dir → s.Holds dir names →
      names.Perm ((before ++ blob :: after).map (·.filename format)) →
        ∃ later, BlobStore.listAfter (some (blob.filename format)) s = .ok later s ∧
          later.Perm (after.map (·.filename format)) := by
  refine ⟨?_, ?_, ?_, ?_, ?_⟩
  · intro blob writable
    exact parseBlobName_blobFilename _ writable.low writable.high writable.named
  · intro a b writable writable' same
    obtain ⟨low, high, key⟩ := blobFilename_injective writable.low writable.high writable.named
      writable'.low writable'.high writable'.named same
    cases a
    cases b
    simp_all
  · intro a b writable writable' covers covers' disjoint
    rw [byteLess_iff]
    exact filename_lt_iff writable writable' covers covers' disjoint
  · intro before blob after ordered dir names temporaries left held
    exact FsStore.listAfter_chain ordered dir left held
  · intro before blob after ordered dir s names stays holds held
    exact S3Store.listAfter_chain ordered stays holds held

namespace PathSample

/-- The objects of a chain of three, the second encrypted. -/
def objects : List BlobName := [⟨0, 4, none⟩] ++ ⟨5, 9, some "a-1"⟩ :: [⟨10, 2 ^ 64 - 1, none⟩]

/-- Their names. -/
def names : List String := objects.map (·.filename .parquet)

/-- The chain in a directory with a write that was cut short, and in a bucket. -/
theorem filename_sorts_sample :
    parseBlobName "00000000000000000005-00000000000000000009.k-a-1.parquet" "parquet"
        = some ⟨5, 9, some "a-1"⟩ ∧
      ByteLess "00000000000000000005-00000000000000000009.k-a-1.parquet"
        "00000000000000000010-18446744073709551615.parquet" ∧
      (∃ later, FsStore.listAfter "d" (.entries ((names ++ ["0.tmp.1"]).map .ok))
          (some "00000000000000000005-00000000000000000009.k-a-1.parquet") = .ok later ∧
        later.Perm ["00000000000000000010-18446744073709551615.parquet"]) ∧
      ∃ later, BlobStore.listAfter
          (some "00000000000000000005-00000000000000000009.k-a-1.parquet")
          ((destination "ops").puts (names.map fun name => (name, [])))
        = .ok later ((destination "ops").puts (names.map fun name => (name, []))) ∧
        later.Perm ["00000000000000000010-18446744073709551615.parquet"] := by
  obtain ⟨reads, -, sorts, onDisk, inBucket⟩ := filename_sorts .parquet
  have all : ∀ blob ∈ objects, blob.Writable ∧ blob.lo ≤ blob.hi := by
    intro blob mem
    simp only [objects, List.cons_append, List.nil_append, List.mem_cons, List.not_mem_nil,
      or_false] at mem
    rcases mem with rfl | rfl | rfl
    all_goals exact ⟨⟨by decide, by decide, by decide⟩, by decide⟩
  have ordered : InOrder objects := ⟨fun blob mem => (all blob mem).1, fun blob mem => (all blob mem).2,
    by decide⟩
  have second := all ⟨5, 9, some "a-1"⟩ (by decide)
  have third := all ⟨10, 2 ^ 64 - 1, none⟩ (by decide)
  have plain : ¬ Path.NeedsEncoding "ops".toList :=
    plain_of_isKeyIdStart (List.all_eq_true.mp (by decide))
  have stays : Stays (partitionPrefix none "ops" 0) :=
    @stays_partitionPrefix _ none "ops" (by simp) plain 0
  have fresh : (destination "ops").Holds (partitionPrefix none "ops" 0) [] :=
    ⟨rfl, rfl, by simp, .nil, rfl⟩
  obtain ⟨held, holds, those⟩ := fresh.puts stays (names.map fun name => (name, [])) <| by
    intro object mem
    obtain ⟨name, named, rfl⟩ := List.mem_map.mp mem
    obtain ⟨blob, listed, rfl⟩ := List.mem_map.mp named
    exact ⟨_, _, _, .parquet, (all blob listed).1.named, rfl⟩
  have perm : held.Perm names := by
    rw [List.perm_ext_iff_of_nodup holds.once (by decide +kernel)]
    intro name
    simp [those]
  refine ⟨reads _ second.1, ?_, ?_, ?_⟩
  · exact (sorts _ _ second.1 third.1 second.2 third.2 (by decide)).mpr (by decide)
  · exact onDisk _ _ _ ordered "d" (names ++ ["0.tmp.1"]) ["0.tmp.1"] (by decide) (.refl _)
  · exact inBucket _ _ _ ordered _ _ held stays holds perm

end PathSample

end MirrorV3
