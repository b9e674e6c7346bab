import MirrorV3.Lib.Digits
import MirrorV3.Envelope.Format

/-! Blob names: the range of consumer positions an object covers, and the key it is written with. -/

namespace MirrorV3

open Text

/-- Digits of an offset in a name, enough for every `u64`. -/
def offsetWidth : Nat := 20

/-- The characters of `<from>-<to>`. -/
def rangeText (lo hi : Nat) : List Char :=
  padded offsetWidth lo ++ '-' :: padded offsetWidth hi

/-- The name of a clear object: `<from>-<to>.<ext>`. -/
def batchFilename (lo hi : Nat) (ext : String) : String :=
  String.ofList (rangeText lo hi ++ '.' :: ext.toList)

/-- What a blob name says: the range it covers, and the key of an encrypted blob. -/
structure BlobName where
  /-- The first consumer position covered. -/
  lo : Nat
  /-- The last consumer position covered. -/
  hi : Nat
  keyId : Option String
  deriving Repr, DecidableEq

/-- The name of an object, which carries the key id between range and extension if it has one. -/
def blobFilename (lo hi : Nat) (keyId : Option String) (ext : String) : String :=
  match keyId with
  | none => batchFilename lo hi ext
  | some id => String.ofList (rangeText lo hi ++ ".k-".toList ++ id.toList ++ '.' :: ext.toList)

/-- Read a range and attach a key id to it. -/
def parseRange (range : List Char) (keyId : Option String) : Option BlobName := do
  let (lo, hi) ← splitOnce ['-'] range
  return { lo := ← parseU64 lo, hi := ← parseU64 hi, keyId }

/-- Read a name with this extension back. -/
def parseBlobName (name ext : String) : Option BlobName := do
  let stem ← stripSuffix ('.' :: ext.toList) name.toList
  match splitOnce ".k-".toList stem with
  | some (range, id) =>
    if isKeyId (String.ofList id) then parseRange range (some (String.ofList id)) else none
  | none => parseRange stem none

/-- A range reads back as the two offsets it was written from. -/
theorem parseRange_rangeText {lo hi : Nat} (low : lo < 2 ^ 64) (high : hi < 2 ^ 64)
    (keyId : Option String) : parseRange (rangeText lo hi) keyId = some ⟨lo, hi, keyId⟩ := by
  -- The dash between the numbers is the first one, since numbers hold digits only.
  have split : splitOnce ['-'] (rangeText lo hi)
      = some (padded offsetWidth lo, padded offsetWidth hi) :=
    splitOnce_append [] _ (notMem_padded (by rfl))
  simp [parseRange, split, parseU64_padded low, parseU64_padded high]

/-- No dot occurs in a range, so the first dot of a name ends it. -/
theorem dot_notMem_rangeText (lo hi : Nat) : '.' ∉ rangeText lo hi := by
  intro mem
  rcases List.mem_append.mp mem with inLo | inHi
  · exact notMem_padded (by rfl) inLo
  · rcases List.mem_cons.mp inHi with dash | inHi
    · exact absurd dash (by decide)
    · exact notMem_padded (by rfl) inHi

/--
Every name the mirror writes is read back as what it was written from.

The key id is one a keys directory may hold, and offsets are those of `u64`.
-/
theorem parseBlobName_blobFilename {lo hi : Nat} {keyId : Option String} (ext : String)
    (low : lo < 2 ^ 64) (high : hi < 2 ^ 64) (named : ∀ id ∈ keyId, isKeyId id = true) :
    parseBlobName (blobFilename lo hi keyId ext) ext = some ⟨lo, hi, keyId⟩ := by
  cases keyId with
  | none =>
    -- Without a key the stem is the bare range, which holds no dot at all.
    have unkeyed : splitOnce ".k-".toList (rangeText lo hi) = none :=
      splitOnce_none ['k', '-'] (dot_notMem_rangeText lo hi)
    simp only [parseBlobName, blobFilename, batchFilename, String.toList_ofList,
      stripSuffix_append, Option.bind_eq_bind, Option.bind_some, unkeyed]
    exact parseRange_rangeText low high none
  | some id =>
    have keyed : splitOnce ".k-".toList (rangeText lo hi ++ ".k-".toList ++ id.toList)
        = some (rangeText lo hi, id.toList) := by
      simpa using splitOnce_append ['k', '-'] id.toList (dot_notMem_rangeText lo hi)
    simp only [parseBlobName, blobFilename, String.toList_ofList, stripSuffix_append,
      Option.bind_eq_bind, Option.bind_some, keyed, String.ofList_toList, named id rfl, if_true]
    exact parseRange_rangeText low high (some id)

/-- A name only ever says positions that a `u64` holds. -/
theorem lt_of_parseBlobName {name ext : String} {blob : BlobName}
    (parsed : parseBlobName name ext = some blob) : blob.lo < 2 ^ 64 ∧ blob.hi < 2 ^ 64 := by
  have range : ∀ {text keyId}, parseRange text keyId = some blob →
      blob.lo < 2 ^ 64 ∧ blob.hi < 2 ^ 64 := by
    intro text keyId read
    simp only [parseRange, Option.bind_eq_bind, Option.bind_eq_some_iff] at read
    obtain ⟨⟨lo, hi⟩, -, n, low, m, high, same⟩ := read
    cases same
    exact ⟨lt_of_parseU64 low, lt_of_parseU64 high⟩
  simp only [parseBlobName, Option.bind_eq_bind, Option.bind_eq_some_iff] at parsed
  obtain ⟨stem, -, parsed⟩ := parsed
  -- With a key or without one, what is left is a range.
  split at parsed
  · split at parsed
    · exact range parsed
    · cases parsed
  · exact range parsed

/-- Two ranges with the same name are the same range. -/
theorem blobFilename_injective {lo hi lo' hi' : Nat} {keyId keyId' : Option String} {ext : String}
    (low : lo < 2 ^ 64) (high : hi < 2 ^ 64) (named : ∀ id ∈ keyId, isKeyId id = true)
    (low' : lo' < 2 ^ 64) (high' : hi' < 2 ^ 64) (named' : ∀ id ∈ keyId', isKeyId id = true)
    (same : blobFilename lo hi keyId ext = blobFilename lo' hi' keyId' ext) :
    lo = lo' ∧ hi = hi' ∧ keyId = keyId' := by
  -- Both read back as themselves, so equal names read back as equal ranges.
  have parsed := parseBlobName_blobFilename ext low high named
  rw [same, parseBlobName_blobFilename ext low' high' named'] at parsed
  injection parsed with parsed
  injection parsed with lower upper key
  exact ⟨lower.symm, upper.symm, key.symm⟩

/-- A name sorts before every name of a range that starts later. -/
theorem blobFilename_lt {lo hi lo' hi' : Nat} {keyId keyId' : Option String} (ext : String)
    (less : lo < lo') (inRange : lo' < 2 ^ 64) :
    blobFilename lo hi keyId ext < blobFilename lo' hi' keyId' ext := by
  have fits : lo' < 10 ^ offsetWidth := Nat.lt_trans inRange (by decide)
  -- Whatever follows the first number has no part in the order.
  have starts : ∀ lo hi keyId, ∃ rest,
      (blobFilename lo hi keyId ext).toList = padded offsetWidth lo ++ rest := by
    intro lo hi keyId
    cases keyId with
    | none => exact ⟨_, by simp [blobFilename, batchFilename, rangeText]; rfl⟩
    | some id => exact ⟨_, by simp [blobFilename, rangeText]; rfl⟩
  obtain ⟨rest, written⟩ := starts lo hi keyId
  obtain ⟨rest', written'⟩ := starts lo' hi' keyId'
  rw [String.lt_iff, written, written']
  exact padded_lt_padded (by decide) less fits rest rest'

end MirrorV3
