import MirrorV3.Fs.Listing
import MirrorV3.Restore.Planned

/-! A number in a name is read however it is spelled, so a name may be read that is never written. -/

namespace MirrorV3

open Text

/-- What follows the range in a name. -/
def nameEnd (keyId : Option String) (ext : String) : List Char :=
  match keyId with
  | none => '.' :: ext.toList
  | some id => ".k-".toList ++ id.toList ++ '.' :: ext.toList

/-- Whether both numbers of a name are spelled with all their digits and nothing else. -/
def SpelledOut (name : String) : Prop :=
  ∃ lo hi rest : List Char, name.toList = lo ++ '-' :: (hi ++ '.' :: rest)
    ∧ (lo.length = offsetWidth ∧ ∀ c ∈ lo, c.isDigit = true)
    ∧ (hi.length = offsetWidth ∧ ∀ c ∈ hi, c.isDigit = true)

/-- Whether every name of a listing is the one its blob is written under, and whether the names sort
as the ranges that were read from them. -/
structure AsWritten (format : Format) (names : List String) : Prop where
  spelled : ∀ name ∈ names, ∀ blob, parseBlobName name format.extension = some blob →
    blob.filename format = name
  sorted : ∀ name ∈ names, ∀ other ∈ names, ∀ a b,
    parseBlobName name format.extension = some a →
    parseBlobName other format.extension = some b → a.lo < b.lo → name < other

section Names

variable {name ext : String} {blob : BlobName}

/-- A name is its range and what follows it. -/
theorem toList_blobFilename (lo hi : Nat) (keyId : Option String) (ext : String) :
    (blobFilename lo hi keyId ext).toList
      = padded offsetWidth lo ++ '-' :: (padded offsetWidth hi ++ nameEnd keyId ext) := by
  cases keyId with
  | none => simp [blobFilename, batchFilename, rangeText, nameEnd]
  | some id => simp [blobFilename, rangeText, nameEnd]

/-- A range is read from two numbers with the first dash between them. -/
theorem of_parseRange {range : List Char} {keyId : Option String}
    (parsed : parseRange range keyId = some blob) :
    ∃ lo hi, range = lo ++ '-' :: hi ∧ parseU64 lo = some blob.lo ∧ parseU64 hi = some blob.hi
      ∧ blob.keyId = keyId := by
  simp only [parseRange, Option.bind_eq_bind, Option.bind_eq_some_iff] at parsed
  obtain ⟨⟨lo, hi⟩, split, n, low, m, high, same⟩ := parsed
  cases same
  exact ⟨lo, hi, by simpa using eq_of_splitOnce split, low, high, rfl⟩

/-- A name that is read consists of two numbers and what follows a range with its key. -/
theorem of_parseBlobName (parsed : parseBlobName name ext = some blob) :
    ∃ lo hi, name.toList = lo ++ '-' :: (hi ++ nameEnd blob.keyId ext)
      ∧ parseU64 lo = some blob.lo ∧ parseU64 hi = some blob.hi := by
  simp only [parseBlobName, Option.bind_eq_bind, Option.bind_eq_some_iff] at parsed
  obtain ⟨stem, cut, parsed⟩ := parsed
  have whole := eq_of_stripSuffix cut
  split at parsed
  · rename_i range id split
    by_cases named : isKeyId (String.ofList id) = true
    · rw [if_pos named] at parsed
      obtain ⟨lo, hi, rfl, low, high, key⟩ := of_parseRange parsed
      refine ⟨lo, hi, ?_, low, high⟩
      rw [whole, eq_of_splitOnce split, key]
      simp [nameEnd]
    · rw [if_neg named] at parsed
      cases parsed
  · obtain ⟨lo, hi, rfl, low, high, key⟩ := of_parseRange parsed
    refine ⟨lo, hi, ?_, low, high⟩
    rw [whole, key]
    simp [nameEnd]

/-- No number that is read has a mark in it other than its sign. -/
theorem notMem_of_parseU64 {text : List Char} {n : Nat} {mark : Char}
    (read : parseU64 text = some n) (other : mark.isDigit = false) (sign : mark ≠ '+') :
    mark ∉ text := by
  obtain ⟨digits, written, all, -⟩ := of_parseU64 read
  intro mem
  have inside : mark ∈ digits := by
    rcases written with rfl | rfl
    · exact mem
    · exact (List.mem_cons.mp mem).resolve_left sign
  rw [all mark inside] at other
  cases other

/-- A number spelled with all its digits is the number that is read from it, padded. -/
theorem padded_of_parseU64 {text : List Char} {n : Nat} (read : parseU64 text = some n)
    (filled : text.length = offsetWidth) (digits : ∀ c ∈ text, c.isDigit = true) :
    padded offsetWidth n = text := by
  obtain ⟨digits', written, -, rfl⟩ := of_parseU64 read
  rcases written with rfl | rfl
  · exact padded_ofDigitChars (by decide) filled digits
  · exact absurd (digits '+' List.mem_cons_self) (by decide)

/-- A name that is read is the one its blob is written under exactly when it is spelled out. -/
theorem filename_eq_iff (parsed : parseBlobName name ext = some blob) :
    blobFilename blob.lo blob.hi blob.keyId ext = name ↔ SpelledOut name := by
  obtain ⟨lo, hi, whole, low, high⟩ := of_parseBlobName parsed
  obtain ⟨rest, follows⟩ : ∃ rest, nameEnd blob.keyId ext = '.' :: rest := by
    cases blob.keyId with
    | none => exact ⟨_, rfl⟩
    | some id => exact ⟨_, rfl⟩
  have range := lt_of_parseBlobName parsed
  have fits : ∀ n < 2 ^ 64, n < 10 ^ offsetWidth := fun n small => Nat.lt_trans small (by decide)
  constructor
  · rintro rfl
    refine ⟨padded offsetWidth blob.lo, padded offsetWidth blob.hi, rest, ?_, ⟨?_, ?_⟩, ?_, ?_⟩
    · rw [toList_blobFilename, follows]
    · exact length_padded (by decide) (fits _ range.1)
    · exact fun c mem => isDigit_of_mem_padded mem
    · exact length_padded (by decide) (fits _ range.2)
    · exact fun c mem => isDigit_of_mem_padded mem
  · rintro ⟨lo', hi', rest', spelled, ⟨lowFilled, lowDigits⟩, highFilled, highDigits⟩
    have digitless : ∀ {text : List Char} {mark : Char}, (∀ c ∈ text, c.isDigit = true) →
        mark.isDigit = false → mark ∉ text := by
      intro text mark all other mem
      rw [all mark mem] at other
      cases other
    -- The first dash and the first dot after it stand in the same places of both spellings.
    rw [whole, follows] at spelled
    obtain ⟨rfl, behind⟩ := append_inj_of_notMem
      (notMem_of_parseU64 low (by rfl) (by decide)) (digitless lowDigits (by rfl)) spelled
    obtain ⟨rfl, -⟩ := append_inj_of_notMem
      (notMem_of_parseU64 high (by rfl) (by decide)) (digitless highDigits (by rfl)) behind
    apply String.toList_injective
    rw [toList_blobFilename, padded_of_parseU64 low lowFilled lowDigits,
      padded_of_parseU64 high highFilled highDigits, whole]

end Names

section Listings

variable {format : Format} {names : List String}

/-- Names that are read are as written exactly when each is spelled out. -/
theorem asWritten_iff
    (read : ∀ name ∈ names, ∃ blob, parseBlobName name format.extension = some blob) :
    AsWritten format names ↔ ∀ name ∈ names, SpelledOut name := by
  constructor
  · intro written name mem
    obtain ⟨blob, parsed⟩ := read name mem
    exact (filename_eq_iff parsed).mp (written.spelled name mem blob parsed)
  · intro spelled
    have filename : ∀ name ∈ names, ∀ blob, parseBlobName name format.extension = some blob →
        blob.filename format = name := by
      intro name mem blob parsed
      exact (filename_eq_iff parsed).mpr (spelled name mem)
    refine ⟨filename, ?_⟩
    intro name mem other mem' a b parsed parsed' less
    rw [← filename name mem a parsed, ← filename other mem' b parsed']
    exact blobFilename_lt _ less (lt_of_parseBlobName parsed').1

/-- Every name of a listing that the mirror goes on from was read. -/
theorem read_of_validateChain {compaction : Option CompactionMode} {chain : Chain}
    (valid : validateChain names format compaction = .ok chain) :
    ∀ name ∈ names, ∃ blob, parseBlobName name format.extension = some blob := by
  obtain ⟨entries, reads⟩ : ∃ entries, List.Forall₂ (ReadAs format) names entries := by
    cases compaction with
    | none =>
      obtain ⟨entries, reads, -⟩ := validateChain_append.mp valid
      exact ⟨entries, reads⟩
    | some mode =>
      obtain ⟨entries, -, reads, -⟩ := validateChain_log.mp valid
      exact ⟨entries, reads⟩
  intro name mem
  obtain ⟨entry, -, as⟩ := Effect.exists_of_forall₂ reads.flip mem
  obtain ⟨keyId, parsed⟩ := as.parsed
  exact ⟨_, parsed⟩

/-- Every name of a listing that a restore plans was read. -/
theorem read_of_planChain {chainStart : Nat} {keyring : Option Keyring}
    {objects : List ChainObject} (planned : planChain names format chainStart keyring = .ok objects) :
    ∀ name ∈ names, ∃ blob, parseBlobName name format.extension = some blob := by
  obtain ⟨read, reads, -⟩ := planChain_ok_iff.mp planned
  intro name mem
  obtain ⟨object, -, as⟩ := Effect.exists_of_forall₂ reads.flip mem
  exact ⟨_, as.parsed⟩

end Listings

/-- A name that is read is the one its blob is written under if and only if it spells out both
numbers, and an accepted listing holds written names, sorted as their ranges, if and only if all of
its names do. -/
theorem parseBlobName_asWritten_iff (format : Format) :
    (∀ name blob, parseBlobName name format.extension = some blob →
      (blob.filename format = name ↔ SpelledOut name)) ∧
    (∀ names compaction chain, validateChain names format compaction = .ok chain →
      (AsWritten format names ↔ ∀ name ∈ names, SpelledOut name)) ∧
    ∀ names chainStart keyring objects, planChain names format chainStart keyring = .ok objects →
      (AsWritten format names ↔ ∀ name ∈ names, SpelledOut name) := by
  refine ⟨?_, ?_, ?_⟩
  · intro name blob parsed
    exact filename_eq_iff parsed
  · intro names compaction chain valid
    exact asWritten_iff (read_of_validateChain valid)
  · intro names chainStart keyring objects planned
    exact asWritten_iff (read_of_planChain planned)

namespace Sample

/-- Three objects with numbers that are not padded, one of them with a sign. -/
def unpadded : List String := ["0-4.ndjson", "+5-9.ndjson", "10-12.ndjson"]

/-- They are accepted as a chain to go on from. -/
theorem validateChain_unpadded :
    validateChain unpadded .ndjson none = .ok ⟨13, none, ["+5-9.ndjson", "10-12.ndjson"]⟩ := by
  have reads : List.Forall₂ (ReadAs .ndjson) unpadded
      [⟨0, 4, "0-4.ndjson"⟩, ⟨5, 9, "+5-9.ndjson"⟩, ⟨10, 12, "10-12.ndjson"⟩] :=
    .cons ⟨rfl, by decide, none, by decide +kernel⟩
      (.cons ⟨rfl, by decide, none, by decide +kernel⟩
        (.cons ⟨rfl, by decide, none, by decide +kernel⟩ .nil))
  refine validateChain_append.mpr ⟨_, reads, ?_⟩
  rw [List.mergeSort_of_pairwise (by decide)]
  decide

/-- They are accepted as a backup to restore. -/
theorem planChain_unpadded :
    planChain unpadded .ndjson 0 none = .ok [⟨"0-4.ndjson", 0, 4, none⟩,
      ⟨"+5-9.ndjson", 5, 9, none⟩, ⟨"10-12.ndjson", 10, 12, none⟩] := by
  have reads : List.Forall₂ (PlannedAs .ndjson) unpadded [⟨"0-4.ndjson", 0, 4, none⟩,
      ⟨"+5-9.ndjson", 5, 9, none⟩, ⟨"10-12.ndjson", 10, 12, none⟩] :=
    .cons ⟨rfl, by decide, by decide +kernel⟩
      (.cons ⟨rfl, by decide, by decide +kernel⟩
        (.cons ⟨rfl, by decide, by decide +kernel⟩ .nil))
  refine planChain_ok_iff.mpr ⟨_, reads, by simp, ?_, by decide, by decide⟩
  rw [List.mergeSort_of_pairwise (by decide)]

/-- None of the three names spells its numbers out, so they are not as the mirror writes them. -/
theorem parseBlobName_asWritten_iff_unpadded :
    (∀ name ∈ unpadded, ¬ SpelledOut name) ∧ ¬ AsWritten .ndjson unpadded := by
  obtain ⟨names, listing, plan⟩ := parseBlobName_asWritten_iff .ndjson
  have spelled : ∀ name ∈ unpadded, ¬ SpelledOut name := by
    intro name mem
    simp only [unpadded, List.mem_cons, List.not_mem_nil, or_false] at mem
    rcases mem with rfl | rfl | rfl
    · exact mt (names "0-4.ndjson" ⟨0, 4, none⟩ (by decide +kernel)).mpr (by decide +kernel)
    · exact mt (names "+5-9.ndjson" ⟨5, 9, none⟩ (by decide +kernel)).mpr (by decide +kernel)
    · exact mt (names "10-12.ndjson" ⟨10, 12, none⟩ (by decide +kernel)).mpr (by decide +kernel)
  refine ⟨spelled, ?_⟩
  intro written
  have either := (listing unpadded none _ validateChain_unpadded).mp written
  have same := (plan unpadded 0 none _ planChain_unpadded).mp written
  exact spelled _ List.mem_cons_self (either _ List.mem_cons_self)

/-- Names without padding are accepted, one by one and as a chain, and do not sort as ranges. -/
theorem unpadded_accepted :
    ¬ (∀ (name : String) (format : Format) (blob : BlobName),
        parseBlobName name format.extension = some blob → blob.filename format = name) ∧
      (∃ chain, validateChain unpadded .ndjson none = .ok chain) ∧
      (∃ objects, planChain unpadded .ndjson 0 none = .ok objects) ∧
      parseBlobName "+5-9.ndjson" "ndjson" = some ⟨5, 9, none⟩ ∧
      parseBlobName "0-4.ndjson" "ndjson" = some ⟨0, 4, none⟩ ∧ "+5-9.ndjson" < "0-4.ndjson" := by
  refine ⟨?_, ⟨_, validateChain_unpadded⟩, ⟨_, planChain_unpadded⟩, by decide +kernel,
    by decide +kernel, by decide⟩
  intro written
  exact absurd (written "+5-9.ndjson" .ndjson ⟨5, 9, none⟩ (by decide +kernel)) (by decide +kernel)

end Sample

end MirrorV3
