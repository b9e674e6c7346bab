import MirrorV3.Fs.Naming
import MirrorV3.Lib.Percent

/-! Paths in an object store: segments between slashes, percent-encoded when a path is built. -/

namespace MirrorV3

/-- Which characters an object store does not keep in a segment as they are. -/
class PathEncoding where
  reserved : Char → Bool
  /-- The mark of an encoded byte is encoded itself. -/
  percent : reserved '%' = true
  delimiter : reserved '/' = true
  /-- The characters of a blob name are kept. -/
  kept : ∀ c, isKeyIdStart c = true ∨ c = '-' ∨ c = '.' → reserved c = false

/-- A path in an object store. -/
structure Path where
  raw : List Char
  deriving Repr, DecidableEq

namespace Path

/-- The path as a text. -/
def display (path : Path) : String := String.ofList path.raw

/-- Whether a segment does not stand in a path as it is. -/
def NeedsEncoding [PathEncoding] (part : List Char) : Prop :=
  part = ".".toList ∨ part = "..".toList ∨ ∃ c ∈ part, PathEncoding.reserved c = true

end Path

/-- The paths of the object store crate. -/
class ObjectPaths extends PathEncoding where
  /-- A segment as it stands in a path. -/
  encodePart : List Char → List Char
  /-- Build a path of segments. -/
  fromIter : List (List Char) → Path
  /-- Read a path from a text. -/
  from_ : String → Path
  /-- The segments of a path. -/
  parts : Path → List (List Char)
  encodePart_of_plain : ∀ part, ¬ Path.NeedsEncoding part → encodePart part = part
  /-- What is encoded is marked, and every byte of it takes three characters. -/
  percent_mem : ∀ part, Path.NeedsEncoding part → '%' ∈ encodePart part
  length_lt : ∀ part, Path.NeedsEncoding part → part.length < (encodePart part).length
  slash_notMem : ∀ part, '/' ∉ encodePart part
  encodePart_injective : Function.Injective encodePart
  /-- Each segment is encoded even if it is already, and the empty ones are left out. -/
  raw_fromIter : ∀ segments,
    (fromIter segments).raw = ['/'].intercalate ((segments.map encodePart).filter (· ≠ []))
  parts_fromIter : ∀ segments,
    parts (fromIter segments) = (segments.map encodePart).filter (· ≠ [])
  from_eq : ∀ text, from_ text = fromIter (text.toList.splitOn '/')

namespace Path

section Segments

variable [ObjectPaths] {part : List Char}

open ObjectPaths

/-- An empty segment needs no encoding. -/
theorem ne_nil_of_needsEncoding (needs : NeedsEncoding part) : part ≠ [] := by
  rintro rfl
  exact absurd needs (by simp [NeedsEncoding])

/-- Encoding does not empty a segment. -/
@[simp] theorem encodePart_eq_nil : encodePart part = [] ↔ part = [] := by
  by_cases needs : NeedsEncoding part
  · have longer := length_lt part needs
    have marked : encodePart part ≠ [] := by
      intro empty
      simp [empty] at longer
    simp [marked, ne_nil_of_needsEncoding needs]
  · rw [encodePart_of_plain part needs]

/-- A segment that needed encoding is marked, and needs it again. -/
theorem needsEncoding_encodePart (needs : NeedsEncoding part) :
    NeedsEncoding (encodePart part) :=
  .inr (.inr ⟨'%', percent_mem part needs, PathEncoding.percent⟩)

/-- A segment that needs encoding is changed by it. -/
theorem encodePart_ne (needs : NeedsEncoding part) : encodePart part ≠ part := by
  intro same
  have longer := length_lt part needs
  rw [same] at longer
  exact Nat.lt_irrefl _ longer

/-- A path that was built is its segments with slashes between them. -/
theorem fromIter_eq_of_parts {a b : List (List Char)}
    (same : parts (fromIter a) = parts (fromIter b)) : fromIter a = fromIter b := by
  have raw : (fromIter a).raw = (fromIter b).raw := by
    rw [raw_fromIter, raw_fromIter, ← parts_fromIter, ← parts_fromIter, same]
  cases built : fromIter a
  cases built' : fromIter b
  rw [built, built'] at raw
  exact congrArg Path.mk raw

end Segments

section Names

/-- The name of an object is made of key id characters, dashes and dots. -/
theorem mem_blobFilename {lo hi : Nat} {keyId : Option String} {format : Format}
    (named : ∀ id ∈ keyId, isKeyId id = true) {c : Char}
    (mem : c ∈ (blobFilename lo hi keyId format.extension).toList) :
    isKeyIdStart c = true ∨ c = '-' ∨ c = '.' := by
  -- A name is put together from digits, dashes, dots, the key id and an extension.
  have digit : ∀ {n}, c ∈ Text.padded offsetWidth n → isKeyIdStart c = true := fun inside => by
    simp [isKeyIdStart, Text.isDigit_of_mem_padded inside]
  have range : c ∈ rangeText lo hi → isKeyIdStart c = true ∨ c = '-' ∨ c = '.' := by
    intro inside
    rcases List.mem_append.mp inside with low | high
    · exact .inl (digit low)
    · rcases List.mem_cons.mp high with dash | high
      · exact .inr (.inl dash)
      · exact .inl (digit high)
  have extension : c ∈ '.' :: format.extension.toList →
      isKeyIdStart c = true ∨ c = '-' ∨ c = '.' := by
    have all : ∀ c ∈ '.' :: format.extension.toList, isKeyIdStart c = true ∨ c = '-' ∨ c = '.' := by
      cases format <;> exact Text.forall_of_all (by decide)
    exact all c
  cases keyId with
  | none =>
    rw [blobFilename, batchFilename, String.toList_ofList] at mem
    exact (List.mem_append.mp mem).elim range extension
  | some id =>
    have key : c ∈ id.toList → isKeyIdStart c = true ∨ c = '-' ∨ c = '.' := by
      intro inside
      exact (mem_of_isKeyId (named id rfl) inside).imp_right .inl
    have mark : c ∈ ".k-".toList → isKeyIdStart c = true ∨ c = '-' ∨ c = '.' := by
      have all : ∀ c ∈ ".k-".toList, isKeyIdStart c = true ∨ c = '-' ∨ c = '.' :=
        Text.forall_of_all (by decide)
      exact all c
    rw [blobFilename, String.toList_ofList] at mem
    rcases List.mem_append.mp mem with before | after
    · rcases List.mem_append.mp before with before | inside
      · exact (List.mem_append.mp before).elim range mark
      · exact key inside
    · exact extension after

/-- The name of an object needs no encoding. -/
theorem plain_blobFilename [PathEncoding] (lo hi : Nat) {keyId : Option String} (format : Format)
    (named : ∀ id ∈ keyId, isKeyId id = true) :
    ¬ NeedsEncoding (blobFilename lo hi keyId format.extension).toList := by
  -- The dash of the range keeps it apart from the names of directories.
  have dash : '-' ∈ (blobFilename lo hi keyId format.extension).toList := by
    cases keyId <;> simp [blobFilename, batchFilename, rangeText]
  rintro (dot | dots | ⟨c, mem, taken⟩)
  · rw [dot] at dash
    exact absurd dash (by decide)
  · rw [dots] at dash
    exact absurd dash (by decide)
  · rw [PathEncoding.kept c (mem_blobFilename named mem)] at taken
    cases taken

end Names

end Path

namespace PathSample

open Path

/-- Printable characters an object store encodes. -/
def invalid : List Char := "\\\x7b^\x7d%`]\">[~<#|*?/".toList

/-- The characters of a blob name are neither those nor control characters, and they are ASCII. -/
theorem plain_kept (c : Char) (plain : isKeyIdStart c = true ∨ c = '-' ∨ c = '.') :
    (c.toNat < 32 || 127 ≤ c.toNat || invalid.contains c) = false := by
  have apart : ∀ c ∈ invalid, isKeyIdStart c = false ∧ c ≠ '-' ∧ c ≠ '.' :=
    Text.forall_of_all (by decide)
  have range : 32 ≤ c.toNat ∧ c.toNat < 127 := by
    rcases plain with start | rfl | rfl
    · have lower : c.isLower = (decide (c.val ≥ 'a'.val) && decide (c.val ≤ 'z'.val)) := rfl
      simp only [isKeyIdStart, lower, Char.isDigit, Bool.or_eq_true, Bool.and_eq_true,
        decide_eq_true_eq, ge_iff_le, UInt32.le_iff_toNat_le] at start
      have toNat : c.toNat = c.val.toNat := rfl
      simp at start
      omega
    · decide
    · decide
  have absent : c ∉ invalid := by
    intro mem
    obtain ⟨start, dash, dot⟩ := apart c mem
    rcases plain with isStart | isDash | isDot
    · rw [start] at isStart
      cases isStart
    · exact dash isDash
    · exact dot isDot
  simp only [Bool.or_eq_false_iff, decide_eq_false_iff_not]
  exact ⟨⟨by omega, by omega⟩, by simpa using absent⟩

/-- What an object store encodes: those, control characters, and whatever is not ASCII. -/
def reservedChar (c : Char) : Bool := c.toNat < 32 || 127 ≤ c.toNat || invalid.contains c

/-- The percent sign is one of them, and so is the slash. -/
scoped instance pathCharacters : PathEncoding where
  reserved := reservedChar
  percent := by decide
  delimiter := by decide
  kept := plain_kept

/-- A segment as it stands in a path, where the two names of directories are encoded whole. -/
def encodePart (part : List Char) : List Char :=
  if part = ".".toList then "%2E".toList
  else if part = "..".toList then "%2E%2E".toList
  else Percent.encode reservedChar part

/-- Build a path of segments, each encoded even if it is already, without the empty ones. -/
def fromIter (segments : List (List Char)) : Path :=
  ⟨['/'].intercalate ((segments.map encodePart).filter (· ≠ []))⟩

/-- The segments between the slashes, of which an empty last one does not count. -/
def parts (path : Path) : List (List Char) :=
  let split := path.raw.splitOn '/'
  if split.getLast? = some [] then split.dropLast else split

/-- No slash is left in a segment that was encoded. -/
theorem slash_notMem (part : List Char) : '/' ∉ encodePart part := by
  unfold encodePart
  split
  · decide
  · split
    · decide
    · exact Percent.notMem_encode (by decide) (by decide) (by decide) part

/-- An encoded segment reads back as the bytes of the segment. -/
theorem decode_encodePart (part : List Char) :
    Percent.decode (encodePart part) = part.flatMap String.utf8EncodeChar := by
  unfold encodePart
  split
  · rename_i dot
    subst dot
    decide
  · split
    · rename_i dots
      subst dots
      decide
    · exact Percent.decode_encode (by decide) part

/-- Joined by slashes, segments without one are the segments of the path. -/
theorem parts_intercalate {segments : List (List Char)} (some_ : ∀ part ∈ segments, part ≠ [])
    (whole : ∀ part ∈ segments, '/' ∉ part) :
    parts ⟨['/'].intercalate segments⟩ = segments := by
  unfold parts
  by_cases empty : segments = []
  · subst empty
    decide
  · rw [List.splitOn_intercalate '/' whole empty]
    refine if_neg fun last => ?_
    exact some_ [] (List.mem_of_getLast? last) rfl

/-- The encoding an object store documents. -/
scoped instance objectStorePaths : ObjectPaths where
  encodePart := encodePart
  fromIter := fromIter
  from_ text := fromIter (text.toList.splitOn '/')
  parts := parts
  encodePart_of_plain part plain := by
    simp only [NeedsEncoding, not_or, not_exists, not_and] at plain
    obtain ⟨dot, dots, kept⟩ := plain
    rw [encodePart, if_neg dot, if_neg dots]
    exact Percent.encode_of_plain fun c mem => Bool.eq_false_iff.mpr (kept c mem)
  percent_mem part needs := by
    unfold encodePart
    split
    · decide
    · rename_i dot
      split
      · decide
      · rename_i dots
        exact Percent.percent_mem_encode ((needs.resolve_left dot).resolve_left dots)
  length_lt part needs := by
    unfold encodePart
    split
    · rename_i dot
      subst dot
      decide
    · rename_i dot
      split
      · rename_i dots
        subst dots
        decide
      · rename_i dots
        exact (Percent.length_le_encode _ part).2 ((needs.resolve_left dot).resolve_left dots)
  slash_notMem := slash_notMem
  encodePart_injective a b same := Percent.flatMap_utf8EncodeChar_injective <| by
    -- Both read back from the same text.
    show a.flatMap _ = b.flatMap _
    rw [← decode_encodePart, same, decode_encodePart]
  raw_fromIter _ := rfl
  parts_fromIter segments := by
    refine parts_intercalate (fun part mem => ?_) (fun part mem => ?_)
    · simpa using (List.mem_filter.mp mem).2
    · obtain ⟨source, -, rfl⟩ := List.mem_map.mp (List.mem_filter.mp mem).1
      exact slash_notMem source
  from_eq _ := rfl

end PathSample

end MirrorV3
