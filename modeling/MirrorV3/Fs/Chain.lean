import Mathlib.Data.List.Sort
import MirrorV3.Lib.Effect
import MirrorV3.Fs.Naming
import MirrorV3.Envelope.Batch

/-! A blob directory: its objects, and the chain of ranges their names form. -/

namespace MirrorV3

open Effect

/-- Why a directory of blobs cannot be used. -/
inductive BlobError where
  | store (message : String)
  | corruptChain (message : String)
  | alreadyExists (name : String)
  deriving Repr, DecidableEq

/-- The message of a blob error. -/
def BlobError.display : BlobError → String
  | .store message => message
  | .corruptChain message => s!"destination chain is corrupt: {message}"
  | .alreadyExists name =>
    s!"object {name} already exists (a second writer, or a write that landed after it was "
      ++ s!"reported failed)"

/-- One partition directory of a blob destination. -/
class BlobStore (σ : Type) where
  /-- The names of every object in the directory. -/
  list : Program BlobError σ (List String)
  /-- Write an object atomically, failing if the store can tell that the name exists. -/
  putNew (name : String) (bytes : Bytes) : Program BlobError σ Unit
  /-- Read an object. -/
  get (name : String) : Program BlobError σ Bytes
  /-- The names that sort after a given one, or all of them. -/
  listAfter (after : Option String) : Program BlobError σ (List String)
  /-- Where an object lives, for messages. -/
  location : σ → String → String

/-- The one way a blob destination compacts: each object is a snapshot of the latest values. -/
inductive CompactionMode where
  | log
  deriving Repr, DecidableEq

/-- What a listing says about a destination. -/
structure Chain where
  /-- The next source offset the destination accepts. -/
  durable : Nat
  /-- The newest snapshot of a compacted destination. -/
  latest : Option String
  /-- The last two objects of the chain. -/
  tail : List String
  deriving Repr, DecidableEq

/-- An object's place in the chain. -/
structure ChainEntry where
  lo : Nat
  hi : Nat
  name : String
  deriving Repr, DecidableEq

/-- The extension of a file name: what follows its last dot. -/
def fileExtension (name : String) : Option String :=
  (Text.afterLast '.' name.toList).map String.ofList

/-- Read one listed name, which must be a blob of the configured format. -/
def chainEntry (format : Format) (name : String) : Except BlobError ChainEntry :=
  let expectedExt := format.extension
  let foreign := (fileExtension name).filter fun ext =>
    ext ≠ expectedExt ∧ (parseBlobName name ext).isSome
  match foreign with
  | some otherExt =>
    .error (.corruptChain (s!"{name}: extension '{otherExt}' does not match configured format "
      ++ s!"'{expectedExt}'"))
  | none =>
    match parseBlobName name expectedExt with
    | none =>
      .error (.corruptChain (s!"{name} is not a blob name this mirror writes "
        ++ s!"(<from>-<to>.{expectedExt}, or <from>-<to>.k-<key id>.{expectedExt})"))
    | some blob =>
      if blob.hi < blob.lo then .error (.corruptChain s!"{name}: to < from")
      else .ok ⟨blob.lo, blob.hi, name⟩

/-- The order of entries by range and then by name. -/
def ChainEntry.before (a b : ChainEntry) : Bool :=
  a.lo < b.lo || (a.lo == b.lo && (a.hi < b.hi || (a.hi == b.hi && a.name ≤ b.name)))

/-- The order of entries by the end of their range. -/
def ChainEntry.endsBefore (a b : ChainEntry) : Bool := a.hi ≤ b.hi

/-- Require ranges to follow each other without a gap, and answer where the last one ends. -/
def contiguous : Nat → List ChainEntry → Except BlobError Nat
  | expectedNext, [] => .ok expectedNext
  | expectedNext, entry :: entries =>
    if entry.lo ≠ expectedNext then
      let (lo, hi) := (entry.lo, entry.hi)
      .error (.corruptChain
        s!"gap or overlap in chain: expected from={expectedNext}, found {lo}-{hi}")
    else contiguous (addOne entry.hi) entries

/-- Require ranges not to overlap, and answer the end of the last one. -/
def disjoint : Option Nat → List ChainEntry → Except BlobError (Option Nat)
  | prevTo, [] => .ok prevTo
  | prevTo, entry :: entries =>
    match prevTo.filter (entry.lo ≤ ·) with
    | some prior =>
      let (lo, hi) := (entry.lo, entry.hi)
      .error (.corruptChain s!"overlap in compaction chain: {lo}-{hi} overlaps prior to={prior}")
    | none => disjoint (some entry.hi) entries

/-- The names of the last two entries. -/
def tailOf (entries : List ChainEntry) : List String :=
  (entries.drop (entries.length - 2)).map (·.name)

/-- The entries of a listing in the order the chain is checked in. -/
def chainEntries (names : List String) (format : Format) (compaction : Option CompactionMode) :
    Except BlobError (List ChainEntry) := do
  let entries ← names.mapM (chainEntry format)
  return match compaction with
    | none => entries.mergeSort ChainEntry.before
    | some .log => entries.mergeSort ChainEntry.endsBefore

/-- Validate a listing: an append chain has no gap, a compacted one no overlap. -/
def validateChain (names : List String) (format : Format) (compaction : Option CompactionMode) :
    Except BlobError Chain := do
  let entries ← chainEntries names format compaction
  match compaction with
  | none =>
    let durable ← contiguous 0 entries
    return { durable, latest := none, tail := tailOf entries }
  | some .log =>
    let prevTo ← disjoint none entries
    return {
      durable := (prevTo.map addOne).getD 0
      latest := entries.getLast?.map (·.name)
      tail := tailOf entries }

variable [EnvelopeLibraries]

/-- Decode an object, with the key its name carries if it has one. -/
def decodeBlob (name location : String) (bytes : Bytes) (format : Format)
    (keyring : Option Keyring) : Except BlobError (List Record) :=
  let keyId := (parseBlobName name format.extension).bind (·.keyId)
  let named (decoded : Except EnvelopeError (List Record)) : Except BlobError (List Record) :=
    match decoded with
    | .ok records => .ok records
    | .error e => .error (.corruptChain (s!"decode {location}: " ++ e.display))
  match keyId with
  | none => named (decodeBatch format bytes)
  | some id =>
    match keyring with
    | none =>
      .error (.store (s!"{location} is encrypted with Parquet key {id}, and this destination has "
        ++ s!"`encryption: none`"))
    | some ring =>
      match ring.get id with
      | .error message => .error (.store s!"{location}: {message}")
      | .ok key => named (decodeBatchEncrypted bytes key)

end MirrorV3
