import MirrorV3.Lib.Results
import MirrorV3.Restore.Chain

/-! Reading a chain back: every object is decoded and held to its name and to the backup's source. -/

namespace MirrorV3

open Effect

/-- The hash that tells one object's bytes from another's. -/
class ByteDigest where
  digest : Bytes → Nat

/-- What a backup is a backup of. -/
structure BackupSource where
  topic : String
  partition : Int32
  deriving Repr, DecidableEq

/-- How to read a backup's objects. -/
structure Reader where
  format : Format
  /-- None for a source that is not encrypted. -/
  keyring : Option Keyring
  source : BackupSource

/-- One object, as read. -/
structure ObjectSummary where
  name : String
  records : Nat
  /-- Positions of the object's range without a record. -/
  holes : Nat
  firstHole : Option Nat
  /-- The hash of the object's bytes. -/
  digest : Nat
  deriving Repr, DecidableEq

/-- What the verify pass found. -/
structure BackupSummary where
  objects : List ObjectSummary
  firstOffset : Nat
  lastOffset : Nat
  records : Nat
  holes : Nat
  firstHole : Option Nat
  deriving Repr, DecidableEq

namespace Reader

/-- Hold records to an object's range, to increasing offsets and to the backup's source. -/
def checkRecords (reader : Reader) (object : ChainObject) (bad : String → RestoreError) :
    (previous : Option Nat) → List Record → Except RestoreError Unit
  | _, [] => .ok ()
  | previous, r :: records =>
    if r.sourceOffset < object.lo then
      .error (bad (s!"record offset {r.sourceOffset} is below the object's range "
        ++ s!"{object.lo}-{object.hi}"))
    else match previous.filter (r.sourceOffset ≤ ·) with
    | some p =>
      .error (bad s!"record offsets are not increasing: {r.sourceOffset} after {p}")
    | none =>
      if r.topic ≠ reader.source.topic ∨ r.partition ≠ reader.source.partition then
        .error (bad (s!"record at offset {r.sourceOffset} is from {r.topic}/{r.partition}, and "
          ++ s!"this backup is of {reader.source.topic}/{reader.source.partition}"))
      else checkRecords reader object bad (some r.sourceOffset) records

variable [EnvelopeLibraries]

/-- Decode an object's bytes, and check the records against its name and the backup's source. -/
def checkBytes (reader : Reader) (object : ChainObject) (location : String) (bytes : Bytes) :
    Except RestoreError (List Record) := do
  let records ← (decodeBlob object.name location bytes reader.format reader.keyring).mapError
    fun e => .object e.display
  let bad (what : String) : RestoreError := .object s!"{location}: {what}"
  match records.getLast? with
  | none => throw (bad "holds no records")
  | some last =>
    if last.sourceOffset ≠ object.hi then
      throw (bad (s!"its last record has offset {last.sourceOffset}, and its name says "
        ++ s!"{object.hi}"))
    checkRecords reader object bad none records
    return records

variable {σ : Type} [BlobStore σ] [ByteDigest]

/-- Read one object and check it, and answer the hash of its bytes with its records. -/
def readObjectWithDigest (reader : Reader) (object : ChainObject) :
    Program RestoreError σ (List Record × Nat) := do
  let location := BlobStore.location (← get) object.name
  let bytes ← focus ⟨id, fun s _ => s⟩ (fun e => .store (s!"read {location}: " ++ e.display))
    (BlobStore.get object.name)
  let records ← MonadExcept.ofExcept (reader.checkBytes object location bytes)
  pure (records, ByteDigest.digest bytes)

/-- The first position after `next` without a record, with the position the records end at. -/
def firstHole (next : Nat) : List Record → Option Nat
  | [] => none
  | r :: records =>
    if next < r.sourceOffset then some next else firstHole (addOne r.sourceOffset) records

/-- How many positions an object's range has. -/
def positions (object : ChainObject) : Nat := addOne (subtract object.hi object.lo)

/-- One object, summed up. -/
def summarize (object : ChainObject) (records : List Record) (digest : Nat) : ObjectSummary where
  name := object.name
  records := records.length
  holes := subtract (positions object) records.length
  firstHole := firstHole object.lo records
  digest := digest

/-- Read every object of a chain and sum each one up. -/
def readSummaries (reader : Reader) : List ChainObject → Program RestoreError σ (List ObjectSummary)
  | [] => pure []
  | object :: chain => do
    let (records, digest) ← reader.readObjectWithDigest object
    let objects ← readSummaries reader chain
    pure (summarize object records digest :: objects)

/-- The verify pass: read every object of a chain and sum it up. -/
def verify (reader : Reader) (chain : List ChainObject) :
    Program RestoreError σ BackupSummary := do
  match chain.head?, chain.getLast? with
  | some first, some last =>
    let objects ← reader.readSummaries chain
    pure {
      objects
      firstOffset := first.lo
      lastOffset := last.hi
      records := (objects.map (·.records)).sum
      holes := (objects.map (·.holes)).sum
      firstHole := objects.findSome? (·.firstHole) }
  | _, _ => throw (.chain "the chain has no objects")

end Reader

end MirrorV3
