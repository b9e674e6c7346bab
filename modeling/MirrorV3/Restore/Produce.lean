import MirrorV3.Kafka.RestoreProducer
import MirrorV3.Restore.Read

/-! Writing a verified backup to its target, in order and with every record held to its offset. -/

namespace MirrorV3

open Effect

/-- Which offsets the records get in the target. -/
inductive OffsetMode where
  /-- Every record at its original offset. -/
  | preserve
  /-- Records from 0 on in their original order, so that holes close up. -/
  | renumber
  deriving Repr, DecidableEq

/-- Whether a verified backup can be restored with these offsets. -/
def OffsetMode.check (mode : OffsetMode) (summary : BackupSummary) : Except RestoreError Unit :=
  match mode with
  | .renumber => .ok ()
  | .preserve =>
    if summary.firstOffset ≠ 0 then
      .error (.mode (s!"--offsets=preserve: the backup starts at offset {summary.firstOffset}, and a "
        ++ "Kafka topic starts at 0"))
    else
      match summary.firstHole with
      | none => .ok ()
      | some hole =>
        .error (.mode (s!"--offsets=preserve: the backup has {summary.holes} offset hole(s), the "
          ++ s!"first at offset {hole} (records removed by compaction, or transaction markers), and "
          ++ "a Kafka topic cannot be written with holes"))

/-- What a restore produced. -/
structure RestoreReport where
  records : Nat
  /-- The target's high watermark after the last record. -/
  highWatermark : Nat
  deriving Repr, DecidableEq

/-- A restore under way: the backup it reads, the target it writes, and how much it has sent. -/
structure Restoring (σ τ : Type) where
  store : σ
  target : τ
  next : Nat

namespace Restoring

variable {σ τ : Type}

/-- The backup as a part of a restore. -/
def storePart : Part (Restoring σ τ) σ := ⟨store, fun store s => { s with store }⟩

/-- The target as a part of a restore. -/
def targetPart : Part (Restoring σ τ) τ := ⟨target, fun target s => { s with target }⟩

variable [EnvelopeLibraries] [ByteDigest] [BlobStore σ] [RestoreTarget τ]

/-- Send one record, at its own offset or at the next one. -/
def sendRecord (mode : OffsetMode) (record : Record) :
    Program RestoreError (Restoring σ τ) Unit := do
  let next := (← get).next
  match mode with
  | .preserve =>
    ensure (record.sourceOffset = next) (.mode (s!"--offsets=preserve: offset {next} is missing "
      ++ s!"(next record is at {record.sourceOffset})"))
    focus targetPart .target (RestoreTarget.send record next)
  | .renumber =>
    focus targetPart .target (RestoreTarget.send { record with sourceOffset := next } next)
  modify fun s => { s with next := next + 1 }

/-- Read an object again, which must not have changed, and send its records. -/
def sendObject (reader : Reader) (mode : OffsetMode) (object : ChainObject)
    (verified : ObjectSummary) : Program RestoreError (Restoring σ τ) Unit := do
  let (records, digest) ← focus storePart id (reader.readObjectWithDigest object)
  let location := BlobStore.location (← get).store object.name
  ensure (digest = verified.digest) (.object s!"{location} changed after the verify pass read it")
  records.forM (sendRecord mode)

/-- Send every record of a chain in order. -/
def sendAll (reader : Reader) (mode : OffsetMode) :
    List ChainObject → List ObjectSummary → Program RestoreError (Restoring σ τ) Unit
  | object :: chain, verified :: objects => do
    sendObject reader mode object verified
    sendAll reader mode chain objects
  | _, _ => pure ()

/-- After a failure, wait for the records in flight and say what that came to. -/
def drained : Program RestoreError (Restoring σ τ) String := do
  match ← focus targetPart id (attempt (RestoreTarget.finish : Program String τ Unit)) with
  | .ok () => pure ""
  | .error d => pure s!" (and waiting for the records in flight: {d})"

/-- A restore up to the moment when it waits for the records in flight. -/
def untilDrain (reader : Reader) (chain : List ChainObject) (summary : BackupSummary)
    (mode : OffsetMode) : Program RestoreError (Restoring σ τ) (Except RestoreError Unit) := do
  MonadExcept.ofExcept (mode.check summary)
  ensure (chain.length = summary.objects.length)
    (.chain (s!"{chain.length} objects to restore, and the verify pass read "
      ++ s!"{summary.objects.length}"))
  let start ← focus targetPart (fun e => .target s!"reading its high watermark: {e}")
    RestoreTarget.highWatermark
  ensure (start = 0) (.targetNotEmpty start)
  modify fun s => { s with next := 0 }
  attempt (sendAll reader mode chain summary.objects)

/-- A restore from that moment on. -/
def fromDrain (summary : BackupSummary) :
    Except RestoreError Unit → Program RestoreError (Restoring σ τ) RestoreReport
  | .error e => do
    let next := (← get).next
    -- Before anything was sent the target is as it was.
    if next = 0 then throw e
    let drained ← drained
    throw (.produce (s!"after sending {next} records: " ++ e.display ++ drained))
  | .ok () => do
    focus targetPart (fun e => .produce s!"target: waiting for the last records: {e}")
      RestoreTarget.finish
    let highWatermark ← focus targetPart
      (fun e => .produce s!"target: reading its high watermark: {e}") RestoreTarget.highWatermark
    let next := (← get).next
    ensure (highWatermark = next ∧ next = summary.records)
      (.produce (s!"target: produced {next} of the backup's {summary.records} records, and its high "
        ++ s!"watermark is {highWatermark}"))
    pure ⟨next, highWatermark⟩

/-- Produce every record of a verified chain to the target. -/
def produce (reader : Reader) (chain : List ChainObject) (summary : BackupSummary)
    (mode : OffsetMode) : Program RestoreError (Restoring σ τ) RestoreReport := do
  fromDrain summary (← untilDrain reader chain summary mode)

end Restoring

end MirrorV3
