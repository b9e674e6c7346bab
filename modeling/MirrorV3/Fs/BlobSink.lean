import Mathlib.Data.Stream.Defs
import Std.Data.TreeMap
import MirrorV3.Core.Traits
import MirrorV3.Fs.Chain

/-! The blob destination: it buffers records, flushes them as objects and keeps its position. -/

namespace MirrorV3

open Effect MonadExcept

/-- Which trigger caused a flush. -/
inductive FlushTrigger where
  | maxOffsets
  | maxBytes
  | maxTime
  | daily
  | explicit
  deriving Repr, DecidableEq

/-- When a buffer is flushed. -/
structure FlushTriggers where
  /-- Milliseconds after the first buffered record. -/
  maxTime : Nat
  maxBytes : Nat
  maxOffsets : Nat
  /-- Seconds since midnight at which to flush daily. -/
  dailyAtUtcSeconds : Option Nat
  deriving Repr, DecidableEq

/-- The key new blobs are encrypted with, and every key the directory holds. -/
structure BlobEncryption where
  keyId : String
  keyring : Keyring

/-- How a blob destination encodes and when it flushes. -/
structure BlobSpec where
  format : Format
  compression : ParquetCompression
  keys : ColumnType
  values : ColumnType
  compaction : Option CompactionMode
  flush : FlushTriggers
  encryption : Option BlobEncryption

/-- Whether an encryption setting can be used: a columnar format and a key that is there. -/
def BlobSpec.checkEncryption (spec : BlobSpec) : Except BlobError Unit :=
  match spec.encryption with
  | none => .ok ()
  | some enc =>
    if spec.format ≠ .parquet then .error (.store "encryption needs `format: parquet`")
    else
      match enc.keyring.get enc.keyId with
      | .ok _ => .ok ()
      | .error message => .error (.store message)

/-- The latest value per key of a compacted destination. -/
abbrev View := Std.TreeMap String Record

/-- The clocks a sink reads: the wall clock in seconds, and the process's own in milliseconds. -/
structure Clocks where
  clock : Stream' Nat
  instants : Stream' Nat

/-- A call of an observer: the range it is told of, and the store as it is at that moment. -/
structure FlushCall (σ : Type) where
  range : Nat × Nat
  store : σ

/-- A blob destination, whose encryption setting was checked when it was opened. -/
structure BlobSink (σ : Type) where
  store : σ
  spec : BlobSpec
  checked : spec.checkEncryption = .ok ()
  /-- One past the end of the last object written. -/
  durablePosition : Nat
  /-- Records since the last flush. -/
  buffer : List Record
  bufferBytes : Nat
  bufferStarted : Option Nat
  /-- In compaction mode the latest value per key, which is what a flush writes. -/
  view : Option View
  nextDailyUnix : Option Nat
  clocks : Clocks
  /-- The calls of an installed observer, in order. -/
  flushObserver : Option (List (FlushCall σ))
  /-- The last two objects of the chain. -/
  tail : List String
  lastDriftCheck : Nat
  driftCheckInterval : Nat

/-- How often an idle sink checks for objects it did not write, in milliseconds. -/
def driftCheckInterval : Nat := 60000

/-- The first time after `nowUnix` at which the daily boundary falls. -/
def scheduleNextDaily (targetSecs nowUnix : Nat) : Nat :=
  let midnight := nowUnix / 86400 * 86400
  let todayTarget := midnight + targetSecs
  if nowUnix < todayTarget then todayTarget else todayTarget + 86400

/-- The first boundary after `now`, one day at a time from `t`. -/
def advanceDaily (now t : Nat) : Nat :=
  if now < t then t else advanceDaily now (t + 86400)
termination_by now + 1 - t

/-- The payload bytes of a record. -/
def recordByteSize (record : Record) : Nat :=
  (record.key.map (·.length)).getD 0 + (record.value.map (·.length)).getD 0
    + (record.headers.map fun h => h.key.utf8ByteSize + (h.value.map (·.length)).getD 0).sum

variable [EnvelopeLibraries]

/-- Decode a compaction snapshot, whose keys must be text. -/
def decodeView (name location : String) (bytes : Bytes) (format : Format)
    (encryption : Option BlobEncryption) : Except BlobError View := do
  let records ← decodeBlob name location bytes format (encryption.map (·.keyring))
  records.foldlM (fun view r =>
    match r.key with
    | none => .error (.corruptChain s!"{location}: null key in compacted snapshot")
    | some bytes =>
      match decodeUtf8 bytes with
      | none => .error (.corruptChain s!"{location}: non-UTF-8 key in compacted snapshot")
      | some key => .ok (view.insert key r)) {}

/-- Encode records under a spec whose encryption setting was checked. -/
def BlobSpec.encode (spec : BlobSpec) (checked : spec.checkEncryption = .ok ())
    (records : List Record) : Except EnvelopeError Bytes :=
  match setting : spec.encryption with
  | none => encodeBatch spec.format spec.compression spec.keys spec.values records
  | some enc =>
    match active : enc.keyring.get enc.keyId with
    | .ok key => encodeBatchEncrypted records spec.compression spec.keys spec.values key
    -- The active key was checked at open.
    | .error _ => absurd checked (by
        simp only [BlobSpec.checkEncryption, setting, active]
        split <;> simp)

namespace BlobSink

variable {σ : Type} [BlobStore σ]

/-- The store as a part of the sink. -/
def storePart : Part (BlobSink σ) σ := ⟨store, fun store s => { s with store }⟩

/-- Read the wall clock. -/
def now : Program SinkError (BlobSink σ) Nat := do
  let s ← get
  set { s with clocks := { s.clocks with clock := s.clocks.clock.tail } }
  pure s.clocks.clock.head

/-- Read the process's own clock. -/
def instant : Program SinkError (BlobSink σ) Nat := do
  let s ← get
  set { s with clocks := { s.clocks with instants := s.clocks.instants.tail } }
  pure s.clocks.instants.head

/-- Build the sink from a validated listing and, in compaction mode, the newest snapshot. -/
def new (store : σ) (spec : BlobSpec) (chain : Chain) (snapshot : Option Bytes)
    (clocks : Clocks) : Except BlobError (BlobSink σ) :=
  match checked : spec.checkEncryption with
  | .error e => .error e
  | .ok () => do
    let view : Option View ←
      match spec.compaction with
      | none => pure none
      | some .log =>
        match chain.latest, snapshot with
        | some name, some bytes =>
          some <$> decodeView name (BlobStore.location store name) bytes spec.format
            spec.encryption
        | none, _ => pure (some {})
        | some name, none =>
          .error (.store ("snapshot " ++ BlobStore.location store name ++ " was not read"))
    return {
      store, spec, checked, view
      durablePosition := chain.durable
      buffer := []
      bufferBytes := 0
      bufferStarted := none
      nextDailyUnix :=
        spec.flush.dailyAtUtcSeconds.map (scheduleNextDaily · clocks.clock.head)
      clocks := ⟨clocks.clock.tail, clocks.instants.tail⟩
      flushObserver := none
      tail := chain.tail
      lastDriftCheck := clocks.instants.head
      driftCheckInterval := MirrorV3.driftCheckInterval }

/-- List the directory, validate the chain and, in compaction mode, read the newest snapshot. -/
def openStore (spec : BlobSpec) (clocks : Clocks) : Program BlobError σ (BlobSink σ) := do
  let names ← BlobStore.list
  let chain ← ofExcept (validateChain names spec.format spec.compaction)
  let snapshot ←
    match chain.latest with
    | some name => some <$> BlobStore.get name
    | none => pure none
  let store ← get
  ofExcept (new store spec chain snapshot clocks)

/-- The lowest source offset the next write accepts. -/
def bufferedHead (s : BlobSink σ) : Nat :=
  (s.buffer.getLast?.map fun r => addOne r.sourceOffset).getD s.durablePosition

/-- Which trigger, if any, asks for a flush at this moment. -/
def shouldFlush (s : BlobSink σ) (now : Nat) : Option FlushTrigger :=
  if s.buffer = [] then none
  else if s.spec.flush.maxOffsets ≤ s.buffer.length then some .maxOffsets
  else if s.spec.flush.maxBytes ≤ s.bufferBytes then some .maxBytes
  else if (s.bufferStarted.map fun t => decide (s.spec.flush.maxTime ≤ now - t)).getD false then
    some .maxTime
  else none

/-- The records a flush writes: the view in compaction mode, else the buffer, which it takes. -/
def takeBatch : Program SinkError (BlobSink σ) (List Record) := do
  let s ← get
  match s.spec.compaction, s.view with
  | some .log, some view => pure view.values
  | _, _ => do
    set { s with buffer := [] }
    pure s.buffer

/-- Write an object, telling a name that is taken from a store that failed. -/
def putObject (name location : String) (bytes : Bytes) : Program SinkError (BlobSink σ) Unit :=
  focus storePart (fun e => match e with
    | .alreadyExists _ => .inconsistent (location ++ " already exists (a second writer, or a "
        ++ "write that landed after it was reported failed)")
    | e => .transport (s!"write {location}: " ++ e.display)) (BlobStore.putNew name bytes)

/-- Write what is buffered as the next object of the chain. -/
def flushLocked (_trigger : FlushTrigger) : Program SinkError (BlobSink σ) Unit := do
  let s ← get
  -- An object covers consumer positions from the last object's end, holes included.
  let lo := s.durablePosition
  let hi := (s.buffer.getLast?.map (·.sourceOffset)).getD 0
  let name := blobFilename lo hi (s.spec.encryption.map (·.keyId)) s.spec.format.extension
  let location := BlobStore.location s.store name
  let batch ← takeBatch
  let bytes ← ofExcept ((s.spec.encode s.checked batch).mapError
    fun e => SinkError.rejected ("encode: " ++ e.display))
  putObject name location bytes
  modify fun s => { s with
    durablePosition := addOne hi
    tail := let tail := s.tail ++ [name]; tail.drop (tail.length - 2)
    buffer := []
    bufferBytes := 0
    bufferStarted := none
    flushObserver := s.flushObserver.map (· ++ [⟨(lo, hi), s.store⟩]) }

/-- Flush if the daily boundary has passed, and move on to the next one. -/
def tickDaily : Program SinkError (BlobSink σ) Unit := do
  match (← get).nextDailyUnix with
  | none => pure ()
  | some next => do
    let now₁ ← now
    if now₁ < next then pure ()
    else do
      if (← get).buffer ≠ [] then flushLocked .daily else pure ()
      let now₂ ← now
      modify fun s => { s with nextDailyUnix := some (advanceDaily now₂ next) }

/-- Flush what is buffered, if anything is. -/
def flushNow : Program SinkError (BlobSink σ) Unit := do
  if (← get).buffer = [] then pure () else flushLocked .explicit

/-- Require that past the second-to-last object the directory holds the last one and no other. -/
def checkDrift : Program SinkError (BlobSink σ) Unit := do
  let s ← get
  let after := if s.tail.length < 2 then none else s.tail.head?
  let expected := s.tail.getLast?
  let listed ← focus storePart (fun e => SinkError.transport e.display)
    (BlobStore.listAfter after)
  let gone := expected.filter fun last => last ∉ listed
  match gone with
  | some last =>
    let location := BlobStore.location s.store last
    throw (.inconsistent
      s!"destination drift: {location} is gone; it is the end of this mirror's chain")
  | none =>
    match listed.find? fun name => some name ≠ expected with
    | some foreign =>
      let location := BlobStore.location s.store foreign
      let position := s.durablePosition
      throw (.inconsistent
        (s!"destination drift: {location} was not written by this process (a second writer, or "
          ++ s!"a manual change); this mirror's chain ends before it, at next offset {position}"))
    | none =>
      let checkedAt ← instant
      modify fun s => { s with lastDriftCheck := checkedAt }

/-- The position, after the flushes and the check that are due on an idle poll. -/
def nextExpectedOffset : Program SinkError (BlobSink σ) Nat := do
  tickDaily
  let asked ← instant
  if shouldFlush (← get) asked = some .maxTime then flushLocked .maxTime else pure ()
  let checkedAt ← instant
  let s ← get
  if s.driftCheckInterval ≤ checkedAt - s.lastDriftCheck then checkDrift else pure ()
  return bufferedHead (← get)

/-- The key a compacted destination files a record under. -/
def compactionKey (record : Record) : Except SinkError String :=
  let offset := record.sourceOffset
  match record.key with
  | none => .error (.rejected (s!"this mirror requires a non-null key; record at source offset "
      ++ s!"{offset} has key=null"))
  | some bytes =>
    match decodeUtf8 bytes with
    | some key => .ok key
    | none => .error (.rejected (s!"this mirror requires a UTF-8 key; record at source offset "
        ++ s!"{offset} has non-UTF-8 key"))

/-- Apply a record to the view of a compacted destination; a null value removes its key. -/
def applyView (record : Record) (view : View) : View :=
  match record.utf8Key with
  | none => view
  | some key => if record.value = none then view.erase key else view.insert key record

/-- Accept the next record into the buffer, and flush if that trips a trigger. -/
def write (record : Record) : Program SinkError (BlobSink σ) Unit := do
  tickDaily
  let s ← get
  ensure (bufferedHead s ≤ record.sourceOffset)
    (.unexpectedPosition (bufferedHead s) record.sourceOffset)
  match s.spec.compaction with
  | some .log => do let _ ← ofExcept (compactionKey record); pure ()
  | none => pure ()
  let started ← instant
  modify fun s => { s with
    view := s.view.map (applyView record)
    bufferBytes := s.bufferBytes + recordByteSize record
    buffer := s.buffer ++ [record]
    bufferStarted := some (s.bufferStarted.getD started) }
  let asked ← instant
  match shouldFlush (← get) asked with
  | some trigger => flushLocked trigger
  | none => pure ()

/-- Move a compacted destination up to what the source still has. -/
def alignToSourceLowWatermark (lowWatermark : Nat) : Program SinkError (BlobSink σ) Unit := do
  let s ← get
  ensure (s.spec.compaction = some .log)
    (.inconsistent "align_to_source_low_watermark called on non-compaction sink")
  let (buffered, durable) := (s.buffer.length, s.durablePosition)
  ensure (s.buffer = [] ∧ s.durablePosition ≤ lowWatermark)
    (.inconsistent (s!"align_to_source_low_watermark called in inconsistent state: "
      ++ s!"buffer={buffered} durable={durable} low_watermark={lowWatermark}"))
  set { s with durablePosition := lowWatermark }

instance : Sink (BlobSink σ) where
  nextExpectedOffset := nextExpectedOffset
  write := write
  flush := flushNow
  allowsCompactedSource s := s.spec.compaction = some .log
  allowsOffsetHoles _ := true
  alignToSourceLowWatermark := alignToSourceLowWatermark

end BlobSink

end MirrorV3
