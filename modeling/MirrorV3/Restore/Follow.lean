import Mathlib.Data.Stream.Defs
import MirrorV3.Core.Traits
import MirrorV3.Restore.Produce

/-! A backup read as a mirror's source: its records in order, and new objects as they are listed. -/

namespace MirrorV3

open Effect

/-- How to read a backup as a source. -/
structure ChainSourceConfig where
  reader : Reader
  mode : OffsetMode
  /-- The offset the backup starts at, 0 unless objects before it were removed on purpose. -/
  chainStart : Nat

/-- A backup as a source, with the positions of the target it is read for. -/
structure ChainSource (σ : Type) where
  store : σ
  cfg : ChainSourceConfig
  /-- The objects listed so far, a validated chain. -/
  chain : List ChainObject
  /-- How many records the first objects hold, for as many as were counted. -/
  counts : List Nat
  /-- The object read next. -/
  nextObject : Nat
  /-- Records at the head of that object that are already in the target, when renumbering. -/
  skip : Nat
  /-- The object that a dropped poll started to read. -/
  pending : Option ChainObject
  buffer : List Record
  /-- The target position of the next record yielded. -/
  position : Nat
  /-- A wait for new objects has begun, which outlives a dropped poll. -/
  idleUntil : Bool
  /-- The records of the object that was read last to count it or to look a record up. -/
  lastRead : Option (Nat × List Record)
  /-- For each await of a poll that is dropped, whether it is the one the poll is dropped at. -/
  drops : Stream' Bool

/-- The error of a mirror's source: an unreachable store can be tried again, and nothing else. -/
def sourceError : RestoreError → SourceError
  | .store message => .transport s!"backup store: {message}"
  | other => .inconsistent other.display

/-- Whether a record read from a target is one of ours as restore produces it. -/
def sameRecord (ours theirs : Record) : Bool :=
  let compareTime := ours.timestampMs.isSome ∧ theirs.timestampType = .createTime
  ours.key = theirs.key ∧ ours.value = theirs.value ∧ ours.headers = theirs.headers
    ∧ (¬ compareTime ∨ ours.timestampMs = theirs.timestampMs)

/-- Records numbered from a position on. -/
def numbered : (position : Nat) → List Record → List Record
  | _, [] => []
  | position, r :: records => { r with sourceOffset := position } :: numbered (position + 1) records

namespace ChainSource

variable {ε σ : Type}

/-- The store as a part of the source. -/
def storePart : Part (ChainSource σ) σ := ⟨store, fun store s => { s with store }⟩

section Listing

variable [BlobStore σ]

/-- Append the objects written since the last listing, and answer whether there were any. -/
def listNew : Program RestoreError (ChainSource σ) Bool := do
  let s ← get
  let names ← focus storePart (fun e => .store ("listing the backup: " ++ e.display))
    (BlobStore.listAfter (s.chain.getLast?.map (·.name)))
  if names = [] then pure false
  else
    let start := (s.chain.getLast?.map fun o => addOne o.hi).getD s.cfg.chainStart
    let ext := s.cfg.reader.format.extension
    let first := (names.filterMap fun n => (parseBlobName n ext).map (·.lo)).min?
    -- Within a first listing a gap is one of the chain's own start.
    match first.filter fun f => s.chain ≠ [] ∧ start < f with
    | some first =>
      throw (.chain s!"gap in the chain: offsets {start}-{first - 1} are in no object")
    | none =>
      let new ← MonadExcept.ofExcept
        (planChain names s.cfg.reader.format start s.cfg.reader.keyring)
      modify fun s => { s with chain := s.chain ++ new }
      pure true

/-- List the backup and validate its chain, which may be empty. -/
def openChain (cfg : ChainSourceConfig) (drops : Stream' Bool) :
    Program RestoreError σ (ChainSource σ) := do
  ensure (cfg.mode = .renumber ∨ cfg.chainStart = 0)
    (.mode (s!"--offsets=preserve: the backup starts at offset {cfg.chainStart}, and a Kafka topic "
      ++ "starts at 0"))
  let source : ChainSource σ :=
    { store := ← get, cfg, chain := [], counts := [], nextObject := 0, skip := 0, pending := none,
      buffer := [], position := 0, idleUntil := false, lastRead := none, drops }
  fun _ =>
    match listNew source with
    | .ok _ source => .ok source source.store
    | .error e source => .error e source.store

end Listing

/-- The position after the chain listed so far, at most, since holes are counted as well. -/
def positionsEnd (s : ChainSource σ) : Nat :=
  (s.chain.getLast?.map fun o => subtract (addOne o.hi) s.cfg.chainStart).getD 0

section Reading

variable [EnvelopeLibraries] [BlobStore σ]

/-- Read one object of the backup and check it. -/
def readObject (object : ChainObject) : Program RestoreError (ChainSource σ) (List Record) := do
  let s ← get
  let location := BlobStore.location s.store object.name
  let bytes ← focus storePart (fun e => .store (s!"read {location}: " ++ e.display))
    (BlobStore.get object.name)
  MonadExcept.ofExcept (s.cfg.reader.checkBytes object location bytes)

/-- The records of an object of the chain, from the last read if it was of that object. -/
def recordsOf (i : Nat) (object : ChainObject) :
    Program RestoreError (ChainSource σ) (List Record) := do
  let s ← get
  match s.lastRead.filter (·.1 = i) with
  | some (_, records) => pure records
  | none =>
    let records ← readObject object
    modify fun s => { s with lastRead := some (i, records) }
    pure records

/-- Count the records of the first objects of a part of the chain that were not counted yet. -/
def countObjects : (j : Nat) → List ChainObject → Program RestoreError (ChainSource σ) Unit
  | _, [] => pure ()
  | j, object :: objects => do
    let records ← recordsOf j object
    modify fun s => { s with counts := s.counts ++ [records.length] }
    countObjects (j + 1) objects

/-- How many records an object of the chain holds, reading the objects not counted yet. -/
def count (i : Nat) : Program RestoreError (ChainSource σ) Nat := do
  let s ← get
  let counted := s.counts.length
  countObjects counted ((s.chain.take (i + 1)).drop counted)
  return (← get).counts.getD i 0

/--
The first object, among these many from the `i`-th on, that holds a position.

Answers its place with the position it starts at, or one place further and the position they end at.
-/
def locate (position : Nat) :
    (remaining i first : Nat) → Program RestoreError (ChainSource σ) (Nat × Nat)
  | 0, i, first => pure (i, first)
  | remaining + 1, i, first => do
    let n ← count i
    if position < first + n then pure (i, first) else locate position remaining (i + 1) (first + n)

/-- The record the target holds at a position if it is this backup. -/
def recordAt (position : Nat) : Program RestoreError (ChainSource σ) (Option Record) := do
  let s ← get
  match s.cfg.mode with
  | .preserve =>
    match s.chain.zipIdx.find? fun entry => entry.1.lo ≤ position ∧ position ≤ entry.1.hi with
    | none => pure none
    | some (object, i) =>
      let records ← recordsOf i object
      pure (records.find? (·.sourceOffset = position))
  | .renumber =>
    let (i, first) ← locate position s.chain.length 0 0
    match s.chain[i]? with
    | none => pure none
    | some object =>
      let records ← recordsOf i object
      pure (records[position - first]?.map ({ · with sourceOffset := position }))

/-- Require a target with records to end with this backup's record at that position. -/
def checkResume (highWatermark : Nat) (last : Record) :
    Program RestoreError (ChainSource σ) Unit := do
  if highWatermark = 0 then pure ()
  else
    let position := highWatermark - 1
    match ← recordAt position with
    | none =>
      throw (.target (s!"the target holds {highWatermark} records, and the backup has no record at "
        ++ s!"offset {position}: the target holds more than this backup, or another topic"))
    | some ours =>
      ensure (sameRecord ours last) (.target (s!"the target's record at offset {position} is not "
        ++ "the backup's record there (key, value, headers or timestamp differ): the target holds "
        ++ "another topic's records; follow into an empty topic, or one this backup was restored "
        ++ "into with the same --offsets"))

/-- Ask for something of the backup in the terms of a mirror's source. -/
def asSource {α : Type} : Program RestoreError (ChainSource σ) α →
    Program SourceError (ChainSource σ) α :=
  focus ⟨id, fun s _ => s⟩ sourceError

/-- Position the source at what the target holds, which must be within the backup. -/
def seek (position : Nat) : Program SourceError (ChainSource σ) Unit := do
  let _ ← asSource listNew
  let s ← get
  let pastEnd (last : Nat) : SourceError :=
    .inconsistent s!"the target is at offset {position}, past the backup's end at {last}"
  ensure (s.cfg.mode = .renumber ∨ position ≤ s.positionsEnd) (pastEnd s.positionsEnd)
  modify fun s => { s with pending := none, buffer := [], skip := 0, idleUntil := false, position }
  match s.cfg.mode with
  | .preserve =>
    -- The object's records below the position are dropped when it is read.
    modify fun s => { s with nextObject := s.chain.findIdx (position ≤ ·.hi) }
  | .renumber =>
    let (i, first) ← asSource (locate position s.chain.length 0 0)
    if i < s.chain.length then modify fun s => { s with skip := position - first }
    else ensure (position ≤ first) (pastEnd first)
    modify fun s => { s with nextObject := i }

/-- Buffer the records of an object that are at a position or above, up to a hole. -/
def preserveRecords (object : ChainObject) :
    (expected : Nat) → List Record → Program RestoreError (ChainSource σ) Unit
  | _, [] => pure ()
  | expected, r :: records =>
    if r.sourceOffset < expected then preserveRecords object expected records
    else do
      ensure (r.sourceOffset = expected) (.mode (s!"--offsets=preserve: offset {expected} is a hole "
        ++ s!"in the backup ({object.name}: records removed by compaction, or a transaction "
        ++ "marker), and a Kafka topic cannot be written with holes"))
      modify fun s => { s with buffer := s.buffer ++ [r] }
      preserveRecords object (expected + 1) records

/-- Buffer the records of an object from the one to start with on, numbered from the position on. -/
def renumberRecords (records : List Record) : Program RestoreError (ChainSource σ) Unit :=
  modify fun s => { s with
    buffer := s.buffer ++ numbered s.position (records.drop s.skip)
    skip := 0 }

section Polling

/-- What becomes of a poll at an await, and how it reports an error. -/
structure Polled (ε σ : Type) where
  await : Program ε (ChainSource σ) Unit
  report : RestoreError → ε

/-- Ask for something of the backup within a poll. -/
def Polled.ask {α : Type} (poll : Polled ε σ) :
    Program RestoreError (ChainSource σ) α → Program ε (ChainSource σ) α :=
  focus ⟨id, fun s _ => s⟩ poll.report

/-- Finish the read of an object, or begin one that a dropped poll leaves to the next. -/
def finishRead (poll : Polled ε σ) (object : ChainObject) :
    Program ε (ChainSource σ) (List Record) := do
  let reading := (← get).pending.getD object
  modify fun s => { s with pending := some reading }
  poll.await
  let records ← attempt (readObject reading)
  modify fun s => { s with pending := none }
  poll.ask (MonadExcept.ofExcept records)

/-- Read the next object into the buffer. -/
def fill (poll : Polled ε σ) (object : ChainObject) : Program ε (ChainSource σ) Unit := do
  let s ← get
  let i := s.nextObject
  modify fun s => { s with lastRead := none }
  let records ←
    match s.lastRead.filter fun read => read.1 = i ∧ s.pending = none with
    | some (_, records) => pure records
    | none => finishRead poll object
  modify fun s => { s with
    counts := if s.counts.length = i then s.counts ++ [records.length] else s.counts }
  poll.ask (match s.cfg.mode with
    | .preserve => preserveRecords object s.position records
    | .renumber => renumberRecords records)
  modify fun s => { s with nextObject := s.nextObject + 1 }

/-- One round of a poll, which answers unless there is something to read or to wait for first. -/
def pollRound (poll : Polled ε σ) : Program ε (ChainSource σ) (Option (Option Record)) := do
  let s ← get
  if s.idleUntil then do
    poll.await
    modify fun s => { s with idleUntil := false }
    pure (some none)
  else
    match s.buffer with
    | r :: buffer =>
      modify fun s => { s with buffer, position := s.position + 1 }
      pure (some (some r))
    | [] =>
      match s.chain[s.nextObject]? with
      | some object =>
        fill poll object
        pure none
      | none => do
        poll.await
        let grown ← poll.ask listNew
        if grown then pure none
        else
          modify fun s => { s with idleUntil := true }
          pure none

/-- The rounds of a poll, one after the other, until one answers. -/
def pollRounds (poll : Polled ε σ) : Nat → Program ε (ChainSource σ) (Option (Option Record))
  | 0 => pure none
  | rounds + 1 => do
    match ← pollRound poll with
    | some polled => pure (some polled)
    | none => pollRounds poll rounds

/-- A poll that is left to end by itself. -/
def kept : Polled SourceError σ := ⟨pure (), sourceError⟩

/-- A poll that is dropped at the await where its source says so. -/
def dropped : Polled (Option SourceError) σ where
  await := do
    let s ← get
    set { s with drops := s.drops.tail }
    if s.drops.head then throw none else pure ()
  report e := some (sourceError e)

/-- Rounds enough for every poll: one to list, one to read an object and one to yield a record. -/
def enough : Nat := 3

/-- The next record, or nothing when every object listed so far was read and a wait has passed. -/
def pollOne : Program SourceError (ChainSource σ) (Option Record) := do
  match ← pollRounds kept enough with
  | some polled => pure polled
  | none => throw (.inconsistent "a poll needed more rounds")

/-- A poll that is dropped at an await leaves what it did before, and no other is ever begun. -/
def abandonPoll (s : ChainSource σ) : ChainSource σ :=
  match pollRounds dropped enough s with
  | .error none s' => s'
  | _ => s

end Polling

instance : Source (ChainSource σ) where
  seek := seek
  pollOne := pollOne
  abandonPoll := abandonPoll
  highWatermark := do
    let _ ← asSource listNew
    return (← get).positionsEnd

end Reading

end ChainSource

end MirrorV3
