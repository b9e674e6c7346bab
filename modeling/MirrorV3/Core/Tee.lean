import MirrorV3.Lib.Fanout
import MirrorV3.Core.Cache
import MirrorV3.Core.Traits

/-! One source fanned out to several destinations, each resumed from where it stands itself. -/

namespace MirrorV3

open Effect

/-- One inner sink and the source offset it will accept next. -/
structure InnerSink (K : Type) where
  name : String
  sink : K
  head : Nat

/-- Several destinations behind one, with the view that is fed beside them. -/
structure TeeSink (K : Type) where
  /-- Never empty, since opening refuses an empty tee. -/
  inners : List (InnerSink K)
  cache : Option CacheBinding
  /-- A position below the destinations from which records are read again for the notifier. -/
  resumeCursor : Option Nat

namespace InnerSink

variable {K : Type}

/-- The destination as a part of its slot. -/
def sinkPart : Part (InnerSink K) K := ⟨sink, fun sink s => { s with sink }⟩

variable [Sink K]

/-- Ask the destination where it stands when the tee is opened. -/
def queryHead : Program SinkError (InnerSink K) Unit := do
  let head ← focus sinkPart id Sink.nextExpectedOffset
  modify fun inner => { inner with head }

/-- Ask the destination again, which may only have moved forward. -/
def refreshHead : Program SinkError (InnerSink K) Unit := do
  let head ← focus sinkPart id Sink.nextExpectedOffset
  let inner ← get
  ensure (inner.head ≤ head) (.inconsistent (s!"inner sink {inner.name}: destination went back "
    ++ s!"from next offset {inner.head} to {head}"))
  set { inner with head }

/-- The furthest any part of the destination is, by default its head. -/
def furthest : Program SinkError (InnerSink K) Nat := do
  let furthest ← focus sinkPart id Sink.furthestNextOffset
  return furthest.getD (← get).head

/-- Write the record unless the destination is past it already. -/
def write (record : Record) : Program SinkError (InnerSink K) Unit := do
  let inner ← get
  if inner.head ≤ record.sourceOffset then do
    focus sinkPart (·.context s!"inner sink {inner.name}") (Sink.write record)
    modify fun inner => { inner with head := addOne record.sourceOffset }
  else pure ()

/-- Make what the destination buffers durable. -/
def flush : Program SinkError (InnerSink K) Unit := do
  let inner ← get
  focus sinkPart (·.context s!"inner sink {inner.name} flush") Sink.flush

/-- Move the destination up to what the source still has. -/
def align (lowWatermark : Nat) : Program SinkError (InnerSink K) Unit := do
  let inner ← get
  focus sinkPart (·.context s!"inner sink {inner.name} align")
    (Sink.alignToSourceLowWatermark lowWatermark)

end InnerSink

namespace TeeSink

variable {K : Type}

/-- The inner sinks as a part of the tee. -/
def innersPart : Part (TeeSink K) (List (InnerSink K)) :=
  ⟨inners, fun inners s => { s with inners }⟩

/-- The slots of the sinks a tee is opened over. -/
def slots (sinks : List (String × K)) : List (InnerSink K) :=
  sinks.map fun (name, sink) => ⟨name, sink, 0⟩

/-- Make the source resume from `floor` when it is below the destinations. -/
def setResumeFloor (floor : Nat) (s : TeeSink K) : TeeSink K :=
  { s with resumeCursor := some floor }

/-- Keep the cursor in step with what the loop expects next. -/
def advanceResumeCursor (recordOffset : Nat) (s : TeeSink K) : TeeSink K :=
  { s with resumeCursor := s.resumeCursor.map fun cursor => max cursor (addOne recordOffset) }

/-- Every inner sink with the head it has. -/
def heads (s : TeeSink K) : List (String × Nat) := s.inners.map fun inner => (inner.name, inner.head)

/-- Apply a record to the view, once however many destinations there are. -/
def applyToCache (record : Record) (s : TeeSink K) : TeeSink K :=
  { s with cache := s.cache.map (·.applyRecord record) }

/-- The head of the slowest inner sink. -/
def minHead (s : TeeSink K) : Nat := ((s.inners.map (·.head)).min?).getD 0

/-- No inner sink is behind the slowest head. -/
theorem minHead_le {s : TeeSink K} {inner : InnerSink K} (mem : inner ∈ s.inners) :
    s.minHead ≤ inner.head := by
  unfold minHead
  cases least : (s.inners.map (·.head)).min? with
  | none => simp
  | some head =>
    exact (List.min?_eq_some_iff.mp least).2 inner.head (List.mem_map_of_mem mem)

/-- The slowest head is that of some inner sink. -/
theorem exists_minHead {s : TeeSink K} (nonempty : s.inners ≠ []) :
    ∃ inner ∈ s.inners, inner.head = s.minHead := by
  unfold minHead
  cases least : (s.inners.map (·.head)).min? with
  | none => simp [List.min?_eq_none_iff, nonempty] at least
  | some head =>
    obtain ⟨inner, mem, same⟩ := List.mem_map.mp (List.min?_eq_some_iff.mp least).1
    exact ⟨inner, mem, same⟩

/-- Where the tee resumes: at its slowest inner sink, or at the cursor when that is lower. -/
def resumePosition (s : TeeSink K) : Nat :=
  match s.resumeCursor with
  | some cursor => min s.minHead cursor
  | none => s.minHead

/-- The tee never resumes above an inner sink. -/
theorem resumePosition_le {s : TeeSink K} {inner : InnerSink K} (mem : inner ∈ s.inners) :
    s.resumePosition ≤ inner.head := by
  have := minHead_le mem
  unfold resumePosition
  cases s.resumeCursor with
  | none => exact this
  | some cursor =>
    simp only
    omega

variable [Sink K]

/-- Open a tee, asking every inner sink once where it stands. -/
def openTee (cache : Option CacheBinding) : Program SinkError (List (InnerSink K)) (TeeSink K) := do
  ensure ((← get) ≠ []) (.transport "TeeSink requires at least one inner sink")
  let _ ← forEach InnerSink.queryHead
  return ⟨← get, cache, none⟩

instance : Sink (TeeSink K) where
  nextExpectedOffset := do
    let _ ← focus innersPart id (forEach InnerSink.refreshHead)
    return (← get).resumePosition
  furthestNextOffset := do
    let heads ← focus innersPart id (forEach InnerSink.furthest)
    return some (heads.foldl max 0)
  write record := do
    modify (applyToCache record)
    -- Those behind the record are written side by side, those past it are left alone.
    focus innersPart id (forAll (InnerSink.write record))
    modify (advanceResumeCursor record.sourceOffset)
  flush := focus innersPart id (forAll InnerSink.flush)
  allowsCompactedSource s := s.inners.all fun inner => Sink.allowsCompactedSource inner.sink
  allowsOffsetHoles s := s.inners.all fun inner => Sink.allowsOffsetHoles inner.sink
  alignToSourceLowWatermark lowWatermark := do
    focus innersPart id (forAll (InnerSink.align lowWatermark))
    modify fun s => { s with inners := s.inners.map ({ · with head := lowWatermark }) }

end TeeSink

end MirrorV3
