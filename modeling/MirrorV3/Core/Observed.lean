import MirrorV3.Core.RunLoop

/-! Parties of the loop that remember what was asked of them, and otherwise do what they did. -/

namespace MirrorV3

open Effect

/-- A source that remembers the records it delivered. -/
structure Delivering (S : Type) where
  source : S
  delivered : List Record

/-- A destination that remembers where it began, and which records it was asked to write. -/
structure Recorded (K : Type) where
  sink : K
  opening : Nat
  /-- The records `write` was called with. -/
  presented : List Record
  /-- The records `write` returned for. -/
  accepted : List Record

/-- An observer that remembers the records it was told of. -/
structure Notified (N : Type) where
  notifier : N
  notified : List Record

variable {S K N : Type}

/-- The source itself. -/
def Delivering.part : Part (Delivering S) S := ⟨source, fun source s => { s with source }⟩

/-- The destination itself. -/
def Recorded.part : Part (Recorded K) K := ⟨sink, fun sink s => { s with sink }⟩

/-- The observer itself. -/
def Notified.part : Part (Notified N) N := ⟨notifier, fun notifier s => { s with notifier }⟩

instance [Source S] : Source (Delivering S) where
  seek nextOffset := focus Delivering.part id (Source.seek nextOffset)
  pollOne := do
    let polled ← focus Delivering.part id Source.pollOne
    modify fun s => { s with delivered := s.delivered ++ polled.toList }
    pure polled
  abandonPoll s := { s with source := Source.abandonPoll s.source }
  lowWatermark := focus Delivering.part id Source.lowWatermark
  highWatermark := focus Delivering.part id Source.highWatermark

/-- Write a record, remembering the call before it is made and the success after it. -/
def Recorded.write [Sink K] (record : Record) : Program SinkError (Recorded K) Unit := do
  modify fun s => { s with presented := s.presented ++ [record] }
  focus Recorded.part id (Sink.write record)
  modify fun s => { s with accepted := s.accepted ++ [record] }

instance [Sink K] : Sink (Recorded K) where
  nextExpectedOffset := focus Recorded.part id Sink.nextExpectedOffset
  furthestNextOffset := focus Recorded.part id Sink.furthestNextOffset
  write := Recorded.write
  flush := focus Recorded.part id Sink.flush
  allowsCompactedSource s := Sink.allowsCompactedSource s.sink
  allowsOffsetHoles s := Sink.allowsOffsetHoles s.sink
  alignToSourceLowWatermark lowWatermark := do
    focus Recorded.part id (Sink.alignToSourceLowWatermark lowWatermark)
    modify fun s => { s with opening := lowWatermark }

instance [Notifier N] : Notifier (Notified N) where
  onRecord record := do
    modify fun s => { s with notified := s.notified ++ [record] }
    focus Notified.part id (Notifier.onRecord record)
  shutdown := focus Notified.part id Notifier.shutdown

end MirrorV3
