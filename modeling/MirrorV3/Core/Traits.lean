import MirrorV3.Lib.Effect
import MirrorV3.Core.Record

/-! The three parties of a mirror loop: a source, a destination and an observer of records. -/

namespace MirrorV3

open Effect

/-- A record stream pinned to one topic partition. -/
class Source (S : Type) where
  /-- Position the source so the next poll returns the record at `nextOffset`. -/
  seek (nextOffset : Nat) : Program SourceError S Unit
  /-- Wait for the next record, and answer nothing when the window elapsed without one. -/
  pollOne : Program SourceError S (Option Record)
  /-- What is left of the source when a poll is dropped before it answers. -/
  abandonPoll : S → S := id
  /-- The earliest offset still retained. -/
  lowWatermark : Program SourceError S Nat := pure 0
  /-- The offset after the last record. -/
  highWatermark : Program SourceError S Nat := pure (2 ^ 64 - 1)

/-- A destination that owns the truth about where the mirror is. -/
class Sink (K : Type) where
  /-- The source offset the destination accepts next. -/
  nextExpectedOffset : Program SinkError K Nat
  /-- The highest next offset of any part of the destination, when it is not the one above. -/
  furthestNextOffset : Program SinkError K (Option Nat) := pure none
  /-- Commit a record at exactly its source offset. -/
  write (record : Record) : Program SinkError K Unit
  /-- Make buffered records durable. -/
  flush : Program SinkError K Unit := pure ()
  /-- Whether the destination can resume past records the source no longer has. -/
  allowsCompactedSource : K → Bool := fun _ => false
  /-- Whether the destination accepts an offset above the next expected one. -/
  allowsOffsetHoles : K → Bool := fun _ => false
  /-- Move the next expected offset up to what the source still has. -/
  alignToSourceLowWatermark (lowWatermark : Nat) : Program SinkError K Unit :=
    let _ := lowWatermark
    pure ()

/-- A destination that only its own process writes to, and where that process has come to. -/
class LawfulSink (K : Type) [Sink K] where
  /-- The states in which the destination is what this process wrote. -/
  owned : K → Prop
  /-- One past the last accepted record, or the opening head before the first. -/
  position : K → Nat
  /-- A query answers where the process has come to. -/
  nextExpectedOffset_spec : ∀ s, owned s → wp (Sink.nextExpectedOffset : Program SinkError K _)
    (fun next s' => owned s' ∧ position s' = position s ∧ next = position s) (fun _ _ => True) s
  /-- The query for the furthest part moves nothing. -/
  furthestNextOffset_spec : ∀ s, owned s → wp (Sink.furthestNextOffset : Program SinkError K _)
    (fun _ s' => owned s' ∧ position s' = position s) (fun _ _ => True) s
  /-- An accepted record is the last one accepted. -/
  write_spec : ∀ record s, owned s → record.sourceOffset + 1 < 2 ^ 64 →
    wp (Sink.write record : Program SinkError K _)
      (fun _ s' => owned s' ∧ position s' = record.sourceOffset + 1) (fun _ _ => True) s
  /-- A destination that can leave records out stands where it is aligned to. -/
  align_spec : ∀ lowWatermark s, owned s → Sink.allowsCompactedSource s = true →
    wp (Sink.alignToSourceLowWatermark lowWatermark : Program SinkError K _)
      (fun _ s' => owned s' ∧ position s' = lowWatermark) (fun _ _ => True) s

/-- A destination that others may write to, and what its contract makes of that. -/
class SharedSink (K : Type) [Sink K] [LawfulSink K] where
  /-- What a write of another makes of the destination as this process has it. -/
  foreign : K → K → Prop
  /-- Such a write is only reported by a destination that takes no offset but the next one. -/
  foreign_spec : ∀ s s' : K, LawfulSink.owned s → foreign s s' →
    LawfulSink.owned s' ∧ LawfulSink.position s ≤ LawfulSink.position s'
      ∧ Sink.allowsOffsetHoles s' = Sink.allowsOffsetHoles s
      ∧ (Sink.allowsOffsetHoles s = true → LawfulSink.position s' = LawfulSink.position s)
  /-- A record below the position is not taken. -/
  write_gate : ∀ record (s : K), LawfulSink.owned s →
    wp (Sink.write record : Program SinkError K _)
      (fun _ _ => LawfulSink.position s ≤ record.sourceOffset) (fun _ _ => True) s

/-- An observer told of each record after the destination took it. -/
class Notifier (N : Type) where
  /-- Observe a record that was just written. -/
  onRecord (record : Record) : Program NotifyError N Unit :=
    let _ := record
    pure ()
  /-- Drain what is buffered on a graceful stop. -/
  shutdown : Program NotifyError N Unit := pure ()

/-- The observer of a mirror that notifies nobody. -/
structure NoOpNotifier where
  deriving Repr, DecidableEq

instance : Notifier NoOpNotifier where

/-- Two kinds of destination behind one interface, as a boxed sink hides which it is. -/
instance {K₁ K₂ : Type} [Sink K₁] [Sink K₂] : Sink (K₁ ⊕ K₂) where
  nextExpectedOffset := onEither Sink.nextExpectedOffset Sink.nextExpectedOffset
  furthestNextOffset := onEither Sink.furthestNextOffset Sink.furthestNextOffset
  write record := onEither (Sink.write record) (Sink.write record)
  flush := onEither Sink.flush Sink.flush
  allowsCompactedSource := Sum.elim Sink.allowsCompactedSource Sink.allowsCompactedSource
  allowsOffsetHoles := Sum.elim Sink.allowsOffsetHoles Sink.allowsOffsetHoles
  alignToSourceLowWatermark lowWatermark :=
    onEither (Sink.alignToSourceLowWatermark lowWatermark)
      (Sink.alignToSourceLowWatermark lowWatermark)

instance {K₁ K₂ : Type} [Sink K₁] [Sink K₂] [LawfulSink K₁] [LawfulSink K₂] :
    LawfulSink (K₁ ⊕ K₂) where
  owned := Sum.elim LawfulSink.owned LawfulSink.owned
  position := Sum.elim LawfulSink.position LawfulSink.position
  nextExpectedOffset_spec
    | .inl s, owned => by
      show wp (onEither _ _) _ _ (.inl s)
      simp only [wp_onEither_inl]
      exact LawfulSink.nextExpectedOffset_spec s owned
    | .inr s, owned => by
      show wp (onEither _ _) _ _ (.inr s)
      simp only [wp_onEither_inr]
      exact LawfulSink.nextExpectedOffset_spec s owned
  furthestNextOffset_spec
    | .inl s, owned => by
      show wp (onEither _ _) _ _ (.inl s)
      simp only [wp_onEither_inl]
      exact LawfulSink.furthestNextOffset_spec s owned
    | .inr s, owned => by
      show wp (onEither _ _) _ _ (.inr s)
      simp only [wp_onEither_inr]
      exact LawfulSink.furthestNextOffset_spec s owned
  write_spec
    | record, .inl s, owned, inRange => by
      show wp (onEither _ _) _ _ (.inl s)
      simp only [wp_onEither_inl]
      exact LawfulSink.write_spec record s owned inRange
    | record, .inr s, owned, inRange => by
      show wp (onEither _ _) _ _ (.inr s)
      simp only [wp_onEither_inr]
      exact LawfulSink.write_spec record s owned inRange
  align_spec
    | lowWatermark, .inl s, owned, allowed => by
      show wp (onEither _ _) _ _ (.inl s)
      simp only [wp_onEither_inl]
      exact LawfulSink.align_spec lowWatermark s owned allowed
    | lowWatermark, .inr s, owned, allowed => by
      show wp (onEither _ _) _ _ (.inr s)
      simp only [wp_onEither_inr]
      exact LawfulSink.align_spec lowWatermark s owned allowed

instance {K₁ K₂ : Type} [Sink K₁] [Sink K₂] [LawfulSink K₁] [LawfulSink K₂] [SharedSink K₁]
    [SharedSink K₂] : SharedSink (K₁ ⊕ K₂) where
  foreign
    | .inl s, .inl s' => SharedSink.foreign s s'
    | .inr s, .inr s' => SharedSink.foreign s s'
    | _, _ => False
  foreign_spec
    | .inl s, .inl s', owned, written => SharedSink.foreign_spec s s' owned written
    | .inr s, .inr s', owned, written => SharedSink.foreign_spec s s' owned written
    | .inl _, .inr _, _, written => written.elim
    | .inr _, .inl _, _, written => written.elim
  write_gate
    | record, .inl s, owned => by
      show wp (onEither _ _) _ _ (.inl s)
      simp only [wp_onEither_inl]
      exact SharedSink.write_gate record s owned
    | record, .inr s, owned => by
      show wp (onEither _ _) _ _ (.inr s)
      simp only [wp_onEither_inr]
      exact SharedSink.write_gate record s owned

end MirrorV3
