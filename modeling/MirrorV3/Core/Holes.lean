import MirrorV3.Core.Observed
import MirrorV3.Core.Tee
import MirrorV3.Fs.BlobSink
import MirrorV3.Kafka.Sink

/-! Destinations that accept holes, or do not, through everything that is asked of them. -/

namespace MirrorV3

open Effect

/-- A destination that is asked and written to, and accepts holes or does not as before. -/
class FixedHoles (K : Type) [Sink K] : Prop where
  /-- What can do without records the source no longer has can do without any. -/
  compacted : ∀ s : K, Sink.allowsCompactedSource s = true → Sink.allowsOffsetHoles s = true
  nextExpectedOffset : ∀ s : K, wp (Sink.nextExpectedOffset : Program SinkError K _)
    (fun _ s' => Sink.allowsOffsetHoles s' = Sink.allowsOffsetHoles s) (fun _ _ => True) s
  furthestNextOffset : ∀ s : K, wp (Sink.furthestNextOffset : Program SinkError K _)
    (fun _ s' => Sink.allowsOffsetHoles s' = Sink.allowsOffsetHoles s) (fun _ _ => True) s
  write : ∀ record (s : K), wp (Sink.write record : Program SinkError K _)
    (fun _ s' => Sink.allowsOffsetHoles s' = Sink.allowsOffsetHoles s) (fun _ _ => True) s

instance {σ : Type} [EnvelopeLibraries] [BlobStore σ] : FixedHoles (BlobSink σ) where
  compacted _ _ := rfl
  nextExpectedOffset _ := wp_any (fun _ _ => rfl) (fun _ _ => trivial)
  furthestNextOffset _ := wp_any (fun _ _ => rfl) (fun _ _ => trivial)
  write _ _ := wp_any (fun _ _ => rfl) (fun _ _ => trivial)

instance {β : Type} [Broker β] [PayloadParsers] : FixedHoles (KafkaSink β) where
  compacted _ allows := absurd allows Bool.false_ne_true
  nextExpectedOffset _ := wp_any (fun _ _ => rfl) (fun _ _ => trivial)
  furthestNextOffset _ := wp_any (fun _ _ => rfl) (fun _ _ => trivial)
  write _ _ := wp_any (fun _ _ => rfl) (fun _ _ => trivial)

instance {K₁ K₂ : Type} [Sink K₁] [Sink K₂] [FixedHoles K₁] [FixedHoles K₂] :
    FixedHoles (K₁ ⊕ K₂) where
  compacted
    | .inl s, allows => FixedHoles.compacted s allows
    | .inr s, allows => FixedHoles.compacted s allows
  nextExpectedOffset
    | .inl s => by
      show wp (onEither _ _) _ _ (.inl s)
      simp only [wp_onEither_inl]
      exact FixedHoles.nextExpectedOffset s
    | .inr s => by
      show wp (onEither _ _) _ _ (.inr s)
      simp only [wp_onEither_inr]
      exact FixedHoles.nextExpectedOffset s
  furthestNextOffset
    | .inl s => by
      show wp (onEither _ _) _ _ (.inl s)
      simp only [wp_onEither_inl]
      exact FixedHoles.furthestNextOffset s
    | .inr s => by
      show wp (onEither _ _) _ _ (.inr s)
      simp only [wp_onEither_inr]
      exact FixedHoles.furthestNextOffset s
  write
    | record, .inl s => by
      show wp (onEither _ _) _ _ (.inl s)
      simp only [wp_onEither_inl]
      exact FixedHoles.write record s
    | record, .inr s => by
      show wp (onEither _ _) _ _ (.inr s)
      simp only [wp_onEither_inr]
      exact FixedHoles.write record s

namespace TeeSink

variable {K : Type} [Sink K] [FixedHoles K] {tee : TeeSink (Recorded K)}

/-- A slot that went on, and takes holes or does not as before. -/
def SameHoles (before after : InnerSink (Recorded K)) : Prop :=
  Sink.allowsOffsetHoles after.sink = Sink.allowsOffsetHoles before.sink

omit [FixedHoles K] in
/-- A tee takes holes when its slots do, one by one. -/
theorem allowsOffsetHoles_of_same {tee' : TeeSink (Recorded K)}
    (same : List.Forall₂ SameHoles tee.inners tee'.inners) :
    Sink.allowsOffsetHoles tee' = Sink.allowsOffsetHoles tee := by
  have flags : tee'.inners.map (fun inner => Sink.allowsOffsetHoles inner.sink)
      = tee.inners.map fun inner => Sink.allowsOffsetHoles inner.sink :=
    map_eq_of_forall₂ same fun _ _ step => step
  have all : ∀ inners : List (InnerSink (Recorded K)),
      (inners.all fun inner => Sink.allowsOffsetHoles inner.sink)
        = (inners.map fun inner => Sink.allowsOffsetHoles inner.sink).all id := by
    intro inners
    rw [List.all_map]
    rfl
  show (tee'.inners.all fun inner => Sink.allowsOffsetHoles inner.sink)
    = tee.inners.all fun inner => Sink.allowsOffsetHoles inner.sink
  rw [all, all, flags]

/-- A query leaves a tee as tolerant of holes as it was. -/
theorem nextExpectedOffset_holes :
    wp (Sink.nextExpectedOffset : Program SinkError (TeeSink (Recorded K)) Nat)
      (fun _ tee' => Sink.allowsOffsetHoles tee' = Sink.allowsOffsetHoles tee)
      (fun _ _ => True) tee := by
  have each : ∀ inner ∈ tee.inners, wp InnerSink.refreshHead
      (fun _ inner' => SameHoles inner inner' ∧ True) (fun _ _ => True ∧ True) inner := by
    intro inner _
    have query : (Sink.nextExpectedOffset : Program SinkError (Recorded K) Nat)
        = focus Recorded.part id Sink.nextExpectedOffset := rfl
    simp only [InnerSink.refreshHead, query, wp_bind, wp_focus, wp_get, wp_ensure, wp_set]
    refine wp_mono (FixedHoles.nextExpectedOffset inner.sink.sink) (fun next sink same => ?_)
      (fun _ _ _ => ⟨trivial, trivial⟩)
    split
    · exact ⟨same, trivial⟩
    · exact ⟨trivial, trivial⟩
  show wp (focus TeeSink.innersPart id _ >>= _) _ _ tee
  simp only [wp_bind, wp_focus, wp_get, wp_pure]
  exact wp_mono (wp_forEach (fun _ _ => True) (fun _ => True) (fun _ _ => trivial)
    (fun _ _ _ => trivial) each) (fun _ _ ⟨same, _⟩ => allowsOffsetHoles_of_same same)
    (fun _ _ _ => trivial)

/-- Asking for the furthest part leaves a tee as tolerant of holes as it was. -/
theorem furthestNextOffset_holes :
    wp (Sink.furthestNextOffset : Program SinkError (TeeSink (Recorded K)) _)
      (fun _ tee' => Sink.allowsOffsetHoles tee' = Sink.allowsOffsetHoles tee)
      (fun _ _ => True) tee := by
  have each : ∀ inner ∈ tee.inners, wp InnerSink.furthest
      (fun _ inner' => SameHoles inner inner' ∧ True) (fun _ _ => True ∧ True) inner := by
    intro inner _
    have query : (Sink.furthestNextOffset : Program SinkError (Recorded K) _)
        = focus Recorded.part id Sink.furthestNextOffset := rfl
    simp only [InnerSink.furthest, query, wp_bind, wp_focus, wp_get, wp_pure]
    exact wp_mono (FixedHoles.furthestNextOffset inner.sink.sink)
      (fun _ _ same => ⟨same, trivial⟩) (fun _ _ _ => ⟨trivial, trivial⟩)
  show wp (focus TeeSink.innersPart id _ >>= _) _ _ tee
  simp only [wp_bind, wp_focus, wp_pure]
  exact wp_mono (wp_forEach (fun _ _ => True) (fun _ => True) (fun _ _ => trivial)
    (fun _ _ _ => trivial) each) (fun _ _ ⟨same, _⟩ => allowsOffsetHoles_of_same same)
    (fun _ _ _ => trivial)

/-- A write leaves a tee as tolerant of holes as it was. -/
theorem write_holes (record : Record) :
    wp (Sink.write record : Program SinkError (TeeSink (Recorded K)) Unit)
      (fun _ tee' => Sink.allowsOffsetHoles tee' = Sink.allowsOffsetHoles tee)
      (fun _ _ => True) tee := by
  have each : ∀ inner ∈ tee.inners, wp (InnerSink.write record)
      (fun _ inner' => SameHoles inner inner') (fun _ _ => True ∧ True) inner := by
    intro inner _
    have writes : (Sink.write record : Program SinkError (Recorded K) Unit)
        = Recorded.write record := rfl
    simp only [InnerSink.write, writes, Recorded.write, wp_bind, wp_get, wp_ite, wp_focus,
      wp_modify, wp_pure]
    split
    · exact wp_mono (FixedHoles.write record inner.sink.sink) (fun _ _ same => same)
        (fun _ _ _ => ⟨trivial, trivial⟩)
    · rfl
  show wp (modify (TeeSink.applyToCache record) >>= _) _ _ tee
  simp only [wp_bind, wp_modify, wp_focus]
  exact wp_mono (wp_forAll (fun _ => True) (fun _ _ _ => trivial) each)
    (fun _ _ same => allowsOffsetHoles_of_same same) (fun _ _ _ => trivial)

/-- A tee that takes no holes cannot do without records the source no longer has. -/
theorem not_allowsCompactedSource (holes : Sink.allowsOffsetHoles tee = false) :
    ¬ Sink.allowsCompactedSource tee = true := by
  intro allows
  have every : ∀ inner ∈ tee.inners, Sink.allowsCompactedSource inner.sink = true :=
    List.all_eq_true.mp allows
  have tolerant : Sink.allowsOffsetHoles tee = true :=
    List.all_eq_true.mpr fun inner mem => FixedHoles.compacted inner.sink.sink (every inner mem)
  exact absurd (holes.symm.trans tolerant) Bool.false_ne_true

end TeeSink

end MirrorV3
