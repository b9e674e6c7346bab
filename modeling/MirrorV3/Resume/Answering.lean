import MirrorV3.Core.LogSource
import MirrorV3.Core.NoDestination
import MirrorV3.Core.Tee

/-! Parties that answer whatever the startup asks of them. -/

namespace MirrorV3

open Effect

/-- A record that a destination refuses for where it stands. -/
def SinkError.refusesPosition : SinkError → Bool
  | .unexpectedPosition _ _ => true
  | _ => false

/--
Settled destinations answer where they stand, and align up to a position or refuse to go back.

Nothing is said of destinations that are not settled, such as one whose store is out of reach.
-/
structure Answering {K : Type} [Sink K] [LawfulSink K] (settled : K → Prop) : Prop where
  nextExpectedOffset : ∀ s, settled s → wp (Sink.nextExpectedOffset : Program SinkError K _)
    (fun next s' => settled s' ∧ LawfulSink.position s' = LawfulSink.position s
      ∧ Sink.allowsCompactedSource s' = Sink.allowsCompactedSource s
      ∧ next = LawfulSink.position s) (fun _ _ => False) s
  furthestNextOffset : ∀ s, settled s → wp (Sink.furthestNextOffset : Program SinkError K _)
    (fun furthest s' => settled s' ∧ LawfulSink.position s' = LawfulSink.position s
      ∧ Sink.allowsCompactedSource s' = Sink.allowsCompactedSource s
      ∧ furthest.getD (LawfulSink.position s) = LawfulSink.position s) (fun _ _ => False) s
  align : ∀ lowWatermark s, settled s → Sink.allowsCompactedSource s = true →
    wp (Sink.alignToSourceLowWatermark lowWatermark : Program SinkError K _)
      (fun _ s' => settled s' ∧ LawfulSink.position s' = lowWatermark
        ∧ Sink.allowsCompactedSource s' = Sink.allowsCompactedSource s)
      (fun _ _ => lowWatermark < LawfulSink.position s) s
  write : ∀ record s, settled s → Sink.allowsCompactedSource s = true →
    LawfulSink.position s ≤ record.sourceOffset →
    wp (Sink.write record : Program SinkError K _) (fun _ _ => True)
      (fun e _ => e.refusesPosition = false) s

/-- A position in memory always answers. -/
theorem NoDestinationSink.answering : Answering fun _ : NoDestinationSink => True where
  nextExpectedOffset _ _ := ⟨trivial, rfl, rfl, rfl⟩
  furthestNextOffset _ _ := ⟨trivial, rfl, rfl, rfl⟩
  align _ _ _ _ := ⟨trivial, rfl, rfl⟩
  write record s _ _ above := by
    show wp (NoDestinationSink.write record) _ _ s
    have above : s.position ≤ record.sourceOffset := above
    simp only [NoDestinationSink.write, wp_bind, wp_get, wp_ensure, wp_set]
    rw [if_pos above]
    trivial

/-- Either of two kinds of destination answers if both kinds do. -/
theorem Answering.sum {K₁ K₂ : Type} [Sink K₁] [Sink K₂] [LawfulSink K₁] [LawfulSink K₂]
    {settled₁ : K₁ → Prop} {settled₂ : K₂ → Prop} (first : Answering settled₁)
    (second : Answering settled₂) : Answering (Sum.elim settled₁ settled₂) where
  nextExpectedOffset
    | .inl s, settled => by
      show wp (onEither _ _) _ _ (.inl s)
      simp only [wp_onEither_inl]
      exact first.nextExpectedOffset s settled
    | .inr s, settled => by
      show wp (onEither _ _) _ _ (.inr s)
      simp only [wp_onEither_inr]
      exact second.nextExpectedOffset s settled
  furthestNextOffset
    | .inl s, settled => by
      show wp (onEither _ _) _ _ (.inl s)
      simp only [wp_onEither_inl]
      exact first.furthestNextOffset s settled
    | .inr s, settled => by
      show wp (onEither _ _) _ _ (.inr s)
      simp only [wp_onEither_inr]
      exact second.furthestNextOffset s settled
  align
    | lowWatermark, .inl s, settled, allows => by
      show wp (onEither _ _) _ _ (.inl s)
      simp only [wp_onEither_inl]
      exact first.align lowWatermark s settled allows
    | lowWatermark, .inr s, settled, allows => by
      show wp (onEither _ _) _ _ (.inr s)
      simp only [wp_onEither_inr]
      exact second.align lowWatermark s settled allows
  write
    | record, .inl s, settled, allows, above => by
      show wp (onEither _ _) _ _ (.inl s)
      simp only [wp_onEither_inl]
      exact first.write record s settled allows above
    | record, .inr s, settled, allows, above => by
      show wp (onEither _ _) _ _ (.inr s)
      simp only [wp_onEither_inr]
      exact second.write record s settled allows above

/-- A broker that answers every request, with a high watermark not below this position. -/
def LogSource.Answers (high : Nat) (s : LogSource) : Prop :=
  ∀ n, (s.answers.get n).error = none ∧ high ≤ (s.answers.get n).highWatermark

namespace LogSource

variable {high : Nat} {s : LogSource}

/-- An answered request leaves a broker that answers the next one. -/
theorem request_answers (answers : s.Answers high) :
    wp request (fun answer s' => s'.Answers high ∧ SameLog s s' ∧ high ≤ answer.highWatermark)
      (fun _ _ => False) s := by
  obtain ⟨answered, above⟩ := answers 0
  have head : s.answers.head = s.answers.get 0 := rfl
  simp only [request, wp_bind, wp_get, wp_set, head, answered, wp_pure]
  exact ⟨fun n => answers (n + 1), ⟨rfl, rfl⟩, above⟩

/-- The low watermark is answered. -/
theorem lowWatermark_answers (answers : s.Answers high) :
    wp (Source.lowWatermark : Program SourceError LogSource _)
      (fun low s' => s'.Answers high ∧ low = s.lowWatermark) (fun _ _ => False) s := by
  show wp (request >>= _) _ _ s
  simp only [wp_bind, wp_get, wp_pure]
  exact wp_mono (request_answers answers) (fun _ _ ⟨left, same, _⟩ => ⟨left, same.2⟩)
    (fun _ _ failed => failed)

/-- The high watermark is answered. -/
theorem highWatermark_answers (answers : s.Answers high) :
    wp (Source.highWatermark : Program SourceError LogSource _)
      (fun watermark s' => s'.Answers high ∧ high ≤ watermark) (fun _ _ => False) s := by
  show wp (request >>= _) _ _ s
  simp only [wp_bind, wp_pure]
  exact wp_mono (request_answers answers) (fun _ _ ⟨left, _, above⟩ => ⟨left, above⟩)
    (fun _ _ failed => failed)

/-- A seek is answered, and moves the position. -/
theorem seek_answers (nextOffset : Nat) (answers : s.Answers high) :
    wp (Source.seek nextOffset : Program SourceError LogSource _)
      (fun _ s' => s'.position = nextOffset) (fun _ _ => False) s := by
  show wp (request >>= _) _ _ s
  simp only [wp_bind, wp_modify]
  exact wp_mono (request_answers answers) (fun _ _ _ => trivial) (fun _ _ failed => failed)

end LogSource

end MirrorV3
