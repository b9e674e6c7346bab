import MirrorV3.Core.Traits

/-! The destination of a mirror without destinations: a position in memory and nothing else. -/

namespace MirrorV3

open Effect

/-- The next offset a mirror without destinations expects. -/
structure NoDestinationSink where
  position : Nat
  deriving Repr, DecidableEq

/-- Accept any record at the position or above. -/
def NoDestinationSink.write (record : Record) : Program SinkError NoDestinationSink Unit := do
  let s ← get
  ensure (s.position ≤ record.sourceOffset) (.unexpectedPosition s.position record.sourceOffset)
  set (⟨addOne record.sourceOffset⟩ : NoDestinationSink)

instance : Sink NoDestinationSink where
  nextExpectedOffset := do return (← get).position
  write := NoDestinationSink.write
  allowsCompactedSource _ := true
  allowsOffsetHoles _ := true
  alignToSourceLowWatermark lowWatermark := set (⟨lowWatermark⟩ : NoDestinationSink)

/-- A position in memory is written by this process alone. -/
instance : LawfulSink NoDestinationSink where
  owned _ := True
  position := NoDestinationSink.position
  nextExpectedOffset_spec _ _ := ⟨trivial, rfl, rfl⟩
  furthestNextOffset_spec _ _ := ⟨trivial, rfl⟩
  write_spec record s _ inRange := by
    show wp (NoDestinationSink.write record) _ _ s
    simp only [NoDestinationSink.write, wp_bind, wp_get, wp_ensure, wp_set]
    split
    · exact ⟨trivial, addOne_eq inRange⟩
    · trivial
  align_spec _ _ _ _ := ⟨trivial, rfl⟩

/-- No one else can write to a position in memory. -/
instance : SharedSink NoDestinationSink where
  foreign s s' := s' = s
  foreign_spec
    | s, _, owned, rfl => ⟨owned, Nat.le_refl _, rfl, fun _ => rfl⟩
  write_gate record s _ := by
    show wp (NoDestinationSink.write record) _ _ s
    simp only [NoDestinationSink.write, wp_bind, wp_get, wp_ensure, wp_set]
    split
    · rename_i atOrAbove
      exact atOrAbove
    · trivial

end MirrorV3
