import MirrorV3.Fs.Upkeep

/-! A blob destination stands where its process has come to, whatever it flushes on the way. -/

namespace MirrorV3

open Effect

namespace BlobSink

variable {σ : Type} [EnvelopeLibraries] [BlobStore σ] {s : BlobSink σ} {head : Nat}

/-- A flush that succeeds makes durable what was buffered and moves no position. -/
theorem flushLocked_bufferedHead (trigger : FlushTrigger) (pending : s.buffer ≠ []) :
    wp (flushLocked trigger) (fun _ s' => s'.bufferedHead = s.bufferedHead) (fun _ _ => True) s := by
  obtain ⟨last, ends⟩ : ∃ last, s.buffer.getLast? = some last :=
    Option.isSome_iff_exists.mp (by simpa using pending)
  have before : s.bufferedHead = addOne last.sourceOffset := by simp [bufferedHead, ends]
  -- The new durable position is one past the last record, where the sink stood before.
  have moved : ∀ s' : BlobSink σ, s'.buffer = [] →
      s'.durablePosition = addOne last.sourceOffset → s'.bufferedHead = s.bufferedHead := by
    intro s' empty durable
    rw [before, bufferedHead, empty, durable]
    rfl
  simp only [flushLocked, putObject, wp_bind, wp_get, wp_ofExcept, wp_focus, wp_modify, ends,
    Option.map_some, Option.getD_some]
  refine wp_any (fun batch s₁ => ?_) (fun _ _ => trivial)
  cases s.spec.encode s.checked batch with
  | error e => trivial
  | ok bytes => exact wp_any (fun _ _ => moved _ rfl rfl) (fun _ _ => trivial)

/-- Where the destination stands is kept by whatever takes no record. -/
theorem bufferedHead_upkept :
    Upkept (fun _ _ => True) (fun s : BlobSink σ => s.bufferedHead = head) (fun _ _ => True) where
  refl _ := trivial
  congr _ _ here alike := by
    rw [← here, bufferedHead, bufferedHead, alike.buffer, alike.durable]
  leaves _ _ _ := trivial
  flush trigger _ here pending :=
    wp_mono (flushLocked_bufferedHead trigger pending) (fun _ _ moved => moved.trans here)
      (fun _ _ _ => trivial)

omit [EnvelopeLibraries] in
/-- Whatever a listing does to the store, the position does not depend on it. -/
theorem listsOnly_any : ListsOnly (σ := σ) fun _ _ => True :=
  fun _ _ => wp_any (fun _ _ => trivial) (fun _ _ => trivial)

/-- An idle query answers where the destination stood before it. -/
theorem nextExpectedOffset_bufferedHead :
    wp nextExpectedOffset
      (fun next s' => s'.bufferedHead = s.bufferedHead ∧ next = s.bufferedHead)
      (fun _ _ => True) s :=
  wp_mono (bufferedHead_upkept.nextExpectedOffset listsOnly_any rfl)
    (fun _ _ ⟨same, answered⟩ => ⟨same, answered.trans same⟩) (fun _ _ _ => trivial)

/-- An accepted record is the last one, whether it stays in the buffer or is flushed. -/
theorem write_bufferedHead (record : Record) :
    wp (write record) (fun _ s' => s'.bufferedHead = addOne record.sourceOffset)
      (fun _ _ => True) s := by
  refine bufferedHead_upkept.write bufferedHead_upkept rfl fun s₁ started _ _ => ?_
  simp [bufferedHead, accepted]

instance : LawfulSink (BlobSink σ) where
  owned _ := True
  position := bufferedHead
  nextExpectedOffset_spec _ _ :=
    wp_mono nextExpectedOffset_bufferedHead (fun _ _ answered => ⟨trivial, answered⟩)
      (fun _ _ _ => trivial)
  furthestNextOffset_spec _ _ := ⟨trivial, rfl⟩
  write_spec record _ _ inRange :=
    wp_mono (write_bufferedHead record) (fun _ _ moved => ⟨trivial, moved.trans (addOne_eq inRange)⟩)
      (fun _ _ _ => trivial)
  align_spec lowWatermark s _ _ := by
    show wp (alignToSourceLowWatermark lowWatermark) _ _ s
    simp only [alignToSourceLowWatermark, wp_bind, wp_get, wp_ensure, wp_set]
    split
    · split
      · -- With nothing buffered, the durable position is where the destination stands.
        rename_i quiet
        exact ⟨trivial, by simp [bufferedHead, quiet.1]⟩
      · trivial
    · trivial

/-- A blob destination is taken only at its position or above. -/
theorem write_gate (record : Record) :
    wp (write record) (fun _ _ => s.bufferedHead ≤ record.sourceOffset) (fun _ _ => True) s := by
  simp only [write, wp_bind, wp_get, wp_ensure]
  refine wp_mono (bufferedHead_upkept.tickDaily rfl) (fun _ s₁ ticked => ?_) (fun _ _ _ => trivial)
  split
  · rename_i above
    rw [ticked] at above
    exact wp_any (fun _ _ => above) (fun _ _ => trivial)
  · trivial

/-- What others write to the directory shows in the store and not in the position kept in memory. -/
instance : SharedSink (BlobSink σ) where
  foreign s s' := ∃ store, s' = { s with store }
  foreign_spec
    | _, _, owned, ⟨_, rfl⟩ => ⟨owned, Nat.le_refl _, rfl, fun _ => rfl⟩
  write_gate record _ _ := write_gate record

end BlobSink

end MirrorV3
