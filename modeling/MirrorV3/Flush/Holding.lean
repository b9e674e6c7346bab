import Mathlib.Data.List.Basic
import MirrorV3.Flush.Observer
import MirrorV3.Fs.Append
import MirrorV3.Fs.View
import MirrorV3.Kafka.Produce

/-! What is behind a destination at a moment, and when it holds a record that was handed over. -/

namespace MirrorV3

open Effect

/-- What is stored behind a destination at some moment. -/
inductive Content where
  | objects (objects : List BlobObject)
  | messages (messages : List FutureRecord)
  deriving Repr, DecidableEq

/-- What was stored at one moment is there at another, with perhaps more after it. -/
def Content.Within : Content → Content → Prop
  | .objects before, .objects after => before <+: after
  | .messages before, .messages after => before <+: after
  | _, _ => False

section Content

variable {first second third : Content}

/-- What is stored is there at the same moment. -/
theorem Content.within_refl (content : Content) : content.Within content := by
  -- A list is a first part of itself.
  cases content with
  | objects objects => exact List.prefix_rfl
  | messages messages => exact List.prefix_rfl

/-- What is still there later is still there after that. -/
theorem Content.Within.trans (within : first.Within second) (further : second.Within third) :
    first.Within third := by
  -- Only contents of one kind are within one another.
  cases first with
  | objects =>
    cases second with
    | messages => exact within.elim
    | objects =>
      cases third with
      | messages => exact further.elim
      | objects => exact List.IsPrefix.trans within further
  | messages =>
    cases second with
    | objects => exact within.elim
    | messages =>
      cases third with
      | objects => exact further.elim
      | messages => exact List.IsPrefix.trans within further

end Content

/-- A call of an observer: the range it is told of, and what was stored at that moment. -/
structure NotedCall where
  range : Nat × Nat
  found : Content
  deriving Repr, DecidableEq

/-- A destination with a store behind it, from which records can be read back. -/
class HoldingSink (K : Type) where
  /-- What is stored behind the destination. -/
  found : K → Content
  /-- The calls of the installed observer, in order. -/
  calls : K → List NotedCall := fun _ => []
  /-- What is stored at some moment holds a record, going by the records delivered until then. -/
  Holds : K → Content → List Record → Record → Prop

/--
Written-out records are as new as a record that was delivered.

An archive has the record itself.
A snapshot has for its key what the record, or a later one with that key, left of it.
-/
def SpeaksFor (compaction : Option CompactionMode) (delivered records : List Record)
    (record : Record) : Prop :=
  match compaction with
  | none => record ∈ records
  | some .log => ∃ key, record.utf8Key = some key ∧ ∃ last ∈ delivered, last.utf8Key = some key
      ∧ record.sourceOffset ≤ last.sourceOffset ∧ lastRecord records key = last.kept

/-- With more records delivered, what speaks for a record still does. -/
theorem SpeaksFor.mono {compaction : Option CompactionMode}
    {delivered more records : List Record} {record : Record}
    (speaks : SpeaksFor compaction delivered records record) (grown : delivered ⊆ more) :
    SpeaksFor compaction more records record := by
  -- Only a snapshot looks at what was delivered, for one record of it.
  cases compaction with
  | none => exact speaks
  | some mode =>
    obtain ⟨key, named, last, mem, rest⟩ := speaks
    exact ⟨key, named, last, grown mem, rest⟩

section Destinations

variable [EnvelopeLibraries]

/-- Some object, read back under the settings it was written with, speaks for a record. -/
def BlobSpec.Holds (spec : BlobSpec) (delivered : List Record) (objects : List BlobObject)
    (record : Record) : Prop :=
  ∃ object ∈ objects, ∃ records,
    (∀ location, decodeBlob object.1 location object.2 spec.format
      (spec.encryption.map (·.keyring)) = .ok records)
    ∧ SpeaksFor spec.compaction delivered records record

/-- With more objects and more records delivered, a record that was held still is. -/
theorem BlobSpec.Holds.mono {spec : BlobSpec} {delivered more : List Record}
    {objects objects' : List BlobObject} {record : Record}
    (holds : spec.Holds delivered objects record) (kept : objects <+: objects')
    (grown : delivered ⊆ more) : spec.Holds more objects' record := by
  -- The object that speaks for the record is still there.
  obtain ⟨object, mem, records, decodes, speaks⟩ := holds
  exact ⟨object, kept.subset mem, records, decodes, speaks.mono grown⟩

/-- Behind a blob destination are the objects of its directory. -/
instance {σ : Type} [BlobHistory σ] : HoldingSink (BlobSink σ) where
  found s := .objects (objects s.store)
  calls s := (s.flushObserver.getD []).map fun call => ⟨call.range, .objects (objects call.store)⟩
  Holds s content delivered record :=
    match content with
    | .objects objects => s.spec.Holds delivered objects record
    | .messages _ => False

omit [EnvelopeLibraries] in
/-- Behind a Kafka destination is its partition, where a record is the message at its offset. -/
instance {β : Type} [PartitionHistory β] : HoldingSink (KafkaSink β) where
  found s := .messages (stored s.broker)
  Holds s content _ record :=
    match content with
    | .objects _ => False
    | .messages messages =>
      messages[record.sourceOffset]? = some (s.config.futureRecord record)

omit [EnvelopeLibraries] in
instance {K₁ K₂ : Type} [HoldingSink K₁] [HoldingSink K₂] : HoldingSink (K₁ ⊕ K₂) where
  found := Sum.elim HoldingSink.found HoldingSink.found
  calls := Sum.elim HoldingSink.calls HoldingSink.calls
  Holds := Sum.elim HoldingSink.Holds HoldingSink.Holds

end Destinations

/-- A store that keeps what was put into it, whatever else is put. -/
class KeepingStore (σ : Type) [BlobStore σ] [BlobHistory σ] : Prop where
  /-- A put that is reported done left its object, and no put takes one away. -/
  putNew_kept : ∀ name bytes (s : σ), wp (BlobStore.putNew name bytes : Program BlobError σ _)
    (fun _ s' => objects s <+: objects s' ∧ (name, bytes) ∈ objects s')
    (fun _ s' => objects s <+: objects s') s
  /-- A partial listing takes no object away. -/
  listAfter_kept : ∀ after (s : σ), wp (BlobStore.listAfter after : Program BlobError σ _)
    (fun _ s' => objects s <+: objects s') (fun _ s' => objects s <+: objects s') s

instance : KeepingStore ObjectStore where
  putNew_kept name bytes s := by
    -- The put is refused, lost, or appended, and only what was appended is reported done.
    show wp (ObjectStore.putNew name bytes) _ _ s
    simp only [ObjectStore.putNew, wp_bind, wp_get, wp_ensure, wp_set]
    split
    · cases outcome : s.answers.head.error with
      | none => exact ⟨List.prefix_append _ _, List.mem_append_right _ (List.mem_singleton_self _)⟩
      | some error =>
        cases s.answers.head.landed with
        | false => exact List.prefix_rfl
        | true => exact List.prefix_append _ _
    · exact List.prefix_rfl
  listAfter_kept after s :=
    wp_mono (LawfulBlobStore.listAfter_spec after s) (fun _ _ same => same ▸ List.prefix_rfl)
      (fun _ _ same => same ▸ List.prefix_rfl)

namespace BlobSink

variable {σ : Type} {s : BlobSink σ} {fed : List Record} {record : Record}

/-- One more accepted record is the last of the next batch, or the last of its key. -/
theorem speaksFor_accepted {started : Nat} (filed : ∀ view ∈ s.view, View.Filed view)
    (keyed : s.spec.compaction = some .log → ∃ key, record.utf8Key = some key) :
    SpeaksFor s.spec.compaction (fed ++ [record]) (s.accepted record started).batch record
      ∧ ∀ r, r.sourceOffset ≤ record.sourceOffset → SpeaksFor s.spec.compaction fed s.batch r →
        SpeaksFor s.spec.compaction (fed ++ [record]) (s.accepted record started).batch r := by
  have new : record ∈ fed ++ [record] := List.mem_append_right _ (List.mem_singleton_self record)
  cases mode : s.spec.compaction with
  | none =>
    -- An archive's batch is the buffer, to which the record is added.
    have after : (s.accepted record started).batch = s.buffer ++ [record] := batch_of_append mode
    rw [after, batch_of_append mode]
    exact ⟨List.mem_append_right _ (List.mem_singleton_self record),
      fun r _ mem => List.mem_append_left _ mem⟩
  | some kind =>
    obtain ⟨key, named⟩ := keyed mode
    -- A snapshot answers for the record's key with the record, and else as it did before.
    have answers : ∀ other, lastRecord (s.accepted record started).batch other
        = if record.utf8Key = some other then record.kept else lastRecord s.batch other := by
      intro other
      cases shown : s.view with
      | none =>
        have before : s.batch = s.buffer := by rw [batch, mode, shown]
        have after : (s.accepted record started).batch = s.buffer ++ [record] := by
          simp [batch, accepted, mode, shown]
        rw [before, after, lastRecord, Keyed.held]
        split
        · rename_i here
          rw [Keyed.latest_concat_self here]
          rfl
        · rename_i elsewhere
          rw [Keyed.latest_concat_of_ne elsewhere]
          rfl
      | some view =>
        have before : s.batch = view.values := by rw [batch, mode, shown]
        have after : (s.accepted record started).batch = (applyView record view).values := by
          simp [batch, accepted, mode, shown]
        have old := filed view shown
        rw [before, after, old.lastRecord_values, (old.applyView record).lastRecord_values,
          getElem?_applyView]
        split
        · cases kept : record.kept with
          | none => rfl
          | some left =>
            obtain ⟨rfl, -⟩ := Record.of_kept kept
            exact kept
        · rfl
    refine ⟨⟨key, named, record, new, named, Nat.le_refl _, ?_⟩, ?_⟩
    · rw [answers, if_pos named]
    · rintro r atMost ⟨other, own, last, mem, lastOwn, later, left⟩
      by_cases same : record.utf8Key = some other
      · exact ⟨other, own, record, new, same, atMost, by rw [answers, if_pos same]⟩
      · refine ⟨other, own, last, List.mem_append_left _ mem, lastOwn, later, ?_⟩
        rw [answers, if_neg same, left]

section Backs

variable [EnvelopeLibraries] [BlobHistory σ]

/-- A blob destination that has, or will write with its next object, all it was handed. -/
structure Backs (fed : List Record) (s : BlobSink σ) : Prop where
  held : ∀ r ∈ fed, SpeaksFor s.spec.compaction fed s.batch r
    ∨ s.spec.Holds fed (objects s.store) r
  filed : ∀ view ∈ s.view, View.Filed view
  buffered : ∀ r ∈ s.buffer, r.sourceOffset < 2 ^ 64
  viewed : ∀ view ∈ s.view, ∀ r ∈ view.values, r.sourceOffset < 2 ^ 64

/-- Nothing but the settings, the buffer, the view and the objects matters. -/
theorem Backs.congr {s' : BlobSink σ} (backs : Backs fed s) (spec : s'.spec = s.spec)
    (buffer : s'.buffer = s.buffer) (view : s'.view = s.view)
    (kept : objects s.store <+: objects s'.store) : Backs fed s' where
  held r mem := by
    have batch : s'.batch = s.batch := by rw [BlobSink.batch, BlobSink.batch, spec, view, buffer]
    rw [spec, batch]
    exact (backs.held r mem).imp_right fun holds => holds.mono kept fun _ => id
  filed := view ▸ backs.filed
  buffered := buffer ▸ backs.buffered
  viewed := view ▸ backs.viewed

/-- What the next object is made of has 64-bit offsets. -/
theorem Backs.numbered (backs : Backs fed s) : ∀ r ∈ s.batch, r.sourceOffset < 2 ^ 64 := by
  -- The batch is the view written out, or else the buffer.
  intro r mem
  unfold batch at mem
  split at mem
  · rename_i view compacted shown
    exact backs.viewed view shown r mem
  · exact backs.buffered r mem

/-- A destination that accepts one more record backs that one as well. -/
theorem Backs.accepted {started : Nat} (backs : Backs fed s)
    (earlier : ∀ r ∈ fed, r.sourceOffset ≤ record.sourceOffset)
    (inRange : record.sourceOffset < 2 ^ 64)
    (keyed : s.spec.compaction = some .log → ∃ key, record.utf8Key = some key) :
    Backs (fed ++ [record]) (s.accepted record started) := by
  -- What spoke for an earlier record still does, and the batch speaks for the new one.
  obtain ⟨new, old⟩ := @speaksFor_accepted _ _ fed _ started backs.filed keyed
  have grown : fed ⊆ fed ++ [record] := List.subset_append_left _ _
  refine ⟨fun r mem => ?_, fun view shown => ?_, fun r mem => ?_, fun view shown r mem => ?_⟩
  · rcases List.mem_append.mp mem with before | now
    · exact (backs.held r before).imp (old r (earlier r before)) fun holds =>
        holds.mono List.prefix_rfl grown
    · rw [List.mem_singleton.mp now]
      exact .inl new
  · obtain ⟨before, here, rfl⟩ := Option.map_eq_some_iff.mp shown
    exact (backs.filed before here).applyView record
  · rcases List.mem_append.mp mem with before | now
    · exact backs.buffered r before
    · rw [List.mem_singleton.mp now]
      exact inRange
  · -- The view answers with the record or with what it answered before.
    obtain ⟨before, here, rfl⟩ := Option.map_eq_some_iff.mp shown
    obtain ⟨key, found⟩ := View.mem_values.mp mem
    rw [getElem?_applyView] at found
    split at found
    · obtain ⟨rfl, -⟩ := Record.of_kept found
      exact inRange
    · exact backs.viewed before here r (View.mem_values.mpr ⟨key, found⟩)

variable [BlobStore σ] [KeepingStore σ] [LawfulEnvelopeLibraries] {last : Record}

/--
Once a flush has put its object, the directory holds every record the destination was handed.

A flush that fails takes no object away and calls no observer.
-/
theorem flushLocked_holds (trigger : FlushTrigger) (backs : Backs fed s)
    (ends : s.buffer.getLast? = some last) (above : s.durablePosition ≤ last.sourceOffset) :
    wp (flushLocked trigger)
      (fun _ s' => ∃ store, s' = s.flushed last store ∧ objects s.store <+: objects store
        ∧ ∀ r ∈ fed, s.spec.Holds fed (objects store) r)
      (fun _ s' => objects s.store <+: objects s'.store ∧ s'.flushObserver = s.flushObserver)
      s := by
  have high := backs.buffered last (List.mem_of_getLast? ends)
  have taken : s.taken.store = s.store ∧ s.taken.flushObserver = s.flushObserver := by
    rcases s.taken_eq with same | same <;> rw [same] <;> exact ⟨rfl, rfl⟩
  refine wp_mono (flushLocked_spec trigger ends) ?_ (fun _ s' failed => ?_)
  · rintro _ _ ⟨bytes, store, encoded, put, rfl⟩
    obtain ⟨kept, there⟩ :=
      wp_of_ok (KeepingStore.putNew_kept (s.objectName last) bytes s.store) put
    refine ⟨store, rfl, kept, fun r mem => ?_⟩
    -- The new object reads back as the batch it was made of.
    rcases backs.held r mem with speaks | holds
    · refine ⟨_, there, s.batch, fun location => ?_, speaks⟩
      have reads : ∀ enc ∈ s.spec.encryption, ∃ ring,
          s.spec.encryption.map (·.keyring) = some ring
            ∧ ring.get enc.keyId = enc.keyring.get enc.keyId := by
        intro enc setting
        rw [Option.mem_def.mp setting]
        exact ⟨enc.keyring, rfl, rfl⟩
      have low : s.durablePosition < 2 ^ 64 := Nat.lt_of_le_of_lt above high
      let reader : ArchiveReader := ⟨s.spec.format, s.spec.encryption.map (·.keyring)⟩
      exact @decodeBlob_encode _ s.spec s.checked s.batch _ reader bytes _ _ rfl reads low high
        backs.numbered encoded location
    · exact holds.mono kept fun _ => id
  · cases failed with
    | encoding refused =>
      rw [taken.1, taken.2]
      exact ⟨List.prefix_rfl, rfl⟩
    | putting encoded refused =>
      have kept := wp_of_error (KeepingStore.putNew_kept (s.objectName last) _ s.store) refused
      exact ⟨kept, taken.2⟩

end Backs

end BlobSink

end MirrorV3
