import MirrorV3.Resume.Compacted

/-! A compacted directory is the fold of its log up to where it ends, and a sink opens with it. -/

namespace MirrorV3

open Effect

/-- Where the range in the name of an object ends. -/
def EndsAt (format : Format) (object : BlobObject) (hi : Nat) : Prop :=
  ∃ lo, chainEntry format object.1 = .ok ⟨lo, hi, object.1⟩

/-- What a log leaves of each key below a position: its last record, unless that is a deletion. -/
def Log.folded (log : Log) (position : Nat) : String → Option Record :=
  Keyed.folded Record.utf8Key Record.kept (log.between 0 position)

section

variable [EnvelopeLibraries]

/-- Of a directory of snapshots the newest one alone ends last, and it shows all that is below. -/
theorem Snapshots.newest {format : Format} {keyring : Option Keyring}
    {history : Nat → List Record} {objects : List BlobObject} {durable : Nat}
    (stored : Snapshots format keyring history objects durable) (some_ : objects ≠ []) :
    ∃ newest ∈ objects, ∃ hi, hi + 1 = durable ∧ EndsAt format newest hi
      ∧ (∀ object ∈ objects, object = newest ∨ ∃ lower < hi, EndsAt format object lower)
      ∧ ∃ view : View, view.Holds (history durable)
        ∧ ∀ location, decodeBlob newest.1 location newest.2 format keyring = .ok view.values := by
  cases stored with
  | empty => exact absurd rfl some_
  | extend earlier lo hi keyId bytes view follows ordered numbered named holds decodes =>
    refine ⟨_, List.mem_append_right _ List.mem_cons_self, hi, rfl, ⟨lo, ?_⟩, ?_,
      view, holds, decodes⟩
    · exact chainEntry_blobFilename format ordered (by omega) named
    · intro object mem
      rcases List.mem_append.mp mem with old | new
      · -- An object that was there before ends where the directory ended then, or below.
        obtain ⟨read, -, -, below⟩ := earlier.entries
        obtain ⟨entry, same⟩ := read object old
        have ends := (below _ (List.mem_map_of_mem old)).2
        refine .inr ⟨(entryOf format object.1).hi, by omega, (entryOf format object.1).lo, ?_⟩
        rw [entry]
        exact congrArg (fun name => Except.ok (ChainEntry.mk _ _ name)) same
      · exact .inl (List.mem_singleton.mp new)

variable {σ : Type} [BlobStore σ]

/-- A sink that was just opened has nothing to flush. -/
theorem openStore_flushed {spec : BlobSpec} {clocks : Clocks}
    {store : σ} :
    wp (BlobSink.openStore spec clocks) (fun sink _ => sink.buffer = []) (fun _ _ => True) store := by
  have built : ∀ (store : σ) (chain : Chain) (snapshot : Option Bytes) (store' : σ),
      wp (ofExcept (BlobSink.new store spec chain snapshot clocks) : Program BlobError σ _)
        (fun sink _ => sink.buffer = []) (fun _ _ => True) store' := by
    intro store chain snapshot store'
    rw [wp_ofExcept]
    split
    · rename_i sink made
      obtain ⟨checked, view, rfl⟩ := BlobSink.eq_of_new made
      rfl
    · trivial
  simp only [BlobSink.openStore, wp_bind]
  refine wp_any (fun names listed => ?_) fun _ _ => trivial
  rw [wp_ofExcept]
  split
  · rename_i chain valid
    cases chain.latest with
    | none =>
      simp only [wp_bind, wp_pure, wp_get]
      exact built _ _ _ _
    | some name =>
      simp only [wp_bind, wp_map, wp_get]
      exact wp_any (fun bytes read => built _ _ _ _) fun _ _ => trivial
  · trivial

variable {N : Type} [Notifier N] [BlobHistory σ] [LawfulBlobStore σ] [LawfulEnvelopeLibraries]
  {reader : ArchiveReader} {log : Log}

omit [LawfulEnvelopeLibraries] in
/-- A sink that opens on snapshots of a log stands where they end, with their fold for a view. -/
theorem Snapshots.opened {store store' : σ} {durable : Nat}
    (stored : Snapshots reader.format reader.keyring (log.between 0) (objects store) durable)
    {spec : BlobSpec} {clocks : Clocks} {sink : BlobSink σ} (reads : reader.ReadsSnapshots spec)
    (opened : BlobSink.openStore spec clocks store = .ok sink store') :
    sink.durablePosition = durable
      ∧ ∃ view, sink.view = some view ∧ ∀ key : String, view[key]? = log.folded durable key := by
  have flushed := wp_of_ok openStore_flushed opened
  have taken := wp_of_ok
    (BlobSink.openStore_compacting reads Window.between_self stored) opened
  have head : sink.durablePosition = durable := by
    rw [← taken.head, BlobSink.bufferedHead, flushed]
    rfl
  obtain ⟨view, current, holds⟩ := taken.view
  refine ⟨head, view, current, fun key => ?_⟩
  rw [Log.folded, Keyed.folded_eq_held]
  exact holds key

/--
A compaction-mode directory is the fold of its log up to its durable position.

However lifetimes wrote to it and stopped, its newest object alone ends last, one below the durable
position, and decodes to the fold of everything below that, in the order of its keys.
A sink that opens on the directory, empty or not, stands there with the same fold for its view.
-/
theorem compacted_is_fold {store : σ} (reached : CompactedTo N reader log store) :
    ∃ durable,
      (objects store ≠ [] → ∃ newest ∈ objects store, ∃ hi, hi + 1 = durable
        ∧ EndsAt reader.format newest hi
        ∧ (∀ object ∈ objects store,
          object = newest ∨ ∃ lower < hi, EndsAt reader.format object lower)
        ∧ ∃ entries,
          (∀ location, decodeBlob newest.1 location newest.2 reader.format reader.keyring
            = .ok entries)
          ∧ WrittenOut (log.folded durable) entries)
      ∧ ∀ spec clocks sink store', reader.ReadsSnapshots spec →
        BlobSink.openStore spec clocks store = .ok sink store' →
        sink.durablePosition = durable
          ∧ ∃ view, sink.view = some view ∧ ∀ key : String, view[key]? = log.folded durable key := by
  obtain ⟨durable, stored⟩ := snapshotted_of_compactedTo reached
  refine ⟨durable, fun some_ => ?_, fun _ _ _ _ reads opened => stored.opened reads opened⟩
  obtain ⟨newest, mem, hi, ends, last, highest, view, holds, decodes⟩ := stored.newest some_
  exact ⟨newest, mem, hi, ends, last, highest, view.values, decodes, holds.writtenOut⟩

end

namespace KeyedSample

/-- After one record of three, the directory is the fold of that record. -/
theorem compacted_is_fold_sample :
    ∃ newest ∈ objects stopped, ∃ entries,
      (∀ location, decodeBlob newest.1 location newest.2 .ndjson none = .ok entries)
        ∧ WrittenOut (deleted.folded 1) entries := by
  obtain ⟨durable, folds, opens⟩ := compacted_is_fold stopped_reached
  have some_ : objects stopped ≠ [] := by decide +kernel
  obtain ⟨newest, mem, hi, ends, -, -, entries, decodes, written⟩ := folds some_
  -- The directory ends where a sink that is opened on it stands.
  have stands : found.durablePosition = 1 := by decide +kernel
  have here := (opens _ _ _ _ ⟨rfl, rfl, fun _ setting => by cases setting⟩ found_opened).1
  rw [stands] at here
  exact ⟨newest, mem, entries, decodes, here ▸ written⟩

end KeyedSample

end MirrorV3
