import MirrorV3.Fs.Accepted
import MirrorV3.Fs.Append
import MirrorV3.Fs.Lost

/-! What holds of a blob destination after any calls, and what its drift check rests on. -/

namespace MirrorV3

open Effect Ranges

/-- A store whose partial listing names exactly what sorts after the given name. -/
class LawfulListing (σ : Type) [BlobStore σ] [BlobHistory σ] : Prop where
  listAfter_names : ∀ after (s : σ), wp (BlobStore.listAfter after : Program BlobError σ _)
    (fun names _ => ∀ name, name ∈ names
      ↔ name ∈ (objects s).map (·.1) ∧ after.all (· < name) = true) (fun _ _ => True) s

/-- A name is written for an entry: its range is the right way round and can be gone on from. -/
structure NamedFor (format : Format) (name : String) (entry : ChainEntry) : Prop where
  named : ∃ keyId, (∀ id ∈ keyId, isKeyId id = true)
    ∧ name = blobFilename entry.lo entry.hi keyId format.extension
  same : entry.name = name
  ordered : entry.lo ≤ entry.hi
  inRange : entry.hi + 1 < 2 ^ 64

/-- Names as a blob destination puts them, each range past the one before. -/
structure WrittenAs (format : Format) (names : List String) (entries : List ChainEntry) :
    Prop where
  named : List.Forall₂ (NamedFor format) names entries
  ascending : entries.Pairwise (·.hi < ·.lo)

section Listing

variable {format : Format} {name : String} {names listed : List String} {entry : ChainEntry}
  {entries : List ChainEntry} {compaction : Option CompactionMode}

/-- A name is read as the entry it was written for. -/
theorem NamedFor.readAs (named : NamedFor format name entry) : ReadAs format name entry := by
  obtain ⟨⟨keyId, keyed, rfl⟩, same, ordered, inRange⟩ := named
  exact ⟨same, ordered, keyId,
    parseBlobName_blobFilename _ (by omega) (by omega) keyed⟩

/-- Below the last range nothing is written twice, and the last one is reached. -/
theorem WrittenAs.reached_eq :
    reached 0 (entries.map (·.range)) = (entries.getLast?.map (·.hi + 1)).getD 0 := by
  rw [reached, List.getLast?_map, Option.map_map]
  rfl

/-- However its names are listed, they are read as the entries they were written for. -/
theorem WrittenAs.reads (written : WrittenAs format names entries) (shuffled : listed.Perm names) :
    ∃ read, List.Forall₂ (ReadAs format) listed read ∧ read.Perm entries :=
  List.perm_comp_forall₂ shuffled (written.named.imp fun _ _ named => named.readAs)

/-- Every entry has its range the right way round, and can be gone on from. -/
theorem WrittenAs.regular (written : WrittenAs format names entries) :
    ∀ entry ∈ entries, entry.lo ≤ entry.hi ∧ entry.hi + 1 < 2 ^ 64 := by
  intro entry mem
  obtain ⟨_, -, named⟩ := exists_after_of_forall₂ written.named.flip mem
  exact ⟨named.ordered, named.inRange⟩

/-- Names that were written can be gone on from. -/
theorem WrittenAs.endBelowMax (written : WrittenAs format names entries)
    (shuffled : listed.Perm names) : EndBelowMax format listed := by
  intro name mem blob parsed
  obtain ⟨entry, -, named⟩ := exists_after_of_forall₂ written.named (shuffled.mem_iff.mp mem)
  obtain ⟨keyId, read⟩ := named.readAs.parsed
  rw [Option.mem_def, read] at parsed
  cases parsed
  have := named.inRange
  show entry.hi < _
  omega

/-- No range ends above the last. -/
theorem WrittenAs.hi_le {last : ChainEntry} (written : WrittenAs format names entries)
    (ends : entries.getLast? = some last) : ∀ entry ∈ entries, entry.hi ≤ last.hi := by
  intro entry mem
  have ordered := (written.regular last (List.mem_of_getLast? ends)).1
  obtain ⟨front, split⟩ := List.getLast?_eq_some_iff.mp ends
  have ascending := written.ascending
  rw [split] at mem ascending
  rcases List.mem_append.mp mem with before | same
  · have := (List.pairwise_append.mp ascending).2.2 entry before last (by simp)
    omega
  · rw [List.mem_singleton.mp same]

/-- However it is listed, a directory as a destination writes it is a chain up to its last range. -/
theorem WrittenAs.validateChain_eq (written : WrittenAs format names entries)
    (shuffled : listed.Perm names)
    (chained : compaction = none → Ranges.Chained 0 (entries.map (·.range))) :
    ∃ latest, validateChain listed format compaction
      = .ok ⟨reached 0 (entries.map (·.range)), latest, tailOf entries⟩ := by
  obtain ⟨read, reads, perm⟩ := written.reads shuffled
  have tail : LastTwo entries (tailOf entries) := ⟨entries, .refl _, written.ascending, rfl⟩
  have accepts := @accepts_iff listed format compaction (written.endBelowMax shuffled)
  cases compaction with
  | none =>
    have chain : AppendChain entries ⟨reached 0 (entries.map (·.range)), none, tailOf entries⟩ :=
      ⟨(chained rfl).tiling, rfl, tail⟩
    have listed_chain : IsChain none read _ := IsChain.perm perm chain
    exact ⟨none, (accepts _).mpr ⟨read, reads, listed_chain⟩⟩
  | some mode =>
    cases mode
    have chain : LogChain entries
        ⟨reached 0 (entries.map (·.range)), entries.getLast?.map (·.name), tailOf entries⟩ := by
      refine ⟨written.ascending.imp .inl, ?_, tail⟩
      rw [WrittenAs.reached_eq]
      cases ends : entries.getLast? with
      | none => exact .inl ⟨List.getLast?_eq_none_iff.mp ends, rfl, rfl⟩
      | some last => exact .inr ⟨last, List.mem_of_getLast? ends, written.hi_le ends, rfl, rfl⟩
    have listed_chain : IsChain (some .log) read _ := IsChain.perm perm chain
    exact ⟨_, (accepts _).mpr ⟨read, reads, listed_chain⟩⟩

/-- What a listing of such a directory is read as says where it ends, and in what mode it can. -/
theorem WrittenAs.of_validateChain {chain : Chain} (written : WrittenAs format names entries)
    (shuffled : listed.Perm names) (valid : validateChain listed format compaction = .ok chain) :
    (compaction = none → Ranges.Chained 0 (entries.map (·.range)))
      ∧ chain.durable = reached 0 (entries.map (·.range)) ∧ chain.tail = tailOf entries := by
  have chained : compaction = none → Ranges.Chained 0 (entries.map (·.range)) := by
    rintro rfl
    obtain ⟨read, reads, perm⟩ := written.reads shuffled
    obtain ⟨read', reads', holds⟩ := (accepts_iff (written.endBelowMax shuffled) chain).mp valid
    obtain rfl : read = read' :=
      Except.ok.inj ((reads_iff.mpr reads).symm.trans (reads_iff.mpr reads'))
    -- Ranges that tile and go up adjoin.
    have up : (entries.map (·.range)).Pairwise (·.1 ≤ ·.1) := by
      refine List.pairwise_map.mpr (written.ascending.imp_of_mem fun {a b} memA _ below => ?_)
      have := (written.regular a memA).1
      show a.lo ≤ b.lo
      omega
    exact ((holds.tiling.perm (perm.symm.map _)).chained up).1
  obtain ⟨latest, same⟩ := written.validateChain_eq shuffled chained
  rw [same] at valid
  cases valid
  exact ⟨chained, rfl, rfl⟩

/-- The entries of names that were written carry those names. -/
theorem WrittenAs.names_eq (written : WrittenAs format names entries) :
    names = entries.map (·.name) := by
  exact eq_map_of_forall₂ (written.named.flip.imp fun _ _ named => named.same.symm)

/-- Names sort in the order they were put. -/
theorem WrittenAs.sorted (written : WrittenAs format names entries) : names.Pairwise (· < ·) := by
  rw [written.names_eq, List.pairwise_map]
  refine written.ascending.imp_of_mem fun {a b} memA memB below => ?_
  obtain ⟨_, -, one⟩ := exists_after_of_forall₂ written.named.flip memA
  obtain ⟨_, -, other⟩ := exists_after_of_forall₂ written.named.flip memB
  obtain ⟨keyId, -, named⟩ := one.named
  obtain ⟨keyId', -, named'⟩ := other.named
  have := one.ordered
  have := other.ordered
  have := other.inRange
  rw [one.same, other.same, named, named']
  exact blobFilename_lt _ (by omega) (by omega)

/-- A further object is written past the last one. -/
theorem WrittenAs.snoc {lo hi : Nat} {keyId : Option String}
    (written : WrittenAs format names entries) (above : reached 0 (entries.map (·.range)) ≤ lo)
    (ordered : lo ≤ hi) (inRange : hi + 1 < 2 ^ 64) (keyed : ∀ id ∈ keyId, isKeyId id = true) :
    WrittenAs format (names ++ [blobFilename lo hi keyId format.extension])
      (entries ++ [⟨lo, hi, blobFilename lo hi keyId format.extension⟩]) := by
  refine ⟨List.rel_append written.named (.cons ⟨⟨keyId, keyed, rfl⟩, rfl, ordered, inRange⟩ .nil),
    List.pairwise_append.mpr ⟨written.ascending, List.pairwise_singleton _ _, ?_⟩⟩
  intro entry mem other new
  rw [List.mem_singleton.mp new]
  show entry.hi < lo
  rw [WrittenAs.reached_eq] at above
  cases ends : entries.getLast? with
  | none =>
    rw [List.getLast?_eq_none_iff.mp ends] at mem
    exact absurd mem List.not_mem_nil
  | some last =>
    have := written.hi_le ends entry mem
    rw [ends] at above
    simp only [Option.map_some, Option.getD_some] at above
    omega

/-- The last two names of two entries or more. -/
theorem tailOf_two {front : List ChainEntry} {before last : ChainEntry} :
    tailOf (front ++ [before, last]) = [before.name, last.name] := by
  simp [tailOf]

/-- Of the last two names and a further one, the last two are kept. -/
theorem tailOf_concat : tailOf (entries ++ [entry])
    = (tailOf entries ++ [entry.name]).drop ((tailOf entries ++ [entry.name]).length - 2) := by
  rcases entries.eq_nil_or_concat with rfl | ⟨front, last, rfl⟩
  · rfl
  · rcases front.eq_nil_or_concat with rfl | ⟨front, before, rfl⟩
    · rfl
    · have two := @tailOf_two front before last
      have next := @tailOf_two (front ++ [before]) last entry
      simp only [List.append_assoc, List.concat_eq_append, List.cons_append, List.nil_append]
        at two next ⊢
      rw [two, next]
      rfl

/-- Where a drift check lists from, and what it then expects to find. -/
theorem WrittenAs.after_tail (written : WrittenAs format names entries) (mem : name ∈ names) :
    (if (tailOf entries).length < 2 then none else (tailOf entries).head?).all (· < name) = true
      ↔ some name = (tailOf entries).getLast? := by
  -- The names ascend, so only the last one is behind the one before the last.
  have sorted := written.sorted
  rw [written.names_eq] at mem sorted
  rcases entries.eq_nil_or_concat with rfl | ⟨front, last, rfl⟩
  · cases mem
  · rcases front.eq_nil_or_concat with rfl | ⟨front, before, rfl⟩
    · -- A single object is the only name there is.
      simpa [tailOf] using mem
    · have two := @tailOf_two front before last
      simp only [List.append_assoc, List.concat_eq_append, List.cons_append, List.nil_append]
        at two mem sorted ⊢
      rw [two]
      rw [if_neg (by simp)]
      simp only [List.head?_cons, List.getLast?_cons_cons, List.getLast?_singleton, Option.all_some,
        Option.some.injEq, decide_eq_true_eq]
      simp only [List.map_append, List.map_cons, List.map_nil] at mem sorted
      obtain ⟨-, ends, across⟩ := List.pairwise_append.mp sorted
      have ascends : before.name < last.name := (List.pairwise_cons.mp ends).1 _ (by simp)
      constructor
      · intro later
        rcases List.mem_append.mp mem with earlier | listed
        · exact absurd later (String.lt_asymm (across name earlier before.name (by simp)))
        · rcases List.mem_cons.mp listed with rfl | listed
          · exact absurd later (String.lt_irrefl _)
          · exact List.mem_singleton.mp listed
      · rintro rfl
        exact ascends

end Listing

section Sinks

variable {σ : Type} [BlobHistory σ]

/--
What holds of a blob destination after any calls.

Since the last object was put it may have been aligned to a position, which then is the durable one.
-/
structure Sound (aligned : Option Nat) (s : BlobSink σ) : Prop where
  listing : ∃ entries, WrittenAs s.spec.format ((objects s.store).map (·.1)) entries
    ∧ (s.spec.compaction = none → Ranges.Chained 0 (entries.map (·.range)) ∧ aligned = none)
    ∧ s.tail = tailOf entries
    ∧ reached 0 (entries.map (·.range)) ≤ s.durablePosition
    ∧ s.durablePosition = aligned.getD (reached 0 (entries.map (·.range)))
  ordered : s.buffer.Pairwise (·.sourceOffset < ·.sourceOffset)
  above : ∀ r ∈ s.buffer, s.durablePosition ≤ r.sourceOffset ∧ r.sourceOffset + 1 < 2 ^ 64
  bytes : s.bufferBytes = (s.buffer.map recordByteSize).sum
  started : s.bufferStarted.isSome = true ↔ s.buffer ≠ []
  limits : 1 ≤ s.spec.flush.maxOffsets ∧ 1 ≤ s.spec.flush.maxBytes

variable {aligned : Option Nat} {s s' : BlobSink σ}

/-- Neither the clocks nor the schedule matter, nor how the store will answer. -/
theorem Sound.congr (holds : Sound aligned s) (alike : BlobSink.Alike SameObjects s s') :
    Sound aligned s' where
  listing := by
    rw [alike.spec, alike.tail, alike.durable, alike.store]
    exact holds.listing
  ordered := alike.buffer ▸ holds.ordered
  above := by
    rw [alike.buffer, alike.durable]
    exact holds.above
  bytes := by
    rw [alike.bytes, alike.buffer]
    exact holds.bytes
  started := by
    rw [alike.started, alike.buffer]
    exact holds.started
  limits := alike.spec ▸ holds.limits

/-- Every buffered record is below the head, and the durable position is not above it. -/
theorem Sound.below_head (holds : Sound aligned s) :
    (∀ r ∈ s.buffer, r.sourceOffset < s.bufferedHead) ∧ s.durablePosition ≤ s.bufferedHead := by
  cases ends : s.buffer.getLast? with
  | none =>
    have empty := List.getLast?_eq_none_iff.mp ends
    constructor
    · intro r mem
      rw [empty] at mem
      exact absurd mem List.not_mem_nil
    · simp [BlobSink.bufferedHead, ends]
  | some last =>
    have listed := List.mem_of_getLast? ends
    obtain ⟨low, inRange⟩ := holds.above last listed
    have head : s.bufferedHead = last.sourceOffset + 1 := by
      simp [BlobSink.bufferedHead, ends, addOne_eq inRange]
    rw [head]
    refine ⟨fun r mem => ?_, by omega⟩
    obtain ⟨front, split⟩ := List.getLast?_eq_some_iff.mp ends
    have ordered := holds.ordered
    rw [split] at mem ordered
    rcases List.mem_append.mp mem with before | same
    · have := (List.pairwise_append.mp ordered).2.2 r before last (by simp)
      omega
    · rw [List.mem_singleton.mp same]
      omega

/-- A record at the head or above goes into the buffer behind those that are there. -/
theorem Sound.accepted {record : Record} {started : Nat} (holds : Sound aligned s)
    (head : s.bufferedHead ≤ record.sourceOffset) (inRange : record.sourceOffset + 1 < 2 ^ 64) :
    Sound aligned (s.accepted record started) where
  listing := holds.listing
  ordered := by
    refine List.pairwise_append.mpr ⟨holds.ordered, List.pairwise_singleton _ _, ?_⟩
    intro r mem other new
    rw [List.mem_singleton.mp new]
    have := holds.below_head.1 r mem
    omega
  above := by
    intro r mem
    show s.durablePosition ≤ _ ∧ _
    rcases List.mem_append.mp mem with old | new
    · exact holds.above r old
    · rw [List.mem_singleton.mp new]
      have := holds.below_head.2
      exact ⟨by omega, inRange⟩
  bytes := by
    show s.bufferBytes + recordByteSize record = ((s.buffer ++ [record]).map recordByteSize).sum
    rw [holds.bytes]
    simp
  started := by
    show (some _).isSome = true ↔ s.buffer ++ [record] ≠ []
    simp
  limits := holds.limits

/-- A flush writes the next object of the chain and leaves the buffer empty. -/
theorem Sound.flushed {last : Record} {store : σ} {bytes : Bytes} (holds : Sound aligned s)
    (ends : s.buffer.getLast? = some last)
    (put : objects store = objects s.store ++ [(s.objectName last, bytes)]) :
    Sound none (s.flushed last store) := by
  -- The new object is the next entry, from the durable position to the last buffered record.
  obtain ⟨entries, written, append, tail, reached_le, durable⟩ := holds.listing
  obtain ⟨low, inRange⟩ := holds.above last (List.mem_of_getLast? ends)
  have next : addOne last.sourceOffset = last.sourceOffset + 1 := addOne_eq inRange
  have extended := written.snoc reached_le low inRange (isKeyId_of_checked s.checked)
  refine ⟨⟨entries ++ [⟨s.durablePosition, last.sourceOffset, s.objectName last⟩], ?_, ?_, ?_, ?_,
    ?_⟩, .nil, fun r mem => absurd mem List.not_mem_nil, rfl, ?_, holds.limits⟩
  · show WrittenAs _ ((objects store).map (·.1)) _
    rw [put, List.map_append]
    exact extended
  · intro mode
    obtain ⟨chained, none_aligned⟩ := append mode
    refine ⟨?_, rfl⟩
    rw [List.map_append]
    refine chained_concat.mpr ⟨chained, ?_, low⟩
    rw [durable, none_aligned]
    rfl
  · show (s.tail ++ [s.objectName last]).drop ((s.tail ++ [s.objectName last]).length - 2) = _
    rw [tail, tailOf_concat]
  · show _ ≤ addOne last.sourceOffset
    rw [List.map_append, List.map_singleton, reached_concat, next]
    exact Nat.le_refl _
  · show addOne last.sourceOffset = _
    rw [List.map_append, List.map_singleton, reached_concat, next]
    rfl
  · simp [BlobSink.flushed]

/-- The name of the next object is not taken. -/
theorem Sound.fresh {last : Record} (holds : Sound aligned s) (ends : s.buffer.getLast? = some last) :
    s.objectName last ∉ (objects s.store).map (·.1) := by
  obtain ⟨entries, written, -, -, reached_le, -⟩ := holds.listing
  obtain ⟨low, inRange⟩ := holds.above last (List.mem_of_getLast? ends)
  have extended := written.snoc reached_le low inRange (isKeyId_of_checked s.checked)
  intro taken
  -- It would sort before itself.
  have before := (List.pairwise_append.mp extended.sorted).2.2 _ taken _ List.mem_cons_self
  exact String.lt_irrefl _ before

end Sinks

namespace BlobSink

variable [EnvelopeLibraries] {σ : Type} [BlobStore σ] [BlobHistory σ] [LawfulBlobStore σ]
  {aligned : Option Nat} {s : BlobSink σ} {base : List BlobObject}

/-- A flush that succeeds has put one object. -/
theorem flushLocked_sound (trigger : FlushTrigger) (holds : Sound aligned s)
    (pending : s.buffer ≠ []) :
    wp (flushLocked trigger)
      (fun _ s' => Sound none s' ∧ (objects s.store).length < (objects s'.store).length)
      (fun _ _ => True) s := by
  obtain ⟨last, ends⟩ : ∃ last, s.buffer.getLast? = some last :=
    Option.isSome_iff_exists.mp (by simpa using pending)
  refine wp_mono (flushLocked_spec trigger ends) ?_ (fun _ _ _ => trivial)
  rintro _ s' ⟨bytes, store, -, returned, rfl⟩
  have put := LawfulBlobStore.putNew_spec (s.objectName last) bytes s.store (holds.fresh ends)
  simp only [wp, returned] at put
  refine ⟨holds.flushed ends put, ?_⟩
  show _ < (objects store).length
  rw [put, List.length_append]
  exact Nat.lt_succ_self _

/-- Whether the sink has put an object since it held `base`, which ends what it was aligned to. -/
def SoundSince (base : List BlobObject) (aligned : Option Nat) (s : BlobSink σ) : Prop :=
  objects s.store = base ∧ Sound aligned s ∨ base.length < (objects s.store).length ∧ Sound none s

/-- Whatever takes no record keeps what holds of the sink. -/
theorem sound_upkept :
    Upkept SameObjects (SoundSince base aligned (σ := σ)) (fun _ _ => True) where
  refl _ := rfl
  congr s s' := by
    rintro (⟨same, holds⟩ | ⟨more, holds⟩) alike
    · exact .inl ⟨alike.store.trans same, holds.congr alike⟩
    · exact .inr ⟨by rw [alike.store]; exact more, holds.congr alike⟩
  leaves _ _ _ := trivial
  flush trigger s := by
    rintro (⟨same, holds⟩ | ⟨more, holds⟩) pending
    · exact wp_mono (flushLocked_sound trigger holds pending)
        (fun _ _ ⟨sound, grown⟩ => .inr ⟨same ▸ grown, sound⟩) (fun _ _ failed => failed)
    · exact wp_mono (flushLocked_sound trigger holds pending)
        (fun _ _ ⟨sound, grown⟩ => .inr ⟨Nat.lt_trans more grown, sound⟩) (fun _ _ failed => failed)

/-- A call that succeeds keeps what holds of the sink. -/
theorem call_sound {next : BlobCall} (holds : SoundSince base aligned s)
    (inRange : ∀ record, next = .write record → record.sourceOffset + 1 < 2 ^ 64) :
    wp (call next) (fun _ s' => SoundSince base aligned s') (fun _ _ => True) s := by
  cases next with
  | write record =>
    refine sound_upkept.write sound_upkept holds fun s started kept head => ?_
    have low := inRange record rfl
    rcases kept with ⟨same, sound⟩ | ⟨more, sound⟩
    · exact .inl ⟨same, sound.accepted head low⟩
    · exact .inr ⟨more, sound.accepted head low⟩
  | nextExpectedOffset =>
    simp only [call, wp_bind, wp_pure]
    exact wp_mono (sound_upkept.nextExpectedOffset listsOnly_sameObjects holds)
      (fun _ _ kept => kept.1) (fun _ _ failed => failed)
  | flush => exact sound_upkept.flushNow holds

omit [EnvelopeLibraries] [BlobStore σ] [LawfulBlobStore σ] in
/-- Aligned to a position, the sink goes on from there. -/
theorem align_sound [EnvelopeLibraries] {low : Nat} (holds : Sound aligned s) :
    wp (alignToSourceLowWatermark low) (fun _ s' => Sound (some low) s') (fun _ _ => True) s := by
  simp only [alignToSourceLowWatermark, wp_bind, wp_get, wp_ensure, wp_set]
  split
  · rename_i compacted
    split
    · rename_i quiet
      obtain ⟨entries, written, -, tail, reached_le, -⟩ := holds.listing
      refine ⟨⟨entries, written, ?_, tail, Nat.le_trans reached_le quiet.2, rfl⟩, holds.ordered, ?_,
        holds.bytes, holds.started, holds.limits⟩
      · intro append
        rw [show s.spec.compaction = none from append] at compacted
        cases compacted
      · intro r mem
        rw [show s.buffer = [] from quiet.1] at mem
        exact absurd mem List.not_mem_nil
    · trivial
  · trivial

/-- A sink that is opened on a directory as a destination writes it goes on from its chain. -/
theorem openStore_sound {spec : BlobSpec} {clocks : Clocks} {store : σ} {entries : List ChainEntry}
    (written : WrittenAs spec.format ((objects store).map (·.1)) entries)
    (limits : 1 ≤ spec.flush.maxOffsets ∧ 1 ≤ spec.flush.maxBytes) :
    wp (openStore spec clocks) (fun s _ => Sound none s) (fun _ _ => True) store := by
  simp only [openStore, wp_bind]
  refine wp_mono (LawfulBlobStore.list_spec store) ?_ (fun _ _ _ => trivial)
  rintro names store₁ ⟨listed, same⟩
  simp only [wp_ofExcept]
  cases valid : validateChain names spec.format spec.compaction with
  | error e => trivial
  | ok chain =>
    obtain ⟨chained, durable, tail⟩ := written.of_validateChain listed valid
    -- Reading the newest snapshot leaves the directory as it is.
    have built : ∀ (snapshot : Option Bytes) (store' : σ), objects store' = objects store →
        wp (do
          let store ← get
          MonadExcept.ofExcept (BlobSink.new store spec chain snapshot clocks) :
            Program BlobError σ (BlobSink σ))
          (fun s _ => Sound none s) (fun _ _ => True) store' := by
      intro snapshot store' same
      simp only [wp_bind, wp_get, wp_ofExcept]
      cases outcome : BlobSink.new store' spec chain snapshot clocks with
      | error e => trivial
      | ok s =>
        obtain ⟨checked, view, rfl⟩ := eq_of_new outcome
        refine ⟨⟨entries, ?_, ?_, tail, Nat.le_of_eq durable.symm, durable⟩, .nil, ?_, rfl, ?_, limits⟩
        · rw [same]
          exact written
        · intro append
          exact ⟨chained append, rfl⟩
        · intro r mem
          exact absurd mem List.not_mem_nil
        · simp
    dsimp only
    cases newest : chain.latest with
    | none => exact built none store₁ same
    | some name =>
      simp only [wp_bind, wp_map]
      refine wp_mono (LawfulBlobStore.get_spec name store₁) ?_ (fun _ _ _ => trivial)
      rintro bytes store₂ ⟨_, same'⟩
      exact built (some bytes) store₂ (same'.trans same)

omit [EnvelopeLibraries] [BlobStore σ] [BlobHistory σ] [LawfulBlobStore σ] in
/-- A sink that no count asks to flush is below its limits. -/
theorem below_limits {asked : Nat} (limits : 1 ≤ s.spec.flush.maxOffsets ∧ 1 ≤ s.spec.flush.maxBytes)
    (bytes : s.buffer = [] → s.bufferBytes = 0) (due : shouldFlush s asked = none) :
    s.buffer.length < s.spec.flush.maxOffsets ∧ s.bufferBytes < s.spec.flush.maxBytes := by
  by_cases empty : s.buffer = []
  · rw [bytes empty, empty, List.length_nil]
    omega
  · rw [shouldFlush, if_neg empty] at due
    by_cases full : s.spec.flush.maxOffsets ≤ s.buffer.length
    · rw [if_pos full] at due
      cases due
    · by_cases heavy : s.spec.flush.maxBytes ≤ s.bufferBytes
      · rw [if_neg full, if_pos heavy] at due
        cases due
      · omega

omit [BlobHistory σ] [LawfulBlobStore σ] in
/-- Once a record is buffered, either no count asks for a flush or the buffer is flushed. -/
theorem flushDue_limits {asked : Nat}
    (limits : 1 ≤ s.spec.flush.maxOffsets ∧ 1 ≤ s.spec.flush.maxBytes) (pending : s.buffer ≠ []) :
    wp (match shouldFlush s asked with
      | some trigger => flushLocked trigger
      | none => pure ())
      (fun _ s' => s'.buffer.length < s'.spec.flush.maxOffsets
        ∧ s'.bufferBytes < s'.spec.flush.maxBytes) (fun _ _ => True) s := by
  cases due : shouldFlush s asked with
  | none => exact below_limits limits (fun empty => absurd empty pending) due
  | some trigger =>
    obtain ⟨last, ends⟩ : ∃ last, s.buffer.getLast? = some last :=
      Option.isSome_iff_exists.mp (by simpa using pending)
    refine wp_mono (flushLocked_spec trigger ends) ?_ (fun _ _ _ => trivial)
    rintro _ _ ⟨bytes, store, -, -, rfl⟩
    exact limits

omit [BlobHistory σ] [LawfulBlobStore σ] in
/-- A write leaves the buffer below the limits that ask for a flush. -/
theorem write_limits (record : Record)
    (limits : 1 ≤ s.spec.flush.maxOffsets ∧ 1 ≤ s.spec.flush.maxBytes) :
    wp (write record)
      (fun _ s' => s'.buffer.length < s'.spec.flush.maxOffsets
        ∧ s'.bufferBytes < s'.spec.flush.maxBytes) (fun _ _ => True) s := by
  simp only [write, wp_bind, wp_get, wp_ensure]
  refine wp_mono (spec_upkept.tickDaily rfl) (fun _ s₁ same => ?_) (fun _ _ _ => trivial)
  split
  case isFalse => trivial
  case isTrue =>
    cases s₁.spec.compaction with
    | none =>
      simp only [instant, wp_bind, wp_get, wp_set, wp_modify, wp_pure]
      exact flushDue_limits (same ▸ limits) (by simp)
    | some mode =>
      simp only [wp_bind, wp_ofExcept]
      cases compactionKey record with
      | error e => trivial
      | ok key =>
        simp only [instant, wp_bind, wp_get, wp_set, wp_modify, wp_pure]
        exact flushDue_limits (same ▸ limits) (by simp)

/-- The name a drift check lists from: the second-to-last of the chain, if there is one. -/
def driftAfter (s : BlobSink σ) : Option String :=
  if s.tail.length < 2 then none else s.tail.head?

omit [EnvelopeLibraries] [BlobHistory σ] [LawfulBlobStore σ] in
/-- A drift check passes when past that name there is the last object and no other. -/
theorem checkDrift_passes {names : List String} {store : σ}
    (listed : BlobStore.listAfter s.driftAfter s.store = .ok names store)
    (present : ∀ last ∈ s.tail.getLast?, last ∈ names)
    (only : ∀ name ∈ names, some name = s.tail.getLast?) : ∃ s', checkDrift s = .ok () s' := by
  have passes : wp checkDrift (fun _ _ => True) (fun _ _ => False) s := by
    simp only [checkDrift, wp_bind, wp_get, wp_focus]
    show wp (BlobStore.listAfter s.driftAfter) _ _ s.store
    rw [wp_eq_of_ok listed]
    have there : s.tail.getLast?.filter (fun last => decide (last ∉ names)) = none := by
      rw [Option.filter_eq_none_iff]
      intro last ends
      simpa using present last ends
    have alone : names.find? (fun name => decide (some name ≠ s.tail.getLast?)) = none := by
      rw [List.find?_eq_none]
      intro name mem
      simpa using only name mem
    rw [there, alone]
    simp only [instant, wp_bind, wp_get, wp_set, wp_pure, wp_modify]
  cases outcome : checkDrift s with
  | ok _ s' => exact ⟨s', rfl⟩
  | error e s' =>
    simp only [wp, outcome] at passes

omit [EnvelopeLibraries] [BlobHistory σ] [LawfulBlobStore σ] in
/-- A drift check fails when past that name the last object is gone or another one is there. -/
theorem checkDrift_notices {names : List String} {store : σ}
    (listed : BlobStore.listAfter s.driftAfter s.store = .ok names store)
    (drifted : (∃ last ∈ s.tail.getLast?, last ∉ names)
      ∨ ∃ name ∈ names, some name ≠ s.tail.getLast?) :
    ∃ message s', checkDrift s = .error (.inconsistent message) s' := by
  -- The check passes only when the last own object is there and no other is behind it.
  have fails : wp checkDrift (fun _ _ => False) (fun e _ => ∃ message, e = .inconsistent message)
      s := by
    simp only [checkDrift, wp_bind, wp_get, wp_focus]
    show wp (BlobStore.listAfter s.driftAfter) _ _ s.store
    rw [wp_eq_of_ok listed]
    cases gone : s.tail.getLast?.filter (fun last => decide (last ∉ names)) with
    | some last => exact ⟨_, rfl⟩
    | none =>
      cases foreign : names.find? (fun name => decide (some name ≠ s.tail.getLast?)) with
      | some name => exact ⟨_, rfl⟩
      | none =>
        rw [Option.filter_eq_none_iff] at gone
        rw [List.find?_eq_none] at foreign
        rcases drifted with ⟨last, ends, absent⟩ | ⟨name, mem, other⟩
        · exact gone last ends (by simpa using absent)
        · exact foreign name mem (by simpa using other)
  cases outcome : checkDrift s with
  | ok _ s' => simp only [wp, outcome] at fails
  | error e s' =>
    simp only [wp, outcome] at fails
    obtain ⟨message, rfl⟩ := fails
    exact ⟨message, s', rfl⟩

/--
A sink after calls that all succeeded, on a directory that a destination wrote.

It may have been aligned to a position since its last object was put.
-/
inductive Ran : Option Nat → BlobSink σ → Prop where
  | opened {spec : BlobSpec} {clocks : Clocks} {store store' : σ} {entries : List ChainEntry}
      {s : BlobSink σ} (written : WrittenAs spec.format ((objects store).map (·.1)) entries)
      (limits : 1 ≤ spec.flush.maxOffsets ∧ 1 ≤ spec.flush.maxBytes)
      (returned : openStore spec clocks store = .ok s store') : Ran none s
  | called {aligned : Option Nat} {next : BlobCall} {s s' : BlobSink σ} (earlier : Ran aligned s)
      (inRange : ∀ record, next = .write record → record.sourceOffset + 1 < 2 ^ 64)
      (returned : call next s = .ok () s') :
      Ran (if (objects s'.store).length = (objects s.store).length then aligned else none) s'
  | aligned {aligned : Option Nat} {low : Nat} {s s' : BlobSink σ} (earlier : Ran aligned s)
      (returned : alignToSourceLowWatermark low s = .ok () s') : Ran (some low) s'

/-- The fields of a sink say what they are for. -/
structure Faithful (aligned : Option Nat) (s : BlobSink σ) : Prop where
  ordered : s.buffer.Pairwise (·.sourceOffset < ·.sourceOffset)
  above : ∀ r ∈ s.buffer, s.durablePosition ≤ r.sourceOffset
  bytes : s.bufferBytes = (s.buffer.map recordByteSize).sum
  started : s.bufferStarted.isSome = true ↔ s.buffer ≠ []
  listed : ∀ names : List String, names.Perm ((objects s.store).map (·.1)) →
    ∃ chain, validateChain names s.spec.format s.spec.compaction = .ok chain
      ∧ s.tail = chain.tail ∧ s.durablePosition = aligned.getD chain.durable

/-- A drift check that is answered passes, and fails if the directory has changed where it looks. -/
structure NoticesDrift (s : BlobSink σ) : Prop where
  unchanged : ∀ names store, BlobStore.listAfter s.driftAfter s.store = .ok names store →
    ∃ s', checkDrift s = .ok () s'
  gone : ∀ last ∈ s.tail.getLast?, ∀ store : σ, last ∉ (objects store).map (·.1) →
    ∀ names store', BlobStore.listAfter s.driftAfter store = .ok names store' →
      ∃ message s', checkDrift { s with store } = .error (.inconsistent message) s'
  foreign : ∀ store : σ, ∀ name ∈ (objects store).map (·.1), name ∉ (objects s.store).map (·.1) →
    (∀ before last, s.tail = [before, last] → before < name) →
    ∀ names store', BlobStore.listAfter s.driftAfter store = .ok names store' →
      ∃ message s', checkDrift { s with store } = .error (.inconsistent message) s'

/-- What holds of a sink holds after every call that succeeds. -/
theorem Ran.sound (ran : Ran aligned s) : Sound aligned s := by
  induction ran with
  | opened written limits returned =>
    rename_i spec clocks store store' entries s
    have opens : wp (openStore spec clocks) _ _ store := openStore_sound written limits
    simpa only [wp, returned] using opens
  | called earlier inRange returned ih =>
    rename_i aligned next s s'
    have called := call_sound (.inl ⟨rfl, ih⟩ : SoundSince (objects s.store) aligned s) inRange
    simp only [wp, returned] at called
    rcases called with ⟨same, holds⟩ | ⟨more, holds⟩
    · rw [if_pos (by rw [same])]
      exact holds
    · rw [if_neg (by omega)]
      exact holds
  | aligned earlier returned ih =>
    rename_i aligned low s s'
    have moved : wp (alignToSourceLowWatermark low) _ _ s := align_sound ih
    simpa only [wp, returned] using moved

omit [BlobStore σ] [LawfulBlobStore σ] [EnvelopeLibraries] in
/-- A sound sink's fields say what they are for. -/
theorem faithful_of_sound (holds : Sound aligned s) : Faithful aligned s := by
  obtain ⟨entries, written, append, tail, -, durable⟩ := holds.listing
  refine ⟨holds.ordered, fun r mem => (holds.above r mem).1, holds.bytes, holds.started, ?_⟩
  intro names listed
  obtain ⟨latest, valid⟩ := written.validateChain_eq listed fun mode => (append mode).1
  exact ⟨_, valid, tail, durable⟩

omit [EnvelopeLibraries] [LawfulBlobStore σ] in
/-- A sound sink's drift check passes, and notices what has changed where it looks. -/
theorem noticesDrift_of_sound [LawfulListing σ] (holds : Sound aligned s) : NoticesDrift s := by
  obtain ⟨entries, written, -, tail, -⟩ := holds.listing
  -- Of this sink's own objects only the last one sorts where it looks.
  have after : ∀ name ∈ (objects s.store).map (·.1),
      s.driftAfter.all (· < name) = true ↔ some name = s.tail.getLast? := by
    intro name mem
    rw [driftAfter, tail]
    exact written.after_tail mem
  have own : ∀ last ∈ s.tail.getLast?, last ∈ (objects s.store).map (·.1) := by
    intro last ends
    rw [tail] at ends
    obtain ⟨entry, mem, named⟩ := List.mem_map.mp (List.mem_of_getLast? ends)
    rw [written.names_eq, ← named]
    exact List.mem_map_of_mem (List.mem_of_mem_drop mem)
  have listed : ∀ {store store' : σ} {names : List String},
      BlobStore.listAfter s.driftAfter store = .ok names store' → ∀ name, name ∈ names
        ↔ name ∈ (objects store).map (·.1) ∧ s.driftAfter.all (· < name) = true := by
    intro store store' names returned
    have named := LawfulListing.listAfter_names s.driftAfter store
    simpa only [wp, returned] using named
  constructor
  · intro names store returned
    apply checkDrift_passes returned
    · intro last ends
      exact (listed returned last).mpr ⟨own last ends, (after last (own last ends)).mpr ends.symm⟩
    · intro name mem
      obtain ⟨there, later⟩ := (listed returned name).mp mem
      exact (after name there).mp later
  · intro last ends store absent names store' returned
    apply checkDrift_notices (s := { s with store }) returned
    refine .inl ⟨last, ends, fun mem => absent ((listed returned last).mp mem).1⟩
  · intro store name mem other beyond names store' returned
    apply checkDrift_notices (s := { s with store }) returned
    refine .inr ⟨name, (listed returned name).mpr ⟨mem, ?_⟩, fun same => other (own name same.symm)⟩
    have short : s.tail.length ≤ 2 := by
      rw [tail, tailOf, List.length_map, List.length_drop]
      omega
    rw [driftAfter]
    rcases two : s.tail with _ | ⟨before, _ | ⟨last, _ | ⟨further, more⟩⟩⟩
    · rfl
    · rfl
    · simpa using beyond before last two
    · simp [two] at short

/--
What a destination keeps in memory is what it holds and what it wrote, after any calls.

Its drift check passes on the directory as it left it, and notices when the last object is gone or
when a name it did not write sorts past the second-to-last one.
-/
theorem sink_invariant [LawfulListing σ] (ran : Ran aligned s) :
    Faithful aligned s ∧ NoticesDrift s
      ∧ ∀ record s', write record s = .ok () s' →
        s'.buffer.length < s'.spec.flush.maxOffsets
          ∧ s'.bufferBytes < s'.spec.flush.maxBytes := by
  have holds := ran.sound
  refine ⟨faithful_of_sound holds, noticesDrift_of_sound holds, fun record s' returned => ?_⟩
  have written := write_limits record holds.limits
  simpa only [wp, returned] using written

end BlobSink

instance : LawfulListing ObjectStore where
  listAfter_names after s := by
    show wp (ObjectStore.request >>= _) _ _ s
    simp only [wp_bind, wp_get, wp_pure]
    refine wp_mono (ObjectStore.request_spec s) (fun _ s' same name => ?_) (fun _ _ _ => trivial)
    rw [same, List.mem_filter]
    rfl

namespace Sample

open BlobSink

/-- A setting under which two records are written at once. -/
def inPairs : BlobSpec := { (blobAt none 0).spec with flush := ⟨1000, 1000, 2, none⟩ }

/-- Opening a destination with that setting on an empty directory. -/
def opening : Program BlobError ObjectStore (BlobSink ObjectStore) :=
  openStore inPairs ⟨fun _ => 0, fun _ => 0⟩

/-- An empty directory can be opened. -/
theorem opening_isSome : (value? (opening ⟨[], fun _ => ⟨none, false⟩⟩)).isSome = true := by
  decide +kernel

/-- The destination that is opened on an empty directory. -/
def opened : BlobSink ObjectStore := (value? (opening ⟨[], fun _ => ⟨none, false⟩⟩)).get opening_isSome

/-- That destination once it was given a record. -/
def fed : BlobSink ObjectStore := after (write (record 0)) opened

/-- With a record buffered and nothing written, the sink knows what it holds. -/
theorem sink_invariant_fed : Faithful none fed ∧ NoticesDrift fed
    ∧ ∀ record s', write record fed = .ok () s' →
      s'.buffer.length < s'.spec.flush.maxOffsets
        ∧ s'.bufferBytes < s'.spec.flush.maxBytes := by
  have returned := eq_ok_of_value? (Option.some_get opening_isSome).symm
  have start : Ran none opened := .opened ⟨.nil, .nil⟩ (by decide) returned
  have accepted : value? (write (record 0) opened) = some () := by decide +kernel
  have ran : Ran none fed := by
    have returned : call (.write (record 0)) opened = .ok () fed := eq_ok_of_value? accepted
    have called := Ran.called start (fun _ same => by cases same; decide) returned
    rwa [ite_self] at called
  exact sink_invariant ran

end Sample

end MirrorV3
