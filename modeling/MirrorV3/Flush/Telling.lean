import MirrorV3.Flush.Holding
import MirrorV3.Fs.Compacting
import MirrorV3.Fs.Position
import MirrorV3.Kafka.Position
import MirrorV3.Lib.Interleave

/-! What a destination tells its observer: ranges that adjoin, each of what is stored by then. -/

namespace MirrorV3

open Effect

/-- A destination that may make a record durable in the very write that hands it over. -/
class TriggeredSink (K : Type) where
  /-- Whether writing the record next also flushes it, going by what is buffered and the clocks. -/
  flushesWith : Record → K → Bool := fun _ _ => false

/-- What an operation adds to the calls of a destination's observer, and what is stored by each. -/
structure Told {K : Type} [FlushingSink K] [HoldingSink K] (durable : K → Nat) (bound : Nat)
    (fed : List Record) (s s' : K) (added : List NotedCall) : Prop where
  supports : FlushingSink.supportsFlushObserver s' = FlushingSink.supportsFlushObserver s
  calls : HoldingSink.calls s' = HoldingSink.calls s ++ added
  chained : Ranges.Chained (durable s) (added.map (·.range))
  below : ∀ call ∈ added, call.range.2 < bound
  /-- At each call the store holds what the destination was handed, up to the end of the range. -/
  held : ∀ call ∈ added, ∀ r ∈ fed, r.sourceOffset ≤ call.range.2 →
    HoldingSink.Holds s call.found fed r
  /-- From each of these moments to the next the store keeps what it has. -/
  grown : (HoldingSink.found s :: added.map (·.found) ++ [HoldingSink.found s']).Pairwise
    Content.Within

/-- How a destination goes on once an operation has returned. -/
structure GoesOn {K : Type} [HoldingSink K] (durable : K → Nat) (watched : K → Prop)
    (backs : List Record → K → Prop) (fed : List Record) (s s' : K) (added : List NotedCall) :
    Prop where
  watched : watched s'
  durable : durable s' = Ranges.reached (durable s) (added.map (·.range))
  backs : backs fed s'
  rules : (HoldingSink.Holds s' : Content → List Record → Record → Prop) = HoldingSink.Holds s

/-- A destination that tells its observer of everything it makes durable, once it is stored. -/
class LawfulFlushing (K : Type) [Sink K] [LawfulSink K] [FlushingSink K] [HoldingSink K]
    [TriggeredSink K] where
  /-- One past the last record made durable. -/
  durable : K → Nat
  /-- Just opened, with everything it has durable. -/
  fresh : K → Prop
  /-- An observer is there if the destination ever calls one. -/
  watched : K → Prop
  /-- It has these records stored, or has what it takes to store them next. -/
  backs : List Record → K → Prop
  holds_mono : ∀ (s : K) {content content' : Content} {fed fed' : List Record} {r : Record},
    HoldingSink.Holds s content fed r → content.Within content' → fed ⊆ fed' →
      HoldingSink.Holds s content' fed' r
  silent : ∀ s : K, FlushingSink.supportsFlushObserver s = false → HoldingSink.calls s = []
  durable_le : ∀ s, watched s → FlushingSink.supportsFlushObserver s = true →
    durable s ≤ LawfulSink.position s
  backs_holds : ∀ fed s, backs fed s → FlushingSink.supportsFlushObserver s = false →
    ∀ r ∈ fed, HoldingSink.Holds s (HoldingSink.found s) fed r
  install_spec : ∀ s : K, LawfulSink.owned s → fresh s →
    let s' := if FlushingSink.supportsFlushObserver s then FlushingSink.setFlushObserver s else s
    LawfulSink.owned s' ∧ watched s' ∧ LawfulSink.position s' = LawfulSink.position s
      ∧ HoldingSink.calls s' = [] ∧ backs [] s'
      ∧ (HoldingSink.Holds s' : Content → List Record → Record → Prop) = HoldingSink.Holds s
      ∧ FlushingSink.supportsFlushObserver s' = FlushingSink.supportsFlushObserver s
      ∧ (FlushingSink.supportsFlushObserver s = true → durable s' = LawfulSink.position s)
  fresh_spec : ∀ s, fresh s → wp (Sink.nextExpectedOffset : Program SinkError K _)
    (fun _ s' => fresh s') (fun _ _ => True) s
  nextExpectedOffset_told : ∀ fed s, LawfulSink.owned s → watched s → backs fed s →
    wp (Sink.nextExpectedOffset : Program SinkError K _)
      (fun _ s' => ∃ added, Told durable (LawfulSink.position s) fed s s' added
        ∧ GoesOn durable watched backs fed s s' added)
      (fun _ s' => ∃ added, Told durable (LawfulSink.position s) fed s s' added) s
  furthestNextOffset_told : ∀ fed s, LawfulSink.owned s → watched s → backs fed s →
    wp (Sink.furthestNextOffset : Program SinkError K _)
      (fun _ s' => ∃ added, Told durable (LawfulSink.position s) fed s s' added
        ∧ GoesOn durable watched backs fed s s' added)
      (fun _ s' => ∃ added, Told durable (LawfulSink.position s) fed s s' added) s
  write_told : ∀ fed record s, LawfulSink.owned s → watched s → backs fed s →
    LawfulSink.position s ≤ record.sourceOffset → record.sourceOffset < 2 ^ 64 →
    let bound :=
      if TriggeredSink.flushesWith record s then record.sourceOffset + 1 else record.sourceOffset
    wp (Sink.write record : Program SinkError K _)
      (fun _ s' => ∃ added, Told durable bound (fed ++ [record]) s s' added
        ∧ (record.sourceOffset + 1 < 2 ^ 64 →
          GoesOn durable watched backs (fed ++ [record]) s s' added))
      (fun _ s' => ∃ added, Told durable bound (fed ++ [record]) s s' added) s
  flush_told : ∀ fed s, LawfulSink.owned s → watched s → backs fed s →
    wp (Sink.flush : Program SinkError K _)
      (fun _ s' => LawfulSink.owned s' ∧ LawfulSink.position s' = LawfulSink.position s
        ∧ ∃ added, Told durable (LawfulSink.position s) fed s s' added
          ∧ GoesOn durable watched backs fed s s' added)
      (fun _ s' => ∃ added, Told durable (LawfulSink.position s) fed s s' added) s
  align_told : ∀ fed lowWatermark s, LawfulSink.owned s → watched s → backs fed s →
    Sink.allowsCompactedSource s = true →
    wp (Sink.alignToSourceLowWatermark lowWatermark : Program SinkError K _)
      (fun _ s' => Told durable 0 fed s s' [] ∧ watched s' ∧ backs fed s'
        ∧ (HoldingSink.Holds s' : Content → List Record → Record → Prop) = HoldingSink.Holds s
        ∧ (FlushingSink.supportsFlushObserver s = true → durable s' = lowWatermark))
      (fun _ s' => Told durable 0 fed s s' []) s

namespace BlobSink

variable {σ : Type}

/-- The state a daily tick that is due leaves: nothing is buffered any more. -/
def ticked (s : BlobSink σ) : BlobSink σ :=
  match s.nextDailyUnix with
  | none => s
  | some next =>
    if s.clocks.clock.head < next ∨ s.buffer = [] then s
    else { s with buffer := [], bufferBytes := 0, bufferStarted := none }

/-- Whether the record, once buffered, trips a trigger at the moment the sink looks. -/
def flushesWith (record : Record) (s : BlobSink σ) : Bool :=
  let before := s.ticked
  let started := s.clocks.instants.head
  let asked := s.clocks.instants.tail.head
  (shouldFlush { before with
    bufferBytes := before.bufferBytes + recordByteSize record
    buffer := before.buffer ++ [record]
    bufferStarted := some (before.bufferStarted.getD started) } asked).isSome

instance : TriggeredSink (BlobSink σ) where
  flushesWith := flushesWith

/-- Once the record is buffered, the trigger that may be due is the one that was foreseen. -/
theorem shouldFlush_foreseen {s s' : BlobSink σ} {record : Record} (spec : s'.spec = s.spec)
    (buffer : s'.buffer = s.ticked.buffer ++ [record])
    (bytes : s'.bufferBytes = s.ticked.bufferBytes + recordByteSize record)
    (started : s'.bufferStarted = some (s.ticked.bufferStarted.getD s.clocks.instants.head)) :
    (shouldFlush s' s.clocks.instants.tail.head).isSome = flushesWith record s := by
  have sameSpec : s.ticked.spec = s.spec := by
    unfold ticked
    split
    · rfl
    · split <;> rfl
  simp [flushesWith, shouldFlush, spec, buffer, bytes, started, sameSpec]

/-- A blob destination with an observer, whose last buffered record is above what is durable. -/
def Watched (s : BlobSink σ) : Prop :=
  s.flushObserver.isSome ∧ ∀ last, s.buffer.getLast? = some last →
    s.durablePosition ≤ last.sourceOffset ∧ last.sourceOffset + 1 < 2 ^ 64

/-- A key that a compacted destination files a record under is the record's key. -/
theorem utf8Key_of_compactionKey {record : Record} {key : String}
    (keyed : compactionKey record = .ok key) : record.utf8Key = some key := by
  unfold compactionKey at keyed
  unfold Record.utf8Key
  cases bytes : record.key with
  | none => simp [bytes] at keyed
  | some bytes' =>
    rw [bytes] at keyed
    cases decoded : decodeUtf8 bytes' with
    | none => simp [decoded] at keyed
    | some text =>
      simp only [decoded] at keyed
      cases keyed
      exact decoded

section Calls

variable [EnvelopeLibraries] [BlobHistory σ]

/-- A store that has what another state of it had, and perhaps more. -/
def Grows (store store' : σ) : Prop := objects store <+: objects store'

/-- The calls of an observer since a blob destination was in a state before. -/
structure ToldSince (s₀ : BlobSink σ) (fed : List Record) (bound : Nat)
    (calls : List (FlushCall σ)) (s : BlobSink σ) : Prop where
  told : s.flushObserver = some (s₀.flushObserver.getD [] ++ calls)
  chained : Ranges.Chained s₀.durablePosition (calls.map (·.range))
  below : ∀ call ∈ calls, call.range.2 < bound
  held : ∀ call ∈ calls, ∀ r ∈ fed, r.sourceOffset ≤ call.range.2 →
    s₀.spec.Holds fed (objects call.store) r
  grown : (s₀.store :: calls.map (·.store) ++ [s.store]).Pairwise Grows

/-- A blob destination that goes on from there, and what the range of its next object will be. -/
structure Telling (s₀ : BlobSink σ) (fed : List Record) (bound : Nat)
    (calls : List (FlushCall σ)) (s : BlobSink σ) : Prop extends ToldSince s₀ fed bound calls s where
  settings : s.spec = s₀.spec
  durable : s.durablePosition = Ranges.reached s₀.durablePosition (calls.map (·.range))
  pending : ∀ last, s.buffer.getLast? = some last → s.durablePosition ≤ last.sourceOffset
    ∧ last.sourceOffset < bound ∧ last.sourceOffset + 1 < 2 ^ 64
  backs : Backs fed s

variable {s₀ s s' : BlobSink σ} {fed : List Record} {bound : Nat} {calls : List (FlushCall σ)}

omit [EnvelopeLibraries] in
/-- A store that kept what it had at some moments keeps it in all that come. -/
theorem pairwise_grows {stores more : List σ} {store : σ}
    (grown : (stores ++ [store]).Pairwise Grows) (on : (store :: more).Pairwise Grows) :
    (stores ++ more).Pairwise Grows :=
  Interleave.pairwise_through (fun _ _ _ => List.IsPrefix.trans) grown on

/-- The store may be asked, or fail, and nothing more is told. -/
theorem ToldSince.after (since : ToldSince s₀ fed bound calls s)
    (observer : s'.flushObserver = s.flushObserver) (kept : Grows s.store s'.store) :
    ToldSince s₀ fed bound calls s' :=
  ⟨observer.trans since.told, since.chained, since.below, since.held,
    pairwise_grows since.grown (List.pairwise_pair.mpr kept)⟩

/-- A call made once everything handed over is stored is one more of them. -/
theorem ToldSince.flushed {last : Record} {store : σ} (since : ToldSince s₀ fed bound calls s)
    (settings : s.spec = s₀.spec)
    (durable : s.durablePosition = Ranges.reached s₀.durablePosition (calls.map (·.range)))
    (above : s.durablePosition ≤ last.sourceOffset) (below : last.sourceOffset < bound)
    (kept : Grows s.store store) (holds : ∀ r ∈ fed, s.spec.Holds fed (objects store) r) :
    ToldSince s₀ fed bound (calls ++ [⟨(s.durablePosition, last.sourceOffset), store⟩])
      (s.flushed last store) where
  told := by
    show s.flushObserver.map _ = _
    rw [since.told, Option.map_some, List.append_assoc]
  chained := by
    rw [List.map_append]
    exact Ranges.chained_concat.mpr ⟨since.chained, durable, above⟩
  below call mem := by
    rcases List.mem_append.mp mem with earlier | new
    · exact since.below call earlier
    · rw [List.mem_singleton.mp new]
      exact below
  held call mem r given upTo := by
    rcases List.mem_append.mp mem with earlier | new
    · exact since.held call earlier r given upTo
    · rw [List.mem_singleton.mp new, ← settings]
      exact holds r given
  grown := by
    -- The call sees the store that its put left, and so does whoever looks next.
    rw [List.map_append, ← List.cons_append, List.append_assoc]
    refine pairwise_grows since.grown (List.pairwise_cons.mpr ⟨?_, ?_⟩)
    · show ∀ later ∈ [store, store], Grows s.store later
      simpa using kept
    · exact List.pairwise_pair.mpr List.prefix_rfl

/-- What was told of before a record came says nothing of the record. -/
theorem ToldSince.more {record : Record} (since : ToldSince s₀ fed record.sourceOffset calls s)
    (atMost : record.sourceOffset ≤ bound) : ToldSince s₀ (fed ++ [record]) bound calls s where
  told := since.told
  chained := since.chained
  below call mem := Nat.lt_of_lt_of_le (since.below call mem) atMost
  held call mem r given upTo := by
    rcases List.mem_append.mp given with earlier | now
    · exact (since.held call mem r earlier upTo).mono List.prefix_rfl (List.subset_append_left _ _)
    · have below := since.below call mem
      rw [List.mem_singleton.mp now] at upTo
      omega
  grown := since.grown

/-- What was told since is what the operation in between added. -/
theorem ToldSince.noted (since : ToldSince s₀ fed bound calls s) :
    ∃ added, Told durablePosition bound fed s₀ s added
      ∧ added.map (·.range) = calls.map (·.range) := by
  -- Each call is noted with the objects of the store it was made over.
  have ranges : ((calls.map fun call => NotedCall.mk call.range (.objects (objects call.store))).map
      (·.range)) = calls.map (·.range) := by
    rw [List.map_map]
    rfl
  refine ⟨calls.map fun call => ⟨call.range, .objects (objects call.store)⟩, ⟨rfl, ?_, ?_, ?_, ?_, ?_⟩,
    ranges⟩
  · show (s.flushObserver.getD []).map _ = (s₀.flushObserver.getD []).map _ ++ _
    rw [since.told, Option.getD_some, List.map_append]
  · rw [ranges]
    exact since.chained
  · intro call mem
    obtain ⟨own, listed, rfl⟩ := List.mem_map.mp mem
    exact since.below own listed
  · intro call mem r given upTo
    obtain ⟨own, listed, rfl⟩ := List.mem_map.mp mem
    exact since.held own listed r given upTo
  · -- The contents at these moments are the objects of the stores.
    have contents : ((s₀.store :: calls.map (·.store) ++ [s.store]).map
        fun store => Content.objects (objects store)).Pairwise Content.Within :=
      List.pairwise_map.mpr since.grown
    show (Content.objects (objects s₀.store) :: _ ++ [Content.objects (objects s.store)]).Pairwise _
    simp only [List.map_append, List.map_cons, List.map_map, List.map_nil] at contents ⊢
    exact contents

/-- An observed destination has told of nothing more than it had. -/
theorem Watched.telling (watched : Watched s) (backs : Backs fed s) :
    Telling s fed s.bufferedHead [] s := by
  obtain ⟨observer, installed⟩ := Option.isSome_iff_exists.mp watched.1
  refine ⟨⟨?_, trivial, by simp, by simp, ?_⟩, rfl, rfl, fun last ends => ?_, backs⟩
  · simp [installed]
  · simp [Grows]
  · obtain ⟨above, inRange⟩ := watched.2 last ends
    have head : s.bufferedHead = last.sourceOffset + 1 := by
      simp [bufferedHead, ends, addOne_eq inRange]
    exact ⟨above, by omega, inRange⟩

omit [EnvelopeLibraries] [BlobHistory σ] in
/-- Nothing below what is durable is waiting in the buffer. -/
theorem durable_le_bufferedHead (pending : ∀ last, s.buffer.getLast? = some last →
    s.durablePosition ≤ last.sourceOffset ∧ last.sourceOffset + 1 < 2 ^ 64) :
    s.durablePosition ≤ s.bufferedHead := by
  -- The destination stands one past its last buffered record, or where it is durable.
  cases ends : s.buffer.getLast? with
  | none => simp [bufferedHead, ends]
  | some last =>
    obtain ⟨above, inRange⟩ := pending last ends
    simp only [bufferedHead, ends, Option.map_some, Option.getD_some, addOne_eq inRange]
    omega

/-- The records a blob destination was handed are below where it stands. -/
def Backing (fed : List Record) (s : BlobSink σ) : Prop :=
  Backs fed s ∧ ∀ r ∈ fed, r.sourceOffset < s.bufferedHead

omit [BlobHistory σ] in
/-- What is read back is read under the settings, which an operation leaves what they are. -/
theorem rules_of_spec [BlobHistory σ] (settings : s'.spec = s.spec) :
    (HoldingSink.Holds s' : Content → List Record → Record → Prop) = HoldingSink.Holds s := by
  -- Only the settings of a destination enter into it.
  funext content delivered record
  cases content with
  | objects objects => exact congrArg (BlobSpec.Holds · delivered objects record) settings
  | messages messages => rfl

/-- A destination that tells on is observed, and durable where its ranges end. -/
theorem Telling.kept (telling : Telling s₀ fed bound calls s)
    (passed : ∀ r ∈ fed, r.sourceOffset < s.bufferedHead) :
    ∃ added, Told durablePosition bound fed s₀ s added
      ∧ GoesOn durablePosition Watched Backing fed s₀ s added := by
  obtain ⟨added, told, ranges⟩ := telling.toToldSince.noted
  refine ⟨added, told, ⟨?_, fun last ends => ?_⟩, ?_, ⟨telling.backs, passed⟩,
    rules_of_spec telling.settings⟩
  · simp [telling.told]
  · exact ⟨(telling.pending last ends).1, (telling.pending last ends).2.2⟩
  · rw [ranges]
    exact telling.durable

end Calls

variable [EnvelopeLibraries] [BlobHistory σ] [BlobStore σ] [KeepingStore σ]
  [LawfulEnvelopeLibraries] {s₀ s s' : BlobSink σ} {fed : List Record} {bound : Nat}
  {calls : List (FlushCall σ)} {record : Record}

/-- A flush tells of the range up to the last buffered record, and one that fails of nothing. -/
theorem flushLocked_told (trigger : FlushTrigger) {last : Record}
    (since : ToldSince s₀ fed bound calls s) (settings : s.spec = s₀.spec)
    (durable : s.durablePosition = Ranges.reached s₀.durablePosition (calls.map (·.range)))
    (backs : Backs fed s) (ends : s.buffer.getLast? = some last)
    (above : s.durablePosition ≤ last.sourceOffset) (below : last.sourceOffset < bound) :
    wp (flushLocked trigger)
      (fun _ s' => ∃ store, s' = s.flushed last store ∧ Backs fed s'
        ∧ ToldSince s₀ fed bound (calls ++ [⟨(s.durablePosition, last.sourceOffset), store⟩]) s')
      (fun _ s' => ToldSince s₀ fed bound calls s') s := by
  refine wp_mono (flushLocked_holds trigger backs ends above) ?_
    (fun _ s' ⟨kept, same⟩ => since.after same kept)
  rintro _ _ ⟨store, rfl, kept, holds⟩
  refine ⟨store, rfl, ⟨fun r mem => .inr (holds r mem), backs.filed, by simp [flushed],
    backs.viewed⟩, ?_⟩
  exact since.flushed settings durable above below kept holds

/-- What an observer is told is kept by whatever takes no record. -/
theorem telling_upkept :
    Upkept Grows (fun s : BlobSink σ => ∃ calls, Telling s₀ fed bound calls s)
      (fun _ s' => ∃ calls, ToldSince s₀ fed bound calls s') where
  refl _ := List.prefix_rfl
  congr s s' := by
    rintro ⟨calls, telling⟩ alike
    refine ⟨calls, telling.toToldSince.after alike.observer alike.store,
      alike.spec.trans telling.settings, alike.durable.trans telling.durable, fun last ends => ?_,
      telling.backs.congr alike.spec alike.buffer alike.view alike.store⟩
    rw [alike.durable]
    exact telling.pending last (alike.buffer ▸ ends)
  leaves _ _ := fun ⟨calls, telling⟩ => ⟨calls, telling.toToldSince⟩
  flush trigger s := by
    rintro ⟨calls, telling⟩ pending
    obtain ⟨last, ends⟩ : ∃ last, s.buffer.getLast? = some last :=
      Option.isSome_iff_exists.mp (by simpa using pending)
    -- The flush tells of the range up to the last buffered record.
    obtain ⟨above, below, inRange⟩ := telling.pending last ends
    refine wp_mono (flushLocked_told trigger telling.toToldSince telling.settings telling.durable
      telling.backs ends above below) ?_ (fun _ s' since => ⟨calls, since⟩)
    rintro _ _ ⟨store, rfl, backs, since⟩
    refine ⟨_, since, telling.settings, ?_, fun other none => ?_, backs⟩
    · rw [List.map_append, List.map_singleton, Ranges.reached_concat]
      exact addOne_eq inRange
    · have empty : ([] : List Record).getLast? = some other := none
      cases empty

omit [EnvelopeLibraries] [LawfulEnvelopeLibraries] in
/-- A store that keeps what it has grows while it is listed. -/
theorem listsOnly_grows [EnvelopeLibraries] : ListsOnly (Grows (σ := σ)) :=
  KeepingStore.listAfter_kept

omit [BlobHistory σ] [KeepingStore σ] [LawfulEnvelopeLibraries] in
/-- A flush that succeeds clears the buffer and reads no clock. -/
theorem flushLocked_cleared (trigger : FlushTrigger) :
    wp (flushLocked trigger)
      (fun _ s' => s'.buffer = [] ∧ s'.bufferBytes = 0 ∧ s'.bufferStarted = none
        ∧ s'.spec = s.spec ∧ s'.clocks = s.clocks) (fun _ _ => True) s := by
  simp only [flushLocked, putObject, wp_bind, wp_get, wp_ofExcept, wp_focus, wp_modify]
  have taken : wp takeBatch (fun _ s' => s'.spec = s.spec ∧ s'.clocks = s.clocks)
      (fun _ _ => True) s := by
    simp only [takeBatch, wp_bind, wp_get]
    split <;> exact ⟨rfl, rfl⟩
  refine wp_mono taken (fun batch s₁ same => ?_) (fun _ _ _ => trivial)
  cases s.spec.encode s.checked batch with
  | error e => trivial
  | ok bytes => exact wp_any (fun _ _ => ⟨trivial, trivial, trivial, same⟩) (fun _ _ => trivial)

omit [BlobHistory σ] [KeepingStore σ] [LawfulEnvelopeLibraries] in
/-- The daily tick leaves in the buffer what is said to be left, and reads no instant. -/
theorem tickDaily_ticked :
    wp tickDaily
      (fun _ s' => s'.buffer = s.ticked.buffer ∧ s'.bufferBytes = s.ticked.bufferBytes
        ∧ s'.bufferStarted = s.ticked.bufferStarted ∧ s'.spec = s.spec
        ∧ s'.clocks.instants = s.clocks.instants)
      (fun _ _ => True) s := by
  simp only [tickDaily, ticked, wp_bind, wp_get]
  cases s.nextDailyUnix with
  | none => exact ⟨rfl, rfl, rfl, rfl, rfl⟩
  | some next =>
    simp only [now, wp_bind, wp_get, wp_set, wp_ite, wp_pure, wp_modify]
    by_cases early : s.clocks.clock.head < next
    · simp [early]
    · rw [if_neg early]
      by_cases pending : s.buffer = []
      · simp [early, pending]
      · rw [if_pos pending]
        refine wp_mono (flushLocked_cleared .daily) (fun _ s₁ cleared => ?_) (fun _ _ _ => trivial)
        obtain ⟨buffer, bytes, started, spec, clocks⟩ := cleared
        simp [early, pending, buffer, bytes, started, spec, clocks]

/--
What is told when a record was buffered that may trip a trigger.

If it does, the flush adds the range that ends with the record.
-/
theorem flushDue_told {asked : Nat} (since : ToldSince s₀ fed bound calls s)
    (settings : s.spec = s₀.spec)
    (durable : s.durablePosition = Ranges.reached s₀.durablePosition (calls.map (·.range)))
    (backs : Backs fed s) (last : s.buffer.getLast? = some record)
    (lowest : s.durablePosition ≤ record.sourceOffset)
    (highest : ∀ r ∈ fed, r.sourceOffset ≤ record.sourceOffset)
    (reaches : (shouldFlush s asked).isSome = true → bound = record.sourceOffset + 1) :
    wp (match shouldFlush s asked with
      | some trigger => flushLocked trigger
      | none => pure ())
      (fun _ s' => ∃ added, Told durablePosition bound fed s₀ s' added
        ∧ (record.sourceOffset + 1 < 2 ^ 64 →
          GoesOn durablePosition Watched Backing fed s₀ s' added))
      (fun _ s' => ∃ added, Told durablePosition bound fed s₀ s' added) s := by
  -- Whether it goes on is settled by the state it is left in.
  have goesOn : ∀ {s' : BlobSink σ} {calls : List (FlushCall σ)},
      ToldSince s₀ fed bound calls s' → s'.spec = s₀.spec → Backs fed s' →
      s'.bufferedHead = addOne record.sourceOffset →
      (record.sourceOffset + 1 < 2 ^ 64 →
        s'.durablePosition = Ranges.reached s₀.durablePosition (calls.map (·.range))) →
      (record.sourceOffset + 1 < 2 ^ 64 → ∀ last, s'.buffer.getLast? = some last →
        s'.durablePosition ≤ last.sourceOffset ∧ last.sourceOffset + 1 < 2 ^ 64) →
      ∃ added, Told durablePosition bound fed s₀ s' added
        ∧ (record.sourceOffset + 1 < 2 ^ 64 →
          GoesOn durablePosition Watched Backing fed s₀ s' added) := by
    intro s' calls since settings backs head durable pending
    obtain ⟨added, told, ranges⟩ := since.noted
    refine ⟨added, told, fun inRange => ⟨⟨by simp [since.told], pending inRange⟩, ?_,
      ⟨backs, fun r given => ?_⟩, ?_⟩⟩
    · rw [ranges]
      exact durable inRange
    · have atMost := highest r given
      rw [head, addOne_eq inRange]
      omega
    · exact rules_of_spec settings
  cases due : shouldFlush s asked with
  | none =>
    have head : s.bufferedHead = addOne record.sourceOffset := by simp [bufferedHead, last]
    refine goesOn since settings backs head (fun _ => durable) fun inRange other ends => ?_
    obtain rfl : record = other := Option.some.inj (last.symm.trans ends)
    exact ⟨lowest, inRange⟩
  | some trigger =>
    have reaches : bound = record.sourceOffset + 1 := reaches (by rw [due]; rfl)
    refine wp_mono (flushLocked_told trigger since settings durable backs last lowest (by omega)) ?_
      (fun _ s' since => since.noted.imp fun added noted => noted.1)
    rintro _ _ ⟨store, rfl, backs, since⟩
    refine goesOn since settings backs rfl (fun inRange => ?_) fun _ other none => ?_
    · rw [List.map_append, List.map_singleton, Ranges.reached_concat]
      exact addOne_eq inRange
    · have empty : ([] : List Record).getLast? = some other := none
      cases empty

/-- A write tells of what was buffered before, and of the record itself if that trips a trigger. -/
theorem write_told (record : Record) (watched : Watched s) (backing : Backing fed s)
    (above : s.bufferedHead ≤ record.sourceOffset) (inRange : record.sourceOffset < 2 ^ 64) :
    let bound := if flushesWith record s then record.sourceOffset + 1 else record.sourceOffset
    wp (write record)
      (fun _ s' => ∃ added, Told durablePosition bound (fed ++ [record]) s s' added
        ∧ (record.sourceOffset + 1 < 2 ^ 64 →
          GoesOn durablePosition Watched Backing (fed ++ [record]) s s' added))
      (fun _ s' => ∃ added, Told durablePosition bound (fed ++ [record]) s s' added) s := by
  intro bound
  obtain ⟨backs, below⟩ := backing
  have highest : ∀ r ∈ fed, r.sourceOffset ≤ record.sourceOffset := by
    intro r given
    have := below r given
    omega
  have atMost : record.sourceOffset ≤ bound := by
    show _ ≤ ite _ _ _
    split <;> omega
  have start : ∃ calls, Telling s fed record.sourceOffset calls s := by
    have holds := watched.telling backs
    refine ⟨[], ⟨holds.told, holds.chained, by simp, by simp, holds.grown⟩, rfl, holds.durable,
      fun last ends => ?_, backs⟩
    have := holds.pending last ends
    omega
  simp only [write, wp_bind, wp_get, wp_ensure]
  refine wp_mono (wp_and (telling_upkept.tickDaily start) tickDaily_ticked) ?_
    (fun _ _ failed => failed.1.elim fun _ since =>
      (since.more atMost).noted.imp fun _ noted => noted.1)
  rintro _ s₁ ⟨⟨calls, telling⟩, plan⟩
  have since := telling.toToldSince.more atMost
  have refused : ∃ added, Told durablePosition bound (fed ++ [record]) s s₁ added :=
    since.noted.imp fun _ noted => noted.1
  split
  case isFalse => exact refused
  case isTrue higher =>
    obtain ⟨buffer, bytes, started, spec, instants⟩ := plan
    have lowest := Nat.le_trans (durable_le_bufferedHead fun last ends =>
      ⟨(telling.pending last ends).1, (telling.pending last ends).2.2⟩) higher
    -- What a destination backs goes on from the state it accepts the record in.
    have accepts : (s₁.spec.compaction = some .log → ∃ key, record.utf8Key = some key) →
        wp (do
          let started ← instant
          modify (accepted record started)
          let asked ← instant
          match shouldFlush (← get) asked with
          | some trigger => flushLocked trigger
          | none => pure ())
          (fun _ s' => ∃ added, Told durablePosition bound (fed ++ [record]) s s' added
            ∧ (record.sourceOffset + 1 < 2 ^ 64 →
              GoesOn durablePosition Watched Backing (fed ++ [record]) s s' added))
          (fun _ s' => ∃ added, Told durablePosition bound (fed ++ [record]) s s' added) s₁ := by
      intro keyed
      simp only [instant, wp_bind, wp_get, wp_set, wp_modify, wp_pure]
      rw [instants]
      have taken : Backs (fed ++ [record]) (s₁.accepted record s.clocks.instants.head) :=
        telling.backs.accepted highest inRange keyed
      refine flushDue_told (since.after rfl List.prefix_rfl) telling.settings telling.durable
        (taken.congr rfl rfl rfl List.prefix_rfl)
        (by simp [accepted]) lowest ?_ ?_
      · intro r given
        rcases List.mem_append.mp given with earlier | now
        · exact highest r earlier
        · rw [List.mem_singleton.mp now]
      · intro due
        refine if_pos ((shouldFlush_foreseen ?_ ?_ ?_ ?_).symm.trans due)
        · exact spec
        · exact congrArg (· ++ [record]) buffer
        · exact congrArg (· + recordByteSize record) bytes
        · simp [accepted, started]
    cases mode : s₁.spec.compaction with
    | none => exact accepts fun compacted => by simp [mode] at compacted
    | some kind =>
      -- A compacted destination holds the key against its contract first.
      simp only [wp_bind, wp_ofExcept]
      cases keyed : compactionKey record with
      | error e => exact refused
      | ok key =>
        have named := utf8Key_of_compactionKey keyed
        have goesOn := accepts fun _ => ⟨key, named⟩
        simp only [wp_bind] at goesOn
        exact goesOn

/-- A blob destination as it is opened: nothing is buffered, and its view was read back. -/
structure Fresh (s : BlobSink σ) : Prop where
  empty : s.buffer = []
  filed : ∀ view ∈ s.view, View.Filed view
  viewed : ∀ view ∈ s.view, ∀ r ∈ view.values, r.sourceOffset < 2 ^ 64

omit [BlobHistory σ] [KeepingStore σ] [LawfulEnvelopeLibraries] in
/-- A sink is built with nothing buffered, and with the view its newest snapshot decodes to. -/
theorem fresh_of_new {store : σ} {spec : BlobSpec} {chain : Chain} {snapshot : Option Bytes}
    {clocks : Clocks} (built : new store spec chain snapshot clocks = .ok s)
    (viewed : ∀ view ∈ s.view, ∀ r ∈ view.values, r.sourceOffset < 2 ^ 64) : Fresh s := by
  refine ⟨?_, fun view shown => ?_, viewed⟩
  · obtain ⟨_, _, rfl⟩ := eq_of_new built
    rfl
  · cases mode : spec.compaction with
    | none =>
      -- An archive has no view.
      unfold new at built
      split at built
      · cases built
      · simp only [mode] at built
        cases built
        cases shown
    | some kind =>
      obtain ⟨_, _, _, _, held, same, empty, read⟩ := of_new_compacted mode built
      obtain rfl : view = held := Option.some.inj (shown.symm.trans same)
      cases latest : chain.latest with
      | none =>
        rw [empty latest]
        simp [View.Filed]
      | some name =>
        cases snapshot with
        | some bytes => exact filed_of_decodeView (read name bytes latest rfl)
        | none =>
          -- Without the bytes of the newest snapshot no sink is built.
          unfold new at built
          split at built
          · cases built
          · simp only [mode, latest] at built
            cases built

omit [BlobHistory σ] [KeepingStore σ] [LawfulEnvelopeLibraries] in
/-- What takes no record leaves a destination that was just opened as it was opened. -/
theorem fresh_upkept :
    Upkept (fun _ _ => True) (Fresh (σ := σ)) (fun _ _ => True) where
  refl _ := trivial
  congr _ _ fresh alike :=
    ⟨alike.buffer.trans fresh.empty, alike.view ▸ fresh.filed, alike.view ▸ fresh.viewed⟩
  leaves _ _ _ := trivial
  flush _ _ fresh pending := absurd fresh.empty pending

omit [BlobStore σ] [KeepingStore σ] [LawfulEnvelopeLibraries] in
/-- An operation that only flushes or looks tells of what it made durable. -/
theorem keeps_told {α : Type} {program : Program SinkError (BlobSink σ) α}
    (backing : Backing fed s)
    (stands : wp program (fun _ s' => s'.bufferedHead = s.bufferedHead) (fun _ _ => True) s)
    (told : wp program (fun _ s' => ∃ calls, Telling s fed s.bufferedHead calls s')
      (fun _ s' => ∃ calls, ToldSince s fed s.bufferedHead calls s') s) :
    wp program
      (fun _ s' => ∃ added, Told durablePosition s.bufferedHead fed s s' added
        ∧ GoesOn durablePosition Watched Backing fed s s' added)
      (fun _ s' => ∃ added, Told durablePosition s.bufferedHead fed s s' added) s := by
  refine wp_mono (wp_and told stands) ?_
    (fun _ _ ⟨⟨_, since⟩, _⟩ => since.noted.imp fun _ noted => noted.1)
  rintro _ s' ⟨⟨calls, telling⟩, same⟩
  exact telling.kept (same ▸ backing.2)

instance : LawfulFlushing (BlobSink σ) where
  durable := durablePosition
  fresh := Fresh
  watched := Watched
  backs := Backing
  holds_mono s content content' fed fed' r holds within grown := by
    cases content with
    | messages => exact holds.elim
    | objects =>
      cases content' with
      | messages => exact within.elim
      | objects => exact BlobSpec.Holds.mono holds within grown
  silent _ supports := absurd supports Bool.noConfusion
  durable_le _ watched _ := durable_le_bufferedHead watched.2
  backs_holds _ _ _ supports := absurd supports Bool.noConfusion
  install_spec s _ fresh := by
    have head : s.bufferedHead = s.durablePosition := by simp [bufferedHead, fresh.empty]
    have backs : Backs [] (FlushingSink.setFlushObserver s) :=
      ⟨by simp, fresh.filed, by simp [FlushingSink.setFlushObserver, fresh.empty], fresh.viewed⟩
    refine ⟨trivial, ⟨rfl, fun last ends => ?_⟩, rfl, rfl, ⟨backs, by simp⟩, rfl, rfl,
      fun _ => head.symm⟩
    have empty : s.buffer.getLast? = some last := ends
    simp [fresh.empty] at empty
  fresh_spec _ fresh :=
    wp_mono (fresh_upkept.nextExpectedOffset listsOnly_any fresh) (fun _ _ kept => kept.1)
      (fun _ _ _ => trivial)
  nextExpectedOffset_told _ _ _ watched backing :=
    keeps_told backing
      (wp_mono nextExpectedOffset_bufferedHead (fun _ _ same => same.1) (fun _ _ _ => trivial))
      (wp_mono (telling_upkept.nextExpectedOffset listsOnly_grows ⟨[], watched.telling backing.1⟩)
        (fun _ _ kept => kept.1) (fun _ _ since => since))
  furthestNextOffset_told fed s _ watched backing := by
    show wp (pure none) _ _ s
    exact (watched.telling backing.1).kept backing.2
  write_told fed record _ _ watched backing above inRange :=
    write_told record watched backing above inRange
  flush_told _ _ _ watched backing :=
    wp_mono (wp_and (bufferedHead_upkept.flushNow rfl)
      (keeps_told backing (bufferedHead_upkept.flushNow rfl)
        (telling_upkept.flushNow ⟨[], watched.telling backing.1⟩)))
      (fun _ _ ⟨same, kept⟩ => ⟨trivial, same, kept⟩) (fun _ _ left => left.2)
  align_told fed lowWatermark s _ watched backing _ := by
    show wp (alignToSourceLowWatermark lowWatermark) _ _ s
    have nothing : ∀ s' : BlobSink σ, s'.flushObserver = s.flushObserver → s'.store = s.store →
        Told durablePosition 0 fed s s' [] := by
      intro s' same store
      refine ⟨rfl, ?_, trivial, by simp, by simp, ?_⟩
      · show (s'.flushObserver.getD []).map _ = (s.flushObserver.getD []).map _ ++ []
        rw [same, List.append_nil]
      · show List.Pairwise _ [Content.objects (objects s.store), .objects (objects s'.store)]
        rw [store]
        simp [Content.within_refl]
    simp only [alignToSourceLowWatermark, wp_bind, wp_get, wp_ensure, wp_set]
    split
    · split
      · rename_i quiet
        refine ⟨nothing _ rfl rfl, ⟨watched.1, fun last ends => ?_⟩,
          ⟨backing.1.congr rfl rfl rfl List.prefix_rfl, fun r given => ?_⟩, rfl, fun _ => trivial⟩
        · have empty : s.buffer.getLast? = some last := ends
          simp [quiet.1] at empty
        · -- With nothing buffered the destination stands where it is durable, before and after.
          have below := backing.2 r given
          have higher := quiet.2
          simp only [bufferedHead, quiet.1, List.getLast?_nil, Option.map_none, Option.getD_none]
            at below ⊢
          omega
      · exact nothing _ rfl rfl
    · exact nothing _ rfl rfl

end BlobSink

section PerRecord

variable {K : Type} [FlushingSink K] [HoldingSink K] {s s' : K} {bound : Nat} {fed : List Record}

/-- A destination that never flushes tells of nothing. -/
theorem Told.nothing
    (supports : FlushingSink.supportsFlushObserver s' = FlushingSink.supportsFlushObserver s)
    (calls : HoldingSink.calls s' = HoldingSink.calls s)
    (kept : (HoldingSink.found s).Within (HoldingSink.found s')) :
    Told (fun _ => 0) bound fed s s' [] where
  supports := supports
  calls := by rw [calls, List.append_nil]
  chained := trivial
  below := by simp
  held := by simp
  grown := by simpa using kept

end PerRecord

namespace KafkaSink

variable {β : Type} {s s' : KafkaSink β} {fed : List Record} {bound : Nat}

instance : TriggeredSink (KafkaSink β) where

variable [PartitionHistory β]

/-- A Kafka destination that has every record it was handed, at the record's own offset. -/
def Backing (fed : List Record) (s : KafkaSink β) : Prop :=
  ∀ r ∈ fed, (stored s.broker)[r.sourceOffset]? = some (s.config.futureRecord r)

/-- What is read back is read under the settings, which an operation leaves what they are. -/
theorem rules_of_config (settings : s'.config = s.config) :
    (HoldingSink.Holds s' : Content → List Record → Record → Prop) = HoldingSink.Holds s := by
  -- Only the settings of a destination enter into it.
  funext content delivered record
  cases content with
  | objects objects => rfl
  | messages messages =>
    show (messages[record.sourceOffset]? = some (s'.config.futureRecord record)) = _
    rw [settings]
    rfl

/-- Messages that are there at some offset are there when more were appended. -/
theorem getElem?_of_prefix {messages messages' : List FutureRecord} {i : Nat}
    {message : FutureRecord} (here : messages[i]? = some message)
    (kept : messages <+: messages') : messages'[i]? = some message := by
  -- The offset is one of the first part.
  obtain ⟨rest, rfl⟩ := kept
  rw [List.getElem?_append_left (List.getElem?_eq_some_iff.mp here).1, here]

/-- A destination that goes on with a longer partition under its settings backs what it did. -/
theorem Backing.kept (backing : Backing fed s) (settings : s'.config = s.config)
    (grown : stored s.broker <+: stored s'.broker) :
    GoesOn (fun _ => 0) (fun _ => True) Backing fed s s' [] where
  watched := trivial
  durable := rfl
  backs r given := by
    rw [settings]
    exact getElem?_of_prefix (backing r given) grown
  rules := rules_of_config settings

variable [Broker β] [LawfulBroker β]

/-- To ask for the high watermark takes no message away, and tells of nothing. -/
theorem fetchHighWatermark_told (backing : Backing fed s) :
    wp fetchHighWatermark
      (fun _ s' => ∃ added, Told (fun _ => 0) bound fed s s' added
        ∧ GoesOn (fun _ => 0) (fun _ => True) Backing fed s s' added)
      (fun _ s' => ∃ added, Told (fun _ => 0) bound fed s s' added) s := by
  have kept : ∀ s' : KafkaSink β, stored s'.broker = stored s.broker →
      stored s.broker <+: stored s'.broker := fun _ same => same ▸ List.prefix_rfl
  refine wp_mono fetchHighWatermark_spec ?_
    (fun _ s' ⟨same, _⟩ => ⟨[], .nothing rfl rfl (kept s' same)⟩)
  rintro _ s' ⟨clients, same, -⟩
  exact ⟨[], .nothing rfl rfl (kept s' same), backing.kept clients.1 (kept s' same)⟩

variable [PayloadParsers]

/-- A write that returns has appended its record, and one that fails took nothing away. -/
theorem write_told {record : Record} (backing : Backing fed s)
    (noRetries : ClientConfig.get s.producer "message.send.max.retries" = some "0") :
    wp (write record)
      (fun _ s' => ∃ added, Told (fun _ => 0) bound (fed ++ [record]) s s' added
        ∧ GoesOn (fun _ => 0) (fun _ => True) Backing (fed ++ [record]) s s' added)
      (fun _ s' => ∃ added, Told (fun _ => 0) bound (fed ++ [record]) s s' added) s := by
  refine wp_mono (write_spec record noRetries) ?_ (fun _ s' left => ?_)
  · rintro _ s' ⟨clients, atEnd, appended⟩
    have kept : stored s.broker <+: stored s'.broker := appended ▸ List.prefix_append _ _
    have goesOn := backing.kept clients.1 kept
    refine ⟨[], .nothing rfl rfl kept, trivial, rfl, fun r given => ?_, goesOn.rules⟩
    rcases List.mem_append.mp given with earlier | now
    · exact goesOn.backs r earlier
    · rw [List.mem_singleton.mp now, appended, clients.1, ← atEnd]
      exact List.getElem?_concat_length
  · have kept : stored s.broker <+: stored s'.broker := by
      rcases left with same | ⟨-, appended⟩
      · exact same ▸ List.prefix_rfl
      · exact appended ▸ List.prefix_append _ _
    exact ⟨[], .nothing rfl rfl kept⟩

instance : LawfulFlushing (KafkaSink β) where
  durable _ := 0
  fresh _ := True
  watched _ := True
  backs := Backing
  holds_mono s content content' fed fed' r holds within grown := by
    cases content with
    | objects => exact holds.elim
    | messages =>
      cases content' with
      | objects => exact within.elim
      | messages => exact getElem?_of_prefix holds within
  silent _ _ := rfl
  durable_le _ _ supports := absurd supports Bool.false_ne_true
  backs_holds _ _ backing _ := backing
  install_spec _ owned _ := ⟨owned, trivial, rfl, rfl, fun _ none => absurd none List.not_mem_nil,
    rfl, rfl, fun supports => absurd supports Bool.false_ne_true⟩
  fresh_spec _ _ := wp_any (fun _ _ => trivial) (fun _ _ => trivial)
  nextExpectedOffset_told _ _ _ _ backing := fetchHighWatermark_told backing
  furthestNextOffset_told _ s _ _ backing := by
    show wp (pure none) _ _ s
    exact ⟨[], .nothing rfl rfl (Content.within_refl _), backing.kept rfl List.prefix_rfl⟩
  write_told _ _ _ owned _ backing _ _ :=
    wp_mono (write_told backing owned) (fun _ _ ⟨added, told, kept⟩ => ⟨added, told, fun _ => kept⟩)
      (fun _ _ told => told)
  flush_told _ s owned _ backing := by
    show wp (pure ()) _ _ s
    exact ⟨owned, rfl, [], .nothing rfl rfl (Content.within_refl _), backing.kept rfl List.prefix_rfl⟩
  align_told _ _ _ _ _ _ allowed := absurd allowed Bool.false_ne_true

end KafkaSink

section Either

variable {K₁ K₂ : Type}

instance [TriggeredSink K₁] [TriggeredSink K₂] : TriggeredSink (K₁ ⊕ K₂) where
  flushesWith record :=
    Sum.elim (TriggeredSink.flushesWith record) (TriggeredSink.flushesWith record)

variable [FlushingSink K₁] [FlushingSink K₂] [HoldingSink K₁] [HoldingSink K₂]
  {durable₁ : K₁ → Nat} {durable₂ : K₂ → Nat} {watched₁ : K₁ → Prop} {watched₂ : K₂ → Prop}
  {backs₁ : List Record → K₁ → Prop} {backs₂ : List Record → K₂ → Prop} {bound : Nat}
  {fed : List Record} {added : List NotedCall}

/-- What the left kind of destination tells is told by either kind. -/
theorem Told.inl {s s' : K₁} (told : Told durable₁ bound fed s s' added) :
    Told (Sum.elim durable₁ durable₂) bound fed (.inl s) (.inl s') added :=
  ⟨told.supports, told.calls, told.chained, told.below, told.held, told.grown⟩

/-- What the right kind of destination tells is told by either kind. -/
theorem Told.inr {s s' : K₂} (told : Told durable₂ bound fed s s' added) :
    Told (Sum.elim durable₁ durable₂) bound fed (.inr s) (.inr s') added :=
  ⟨told.supports, told.calls, told.chained, told.below, told.held, told.grown⟩

omit [FlushingSink K₁] [FlushingSink K₂] in
/-- As the left kind of destination goes on, either kind does. -/
theorem GoesOn.inl {s s' : K₁} (kept : GoesOn durable₁ watched₁ backs₁ fed s s' added) :
    GoesOn (Sum.elim durable₁ durable₂) (Sum.elim watched₁ watched₂)
      (fun fed => Sum.elim (backs₁ fed) (backs₂ fed)) fed (.inl s) (.inl s') added :=
  ⟨kept.watched, kept.durable, kept.backs, kept.rules⟩

omit [FlushingSink K₁] [FlushingSink K₂] in
/-- As the right kind of destination goes on, either kind does. -/
theorem GoesOn.inr {s s' : K₂} (kept : GoesOn durable₂ watched₂ backs₂ fed s s' added) :
    GoesOn (Sum.elim durable₁ durable₂) (Sum.elim watched₁ watched₂)
      (fun fed => Sum.elim (backs₁ fed) (backs₂ fed)) fed (.inr s) (.inr s') added :=
  ⟨kept.watched, kept.durable, kept.backs, kept.rules⟩

variable [Sink K₁] [Sink K₂] [LawfulSink K₁] [LawfulSink K₂] [TriggeredSink K₁]
  [TriggeredSink K₂] [LawfulFlushing K₁] [LawfulFlushing K₂]

instance : LawfulFlushing (K₁ ⊕ K₂) where
  durable := Sum.elim LawfulFlushing.durable LawfulFlushing.durable
  fresh := Sum.elim LawfulFlushing.fresh LawfulFlushing.fresh
  watched := Sum.elim LawfulFlushing.watched LawfulFlushing.watched
  backs fed := Sum.elim (LawfulFlushing.backs fed) (LawfulFlushing.backs fed)
  holds_mono s _ _ _ _ _ holds within grown := by
    cases s with
    | inl s => exact LawfulFlushing.holds_mono s holds within grown
    | inr s => exact LawfulFlushing.holds_mono s holds within grown
  silent
    | .inl s, supports => LawfulFlushing.silent s supports
    | .inr s, supports => LawfulFlushing.silent s supports
  durable_le
    | .inl s, watched, supports => LawfulFlushing.durable_le s watched supports
    | .inr s, watched, supports => LawfulFlushing.durable_le s watched supports
  backs_holds
    | fed, .inl s, backs, supports => LawfulFlushing.backs_holds fed s backs supports
    | fed, .inr s, backs, supports => LawfulFlushing.backs_holds fed s backs supports
  install_spec
    | .inl s, owned, fresh => by
      have installed := LawfulFlushing.install_spec s owned fresh
      by_cases supports : FlushingSink.supportsFlushObserver s = true
      · have either : FlushingSink.supportsFlushObserver (.inl s : K₁ ⊕ K₂) = true := supports
        simp only [supports, either, if_true] at installed ⊢
        exact installed
      · have either : ¬ FlushingSink.supportsFlushObserver (.inl s : K₁ ⊕ K₂) = true := supports
        rw [if_neg supports] at installed
        rw [if_neg either]
        exact installed
    | .inr s, owned, fresh => by
      have installed := LawfulFlushing.install_spec s owned fresh
      by_cases supports : FlushingSink.supportsFlushObserver s = true
      · have either : FlushingSink.supportsFlushObserver (.inr s : K₁ ⊕ K₂) = true := supports
        simp only [supports, either, if_true] at installed ⊢
        exact installed
      · have either : ¬ FlushingSink.supportsFlushObserver (.inr s : K₁ ⊕ K₂) = true := supports
        rw [if_neg supports] at installed
        rw [if_neg either]
        exact installed
  fresh_spec
    | .inl s, fresh => by
      show wp (onEither _ _) _ _ (.inl s)
      simp only [wp_onEither_inl]
      exact LawfulFlushing.fresh_spec s fresh
    | .inr s, fresh => by
      show wp (onEither _ _) _ _ (.inr s)
      simp only [wp_onEither_inr]
      exact LawfulFlushing.fresh_spec s fresh
  nextExpectedOffset_told
    | fed, .inl s, owned, watched, backs => by
      show wp (onEither _ _) _ _ (.inl s)
      simp only [wp_onEither_inl]
      exact wp_mono (LawfulFlushing.nextExpectedOffset_told fed s owned watched backs)
        (fun _ _ ⟨added, told, kept⟩ => ⟨added, told.inl, kept.inl⟩)
        (fun _ _ ⟨added, told⟩ => ⟨added, told.inl⟩)
    | fed, .inr s, owned, watched, backs => by
      show wp (onEither _ _) _ _ (.inr s)
      simp only [wp_onEither_inr]
      exact wp_mono (LawfulFlushing.nextExpectedOffset_told fed s owned watched backs)
        (fun _ _ ⟨added, told, kept⟩ => ⟨added, told.inr, kept.inr⟩)
        (fun _ _ ⟨added, told⟩ => ⟨added, told.inr⟩)
  furthestNextOffset_told
    | fed, .inl s, owned, watched, backs => by
      show wp (onEither _ _) _ _ (.inl s)
      simp only [wp_onEither_inl]
      exact wp_mono (LawfulFlushing.furthestNextOffset_told fed s owned watched backs)
        (fun _ _ ⟨added, told, kept⟩ => ⟨added, told.inl, kept.inl⟩)
        (fun _ _ ⟨added, told⟩ => ⟨added, told.inl⟩)
    | fed, .inr s, owned, watched, backs => by
      show wp (onEither _ _) _ _ (.inr s)
      simp only [wp_onEither_inr]
      exact wp_mono (LawfulFlushing.furthestNextOffset_told fed s owned watched backs)
        (fun _ _ ⟨added, told, kept⟩ => ⟨added, told.inr, kept.inr⟩)
        (fun _ _ ⟨added, told⟩ => ⟨added, told.inr⟩)
  write_told
    | fed, record, .inl s, owned, watched, backs, above, inRange => by
      show wp (onEither _ _) _ _ (.inl s)
      simp only [wp_onEither_inl]
      exact wp_mono (LawfulFlushing.write_told fed record s owned watched backs above inRange)
        (fun _ _ ⟨added, told, kept⟩ => ⟨added, told.inl, fun next => (kept next).inl⟩)
        (fun _ _ ⟨added, told⟩ => ⟨added, told.inl⟩)
    | fed, record, .inr s, owned, watched, backs, above, inRange => by
      show wp (onEither _ _) _ _ (.inr s)
      simp only [wp_onEither_inr]
      exact wp_mono (LawfulFlushing.write_told fed record s owned watched backs above inRange)
        (fun _ _ ⟨added, told, kept⟩ => ⟨added, told.inr, fun next => (kept next).inr⟩)
        (fun _ _ ⟨added, told⟩ => ⟨added, told.inr⟩)
  flush_told
    | fed, .inl s, owned, watched, backs => by
      show wp (onEither _ _) _ _ (.inl s)
      simp only [wp_onEither_inl]
      exact wp_mono (LawfulFlushing.flush_told fed s owned watched backs)
        (fun _ _ ⟨owned, position, added, told, kept⟩ =>
          ⟨owned, position, added, told.inl, kept.inl⟩)
        (fun _ _ ⟨added, told⟩ => ⟨added, told.inl⟩)
    | fed, .inr s, owned, watched, backs => by
      show wp (onEither _ _) _ _ (.inr s)
      simp only [wp_onEither_inr]
      exact wp_mono (LawfulFlushing.flush_told fed s owned watched backs)
        (fun _ _ ⟨owned, position, added, told, kept⟩ =>
          ⟨owned, position, added, told.inr, kept.inr⟩)
        (fun _ _ ⟨added, told⟩ => ⟨added, told.inr⟩)
  align_told
    | fed, lowWatermark, .inl s, owned, watched, backs, allowed => by
      show wp (onEither _ _) _ _ (.inl s)
      simp only [wp_onEither_inl]
      exact wp_mono (LawfulFlushing.align_told fed lowWatermark s owned watched backs allowed)
        (fun _ _ ⟨told, kept⟩ => ⟨told.inl, kept⟩) (fun _ _ told => told.inl)
    | fed, lowWatermark, .inr s, owned, watched, backs, allowed => by
      show wp (onEither _ _) _ _ (.inr s)
      simp only [wp_onEither_inr]
      exact wp_mono (LawfulFlushing.align_told fed lowWatermark s owned watched backs allowed)
        (fun _ _ ⟨told, kept⟩ => ⟨told.inr, kept⟩) (fun _ _ told => told.inr)

end Either

end MirrorV3
