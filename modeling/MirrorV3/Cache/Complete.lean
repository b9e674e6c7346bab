import MirrorV3.Cache.Readiness
import MirrorV3.Core.LogSource
import MirrorV3.Core.NoDestination
import MirrorV3.Core.RunLoop
import MirrorV3.Core.Tee

/-! A cache is fed from the low watermark, so once it is ready it holds everything that was there. -/

namespace MirrorV3

open Effect

/-- The records a source still has. -/
def LogSource.retained (s : LogSource) : List Record := s.log.between s.lowWatermark (2 ^ 63)

namespace TeeSink

variable {K : Type} [Sink K] {s : TeeSink K}

/-- A query of a tee leaves its view alone, and answers at most where the cursor is. -/
theorem nextExpectedOffset_cache :
    wp (Sink.nextExpectedOffset : Program SinkError (TeeSink K) Nat)
      (fun next s' => s'.cache = s.cache ∧ ∀ cursor ∈ s.resumeCursor, next ≤ cursor)
      (fun _ s' => s'.cache = s.cache) s := by
  have query : (Sink.nextExpectedOffset : Program SinkError (TeeSink K) Nat) = (do
      let _ ← focus innersPart id (forEach InnerSink.refreshHead)
      return (← get).resumePosition) := rfl
  simp only [query, wp_bind, wp_focus, wp_get, wp_pure]
  refine wp_any (fun _ inners => ⟨rfl, fun cursor held => ?_⟩) (fun _ _ => rfl)
  have kept : (innersPart.set inners s).resumeCursor = some cursor := held
  unfold resumePosition
  rw [kept]
  exact Nat.min_le_right _ _

/-- Asking how far the destinations are leaves the view alone. -/
theorem furthestNextOffset_cache :
    wp (Sink.furthestNextOffset : Program SinkError (TeeSink K) (Option Nat))
      (fun _ s' => s'.cache = s.cache) (fun _ s' => s'.cache = s.cache) s := by
  have query : (Sink.furthestNextOffset : Program SinkError (TeeSink K) (Option Nat)) = (do
      let heads ← focus innersPart id (forEach InnerSink.furthest)
      return some (heads.foldl max 0)) := rfl
  simp only [query, wp_bind, wp_focus, wp_pure]
  exact wp_any (fun _ _ => rfl) (fun _ _ => rfl)

/-- A flush leaves the view alone. -/
theorem flush_cache :
    wp (Sink.flush : Program SinkError (TeeSink K) Unit)
      (fun _ s' => s'.cache = s.cache) (fun _ s' => s'.cache = s.cache) s := by
  have flush : (Sink.flush : Program SinkError (TeeSink K) Unit)
      = focus innersPart id (forAll InnerSink.flush) := rfl
  simp only [flush, wp_focus]
  exact wp_any (fun _ _ => rfl) (fun _ _ => rfl)

/-- Aligning the destinations leaves the view alone. -/
theorem align_cache (lowWatermark : Nat) :
    wp (Sink.alignToSourceLowWatermark lowWatermark : Program SinkError (TeeSink K) Unit)
      (fun _ s' => s'.cache = s.cache) (fun _ s' => s'.cache = s.cache) s := by
  have align : (Sink.alignToSourceLowWatermark lowWatermark : Program SinkError (TeeSink K) Unit)
      = (do
        focus innersPart id (forAll (InnerSink.align lowWatermark))
        modify fun s => { s with inners := s.inners.map ({ · with head := lowWatermark }) }) := rfl
  simp only [align, wp_bind, wp_focus, wp_modify]
  exact wp_any (fun _ _ => rfl) (fun _ _ => rfl)

/-- A write applies its record to the view, whether or not the destinations take it. -/
theorem write_cache (record : Record) :
    wp (Sink.write record : Program SinkError (TeeSink K) Unit)
      (fun _ s' => s'.cache = s.cache.map (·.applyRecord record))
      (fun _ s' => s'.cache = s.cache.map (·.applyRecord record)) s := by
  have write : (Sink.write record : Program SinkError (TeeSink K) Unit) = (do
      modify (applyToCache record)
      focus innersPart id (forAll (InnerSink.write record))
      modify (advanceResumeCursor record.sourceOffset)) := rfl
  simp only [write, wp_bind, wp_focus, wp_modify]
  exact wp_any (fun _ _ => rfl) (fun _ _ => rfl)

end TeeSink

/-- The binding after records were applied to its mirror. -/
def CacheBinding.applyAll (binding : CacheBinding) (records : List Record) : CacheBinding :=
  records.foldl CacheBinding.applyRecord binding

/-- One more record is applied after the ones before it. -/
theorem CacheBinding.applyAll_concat (binding : CacheBinding) (records : List Record)
    (record : Record) :
    binding.applyAll (records ++ [record]) = (binding.applyAll records).applyRecord record :=
  List.foldl_concat _ _ _ _

/-- Records are applied in two parts. -/
theorem CacheBinding.applyAll_append (binding : CacheBinding) (earlier later : List Record) :
    binding.applyAll (earlier ++ later) = (binding.applyAll earlier).applyAll later :=
  List.foldl_append

/-- The state of a binding is that of its cache, the mirror's name staying what it is. -/
theorem CacheBinding.applyAll_state (binding : CacheBinding) (records : List Record) :
    (binding.applyAll records).state = binding.state.applyAll binding.mirrorName records
      ∧ (binding.applyAll records).mirrorName = binding.mirrorName := by
  induction records generalizing binding with
  | nil => exact ⟨rfl, rfl⟩
  | cons record records ih => exact ih (binding.applyRecord record)

section Run

variable {K N : Type} [Sink K] [Notifier N]

/--
A tee whose mirror reads its source from the low watermark.

A mirror with destinations has a resume floor there, and one without starts at offset zero.
-/
def FromLow (lowWatermark : Nat) (tee : TeeSink (K ⊕ NoDestinationSink)) : Prop :=
  (∃ cursor ∈ tee.resumeCursor, cursor ≤ lowWatermark)
    ∨ ∃ name, tee.inners = [⟨name, .inr ⟨0⟩, 0⟩]

/-- Such a tee answers at most the low watermark. -/
theorem FromLow.nextExpectedOffset {lowWatermark : Nat} {tee : TeeSink (K ⊕ NoDestinationSink)}
    (fromLow : FromLow lowWatermark tee) :
    wp (Sink.nextExpectedOffset : Program SinkError (TeeSink (K ⊕ NoDestinationSink)) Nat)
      (fun next s' => s'.cache = tee.cache ∧ next ≤ lowWatermark)
      (fun _ s' => s'.cache = tee.cache) tee := by
  rcases fromLow with ⟨cursor, held, low⟩ | ⟨name, none⟩
  · refine wp_mono TeeSink.nextExpectedOffset_cache (fun next s' ⟨same, below⟩ => ?_)
      (fun _ _ same => same)
    exact ⟨same, Nat.le_trans (below cursor held) low⟩
  · -- The one destination is a position in memory, which has not moved from zero.
    have zero : wp (Sink.nextExpectedOffset : Program SinkError (TeeSink (K ⊕ NoDestinationSink)) Nat)
        (fun next _ => next = 0) (fun _ _ => True) tee := by
      obtain ⟨inners, cache, cursor⟩ := tee
      subst none
      cases cursor with
      | none => rfl
      | some cursor => exact Nat.zero_min cursor
    exact wp_mono (wp_and TeeSink.nextExpectedOffset_cache zero)
      (fun next s' ⟨kept, start⟩ => ⟨kept.1, by omega⟩) (fun _ _ kept => kept.1)

/-- A mirror whose view holds the records read so far, from the low watermark on. -/
structure Caching (start : CacheBinding) (source : LogSource) (expected : Nat)
    (m : Mirror LogSource (TeeSink K) N) : Prop where
  sameLog : LogSource.SameLog source m.source
  position : m.source.position = expected
  fromLow : source.lowWatermark ≤ expected
  cache : m.sink.cache = some (start.applyAll (source.log.between source.lowWatermark expected))

/-- A mirror whose view holds a stretch of what the source has, from the low watermark on. -/
def Cached (start : CacheBinding) (source : LogSource) (m : Mirror LogSource (TeeSink K) N) :
    Prop :=
  ∃ reached, m.sink.cache = some (start.applyAll (source.log.between source.lowWatermark reached))

omit [Sink K] [Notifier N] in
/-- The view of a mirror that is reading on holds such a stretch. -/
theorem Caching.cached {start : CacheBinding} {source : LogSource} {expected : Nat}
    {m : Mirror LogSource (TeeSink K) N} (caching : Caching start source expected m) :
    Cached start source m := ⟨expected, caching.cache⟩

/-- A polled record is applied to the view before anything else is done with it. -/
theorem deliver_caching {start : CacheBinding} {source : LogSource} {expected : Nat}
    {record : Record} {m : Mirror LogSource (TeeSink K) N}
    (sameLog : LogSource.SameLog source m.source)
    (position : m.source.position = record.sourceOffset + 1)
    (fromLow : source.lowWatermark ≤ expected)
    (cache : m.sink.cache = some (start.applyAll (source.log.between source.lowWatermark expected)))
    (found : source.log.next expected = some record) :
    wp (Mirror.deliver expected record) (fun next => Caching start source next)
      (fun _ => Cached start source) m := by
  have read := Log.between_snoc fromLow found
  have above := (Log.of_next found).2
  -- The record is the next one of the log, so applying it is applying the log one further.
  have applied : m.sink.cache.map (·.applyRecord record)
      = some (start.applyAll (source.log.between source.lowWatermark (record.sourceOffset + 1))) := by
    rw [cache, ← read, CacheBinding.applyAll_concat]
    rfl
  simp only [Mirror.deliver, Mirror.onSink, Mirror.onNotifier, wp_bind, wp_ensure, wp_get,
    wp_focus, wp_pure]
  rw [if_pos above]
  split
  · refine wp_mono (TeeSink.write_cache record) (fun _ sink written => ?_)
      (fun _ sink written => ⟨_, written.trans applied⟩)
    split
    · refine wp_any (fun _ notifier => ?_) (fun _ notifier => ⟨_, written.trans applied⟩)
      exact ⟨sameLog, position, by omega, written.trans applied⟩
    · exact ⟨_, written.trans applied⟩
  · exact ⟨expected, cache⟩

/-- One poll keeps the view in step with the position. -/
theorem poll_caching {start : CacheBinding} {source : LogSource} {expected : Nat}
    {m : Mirror LogSource (TeeSink K) N} (caching : Caching start source expected m) :
    wp (Mirror.poll expected) (fun next => Caching start source next)
      (fun _ => Cached start source) m := by
  obtain ⟨sameLog, position, fromLow, cache⟩ := caching
  simp only [Mirror.poll, Mirror.onSource, wp_bind, wp_focus]
  refine wp_mono (LogSource.pollOne_spec m.source) (fun polled source' ⟨same, outcome⟩ => ?_)
    (fun _ _ _ => ⟨expected, cache⟩)
  have sameLog' : LogSource.SameLog source source' :=
    ⟨same.1.trans sameLog.1, same.2.trans sameLog.2⟩
  cases polled with
  | none =>
    simp only [Mirror.verifyIdle, Mirror.onSink, wp_bind, wp_focus, wp_ensure, wp_pure]
    refine wp_mono TeeSink.nextExpectedOffset_cache (fun current sink ⟨kept, _⟩ => ?_)
      (fun _ _ kept => ⟨expected, kept.trans cache⟩)
    split
    · exact ⟨sameLog', outcome.trans position, fromLow, kept.trans cache⟩
    · exact ⟨expected, kept.trans cache⟩
  | some record =>
    have found : source.log.next expected = some record := by
      rw [← sameLog.1, ← position]
      exact outcome.1
    exact deliver_caching sameLog' outcome.2 fromLow cache found

/-- Whatever the events are, the view holds a stretch of what the source has. -/
theorem loop_cached {start : CacheBinding} {source : LogSource} (events : List LoopEvent)
    {expected : Nat} {m : Mirror LogSource (TeeSink K) N}
    (caching : Caching start source expected m) :
    wp (Mirror.loop events expected) (fun _ => Cached start source)
      (fun _ => Cached start source) m := by
  have stops : ∀ expected m, Caching start source expected m →
      wp Mirror.stop (fun _ => Cached start source) (fun _ => Cached start source)
        (m : Mirror LogSource (TeeSink K) N) := by
    intro expected m kept
    -- The graceful stop flushes the destinations and drains the observer.
    simp only [Mirror.stop, Mirror.onSink, Mirror.onNotifier, wp_bind, wp_focus]
    refine wp_mono TeeSink.flush_cache (fun _ sink flushed => ?_)
      (fun _ sink flushed => ⟨_, flushed.trans kept.cache⟩)
    exact wp_any (fun _ _ => ⟨_, flushed.trans kept.cache⟩)
      (fun _ _ => ⟨_, flushed.trans kept.cache⟩)
  refine wp_mono (Mirror.loop_rule (fun _ _ kept => poll_caching kept)
    (fun _ _ kept => ⟨kept.sameLog, kept.position, kept.fromLow, kept.cache⟩) stops events expected
    m caching) (fun progress m' ended => ?_) (fun _ _ failed => failed)
  cases progress with
  | running expected => exact Caching.cached ended
  | finished => exact ended

omit [Notifier N] in
/-- The startup of such a mirror seeks to the low watermark, having applied nothing yet. -/
theorem bootstrap_caching {start : CacheBinding} {source : LogSource}
    {tee : TeeSink (K ⊕ NoDestinationSink)} (cached : tee.cache = some start)
    (fromLow : FromLow source.lowWatermark tee) (notifier : N) :
    wp Mirror.bootstrap
      (fun next m => next = source.lowWatermark ∧ Caching start source next m)
      (fun _ => Cached start source)
      (⟨source, tee, notifier⟩ : Mirror LogSource (TeeSink (K ⊕ NoDestinationSink)) N) := by
  have nothing : source.log.between source.lowWatermark source.lowWatermark = [] :=
    Window.between_self
  have unapplied : ∀ tee' : TeeSink (K ⊕ NoDestinationSink), tee'.cache = tee.cache →
      tee'.cache = some (start.applyAll (source.log.between source.lowWatermark
        source.lowWatermark)) := by
    intro tee' same
    rw [same, cached, nothing]
    rfl
  simp only [Mirror.bootstrap, Mirror.onSink, Mirror.onSource, wp_bind, wp_focus, wp_ensure,
    wp_get, wp_ite, wp_pure, wp_throw]
  refine wp_mono fromLow.nextExpectedOffset (fun sinkStart tee₁ ⟨kept₁, atLow⟩ => ?_)
    (fun _ tee₁ kept₁ => ⟨_, unapplied tee₁ kept₁⟩)
  refine wp_mono (LogSource.lowWatermark_spec source) (fun low source₁ ⟨same₁, isLow⟩ => ?_)
    (fun _ _ _ => ⟨_, unapplied tee₁ kept₁⟩)
  subst isLow
  refine wp_mono (LogSource.highWatermark_spec source₁) (fun high source₂ same₂ => ?_)
    (fun _ _ _ => ⟨_, unapplied tee₁ kept₁⟩)
  refine wp_mono TeeSink.furthestNextOffset_cache (fun furthest tee₂ kept₂ => ?_)
    (fun _ tee₂ kept₂ => ⟨_, unapplied tee₂ (kept₂.trans kept₁)⟩)
  have sameLog : LogSource.SameLog source source₂ :=
    ⟨same₂.1.trans same₁.1, same₂.2.trans same₁.2⟩
  -- Wherever the tee resumes, the loop seeks to the low watermark.
  have seeks : ∀ tee₃ : TeeSink (K ⊕ NoDestinationSink), tee₃.cache = tee.cache →
      wp (Source.seek source.lowWatermark : Program SourceError LogSource Unit)
        (fun _ source' => source.lowWatermark = source.lowWatermark
          ∧ Caching start source source.lowWatermark
            (⟨source', tee₃, notifier⟩ : Mirror LogSource (TeeSink (K ⊕ NoDestinationSink)) N))
        (fun _ source' => Cached start source
          (⟨source', tee₃, notifier⟩ : Mirror LogSource (TeeSink (K ⊕ NoDestinationSink)) N))
        source₂ := by
    intro tee₃ kept₃
    refine wp_mono (LogSource.seek_spec _ source₂) (fun _ source₃ ⟨same₃, position⟩ => ?_)
      (fun _ _ _ => ⟨_, unapplied tee₃ kept₃⟩)
    exact ⟨rfl, ⟨same₃.1.trans sameLog.1, same₃.2.trans sameLog.2⟩, position, Nat.le_refl _,
      unapplied tee₃ kept₃⟩
  split
  · split
    · split
      · refine wp_mono (TeeSink.align_cache source.lowWatermark) (fun _ tee₃ kept₃ => ?_)
          (fun _ tee₃ kept₃ => ⟨_, unapplied tee₃ (kept₃.trans (kept₂.trans kept₁))⟩)
        exact seeks tee₃ (kept₃.trans (kept₂.trans kept₁))
      · exact ⟨_, unapplied tee₂ (kept₂.trans kept₁)⟩
    · have here : sinkStart = source.lowWatermark := by omega
      rw [here]
      exact seeks tee₂ (kept₂.trans kept₁)
  · exact ⟨_, unapplied tee₂ (kept₂.trans kept₁)⟩

end Run

section Moments

/-- What the write lock of one record changes of a cache, before the record is counted. -/
def CacheState.seeRecord (s : CacheState) (mirrorName : String) (record : Record) : CacheState :=
  match s.mirrors.get? mirrorName with
  | none => s
  | some slot =>
    if slot.hasSeen record then s
    else { s with mirrors := s.mirrors.insert mirrorName (slot.see record) }

/-- The cache as a reader finds it, with at most one record put into the data but not yet counted. -/
def CacheBinding.seen (start : CacheBinding) (done : List Record) (pending : Option Record) :
    CacheState :=
  match pending with
  | none => (start.applyAll done).state
  | some record => (start.applyAll done).state.seeRecord start.mirrorName record

/-- A cache that answers what the last write of each key in a log leaves. -/
structure Answers (cache : CacheState) (mirror : String) (records : List Record) : Prop where
  value : ∀ key, ∃ offsets, cache.readValue mirror key
    = some ⟨(lastWritten key records).map fun entry => (entry.value, entry.offset), offsets⟩
  keys : ∃ keys, cache.snapshotKeysFor mirror = some keys ∧ keys.Nodup
    ∧ ∀ key, key ∈ keys ↔ (lastWritten key records).isSome
  values : ∃ keys, cache.snapshotKeysFor mirror = some keys
    ∧ cache.snapshotValuesFor mirror
      = some (keys.filterMap fun key => (lastWritten key records).map (·.value))

/--
A cache that shows some stretch of the retained log and is ready only when it shows enough of it.

A reader may come between any two records, or after a record's data and before its count. What it
is answered is the fold of the records so far. Once the mirror has caught up, those include every
retained record below the watermark, and at every later moment it is caught up still.
-/
def CompleteWhenReady (start : CacheBinding) (bootstrapHwm : Nat) (retained : List Record)
    (cache : Option CacheBinding) : Prop :=
  ∃ applied, applied <+: retained ∧ cache = some (start.applyAll applied)
    ∧ ∀ done pending, done ++ pending.toList <+: applied →
      Answers (start.seen done pending) start.mirrorName (done ++ pending.toList)
      ∧ ((start.seen done pending).hasCaughtUp start.mirrorName = true →
        (∀ r ∈ retained, r.sourceOffset < bootstrapHwm → r ∈ done)
        ∧ ∀ done' pending', done <+: done' → done' ++ pending'.toList <+: applied →
          (start.seen done' pending').hasCaughtUp start.mirrorName = true)

variable {start : CacheBinding} {slot : MirrorSlot} {bootstrapHwm : Nat} {done : List Record}

/-- A mirror whose view was built from a log answers what the log leaves. -/
theorem answers_of_view {cache : CacheState} {mirror : String} {records : List Record}
    (registered : cache.mirrors.get? mirror = some slot)
    (view : slot.data.view = some (records.foldl applyValue [])) :
    Answers cache mirror records := by
  have keys : cache.snapshotKeysFor mirror = some ((records.foldl applyValue []).map (·.1)) := by
    simp [CacheState.snapshotKeysFor, registered, view]
  refine ⟨fun key => ⟨sortedOffsets slot.data.offsets, ?_⟩,
    ⟨_, keys, MirrorSlot.nodup_view records, fun key => ?_⟩, _, keys, ?_⟩
  · simp [CacheState.readValue, registered, view, MirrorSlot.get?_view]
  · rw [← MirrorSlot.get?_view]
    exact IndexMap.mem_keys
  · have values : cache.snapshotValuesFor mirror
        = some ((records.foldl applyValue []).map (·.2.value)) := by
      simp [CacheState.snapshotValuesFor, registered, view]
    -- Every entry of the view is the one its key finds.
    have each : ∀ entry ∈ records.foldl applyValue [],
        (lastWritten entry.1 records).map (·.value) = some entry.2.value := by
      intro entry mem
      rw [← MirrorSlot.get?_view, IndexMap.get?_of_mem (MirrorSlot.nodup_view records) mem]
      rfl
    rw [values, List.filterMap_map]
    congr 1
    rw [← List.filterMap_eq_map]
    exact (List.filterMap_congr each).symm

/-- The slot of the mirror at a moment between two records. -/
theorem applied_at (registered : start.state.mirrors.get? start.mirrorName = some slot)
    (fresh : MirrorSlot.Fresh bootstrapHwm true slot)
    (increasing : done.Pairwise (·.sourceOffset < ·.sourceOffset))
    (inRange : ∀ r ∈ done, r.sourceOffset + 1 < 2 ^ 64) :
    ∃ slot', (start.applyAll done).state.mirrors.get? start.mirrorName = some slot'
      ∧ MirrorSlot.Applied bootstrapHwm true done slot' := by
  refine ⟨_, ?_, MirrorSlot.Applied.foldl start.state.readinessLagTolerance fresh increasing
    inRange⟩
  rw [(start.applyAll_state done).1, CacheState.get?_applyAll, registered]
  rfl

/-- A record that is not counted yet does not change whether the mirror has caught up. -/
theorem hasCaughtUp_seen (pending : Option Record) :
    (start.seen done pending).hasCaughtUp start.mirrorName
      = (start.applyAll done).state.hasCaughtUp start.mirrorName := by
  cases pending with
  | none => rfl
  | some record =>
    simp only [CacheBinding.seen, CacheState.seeRecord]
    cases found : (start.applyAll done).state.mirrors.get? start.mirrorName with
    | none => rfl
    | some slot =>
      simp only
      split
      · rfl
      · simp [CacheState.hasCaughtUp, found, MirrorSlot.see]

/-- A cache that was fed a stretch of the retained log, in order, is complete when it is ready. -/
theorem completeWhenReady_of_applied
    (registered : start.state.mirrors.get? start.mirrorName = some slot)
    (fresh : MirrorSlot.Fresh bootstrapHwm true slot) {retained applied : List Record}
    (increasing : retained.Pairwise (·.sourceOffset < ·.sourceOffset))
    (inRange : ∀ r ∈ retained, r.sourceOffset + 1 < 2 ^ 64) (shown : applied <+: retained) :
    CompleteWhenReady start bootstrapHwm retained (some (start.applyAll applied)) := by
  -- Between any two of its records the mirror's slot is that of the records before.
  have between : ∀ done, done <+: retained →
      ∃ slot', (start.applyAll done).state.mirrors.get? start.mirrorName = some slot'
        ∧ MirrorSlot.Applied bootstrapHwm true done slot' := fun done before =>
    applied_at registered fresh (increasing.sublist before.sublist)
      fun r mem => inRange r (before.subset mem)
  refine ⟨applied, shown, rfl, fun done pending moment => ⟨?_, fun ready => ⟨?_, ?_⟩⟩⟩
  · obtain ⟨slot', found, applied'⟩ := between done
      ((List.prefix_append _ _).trans (moment.trans shown))
    cases pending with
    | none =>
      rw [Option.toList_none, List.append_nil]
      exact answers_of_view found (applied'.view.trans (if_pos rfl))
    | some record =>
      -- The record is above every one before it, so its data is written.
      have above : ∀ r ∈ done, r.sourceOffset < record.sourceOffset := by
        have ordered := increasing.sublist (moment.trans shown).sublist
        rw [List.pairwise_append] at ordered
        exact fun r mem => ordered.2.2 r mem record (by simp)
      have found' : (start.seen done (some record)).mirrors.get? start.mirrorName
          = some (slot'.see record) := by
        simp [CacheBinding.seen, CacheState.seeRecord, found, applied'.hasSeen_eq_false above]
      exact answers_of_view found' ((applied'.see record).1.trans (if_pos rfl))
  · intro r mem below
    have before : done <+: retained := (List.prefix_append _ _).trans (moment.trans shown)
    obtain ⟨slot', found, applied'⟩ := between done before
    rw [hasCaughtUp_seen] at ready
    rcases (hasCaughtUp_iff found applied').mp ready with empty | ⟨last, isLast, reached⟩
    · omega
    · -- A record not applied yet would be above the last one applied.
      obtain ⟨rest, rfl⟩ := before
      rcases List.mem_append.mp mem with here | later
      · exact here
      · rw [List.pairwise_append] at increasing
        have := increasing.2.2 last (List.mem_of_getLast? isLast) r later
        omega
  · intro done' pending' grown moment'
    rw [hasCaughtUp_seen] at ready ⊢
    have before : done <+: retained := (List.prefix_append _ _).trans (moment.trans shown)
    have before' : done' <+: retained := (List.prefix_append _ _).trans (moment'.trans shown)
    obtain ⟨slot', found, applied'⟩ := between done before
    obtain ⟨slot'', found', applied''⟩ := between done' before'
    refine (hasCaughtUp_iff found' applied'').mpr ?_
    rcases (hasCaughtUp_iff found applied').mp ready with empty | ⟨last, isLast, reached⟩
    · exact .inl empty
    · cases isLast' : done'.getLast? with
      | none =>
        obtain rfl := List.getLast?_eq_none_iff.mp isLast'
        obtain rfl := List.prefix_nil.mp grown
        simp at isLast
      | some last' =>
        refine .inr ⟨last', rfl, Nat.le_trans reached (Nat.succ_le_succ ?_)⟩
        -- The earlier last record is still there and no record is above the later one.
        have mem := grown.subset (List.mem_of_getLast? isLast)
        obtain ⟨front, rfl⟩ := List.getLast?_eq_some_iff.mp isLast'
        have ordered := increasing.sublist before'.sublist
        rw [List.pairwise_append] at ordered
        rcases List.mem_append.mp mem with earlier | same
        · exact Nat.le_of_lt (ordered.2.2 last earlier last' (by simp))
        · rw [List.mem_singleton.mp same]

end Moments

/-- A stretch from the same start is a part of one that ends higher. -/
theorem Log.between_prefix (log : Log) {lo mid hi : Nat} (ordered : mid ≤ hi) :
    log.between lo mid <+: log.between lo hi := by
  by_cases start : lo ≤ mid
  · exact ⟨_, Window.between_append log.increasing start ordered⟩
  · have empty : log.between lo mid = [] := Window.between_eq_nil fun _ _ bounds => by omega
    rw [empty]
    exact List.nil_prefix

/-- Every stretch from the low watermark is a part of what the source still has. -/
theorem LogSource.between_prefix_retained (source : LogSource) (reached : Nat) :
    source.log.between source.lowWatermark reached <+: source.retained := by
  by_cases ordered : reached ≤ 2 ^ 63
  · exact source.log.between_prefix ordered
  · -- No record is numbered that high, so the stretch is all there is.
    have same : source.retained = source.log.between source.lowWatermark reached := by
      apply List.filter_congr
      intro r mem
      have := source.log.numbered r mem
      apply decide_eq_decide.mpr
      constructor
      · exact fun bounds => ⟨bounds.1, by omega⟩
      · exact fun bounds => ⟨bounds.1, this⟩
    simp only [same, List.prefix_rfl]

/--
A ready cache is complete and stays ready.

Whatever the destinations are and do, and wherever a run ends, the mirror's view shows a stretch of
the retained log from its first record on. Whenever the mirror has caught up, that stretch holds
every record that was below the watermark at registration.
-/
theorem ready_cache_complete {K N : Type} [Sink K] [Notifier N] {start : CacheBinding}
    {slot : MirrorSlot} {bootstrapHwm : Nat}
    (registered : start.state.mirrors.get? start.mirrorName = some slot)
    (fresh : MirrorSlot.Fresh bootstrapHwm true slot) {source : LogSource}
    {tee : TeeSink (K ⊕ NoDestinationSink)} (cached : tee.cache = some start)
    (fromLow : FromLow source.lowWatermark tee) (notifier : N) (events : List LoopEvent) :
    wp (Mirror.runMirrorWithNotifier events)
      (fun _ m => CompleteWhenReady start bootstrapHwm source.retained m.sink.cache)
      (fun _ m => CompleteWhenReady start bootstrapHwm source.retained m.sink.cache)
      (⟨source, tee, notifier⟩ : Mirror LogSource (TeeSink (K ⊕ NoDestinationSink)) N) := by
  have increasing : source.retained.Pairwise (·.sourceOffset < ·.sourceOffset) :=
    source.log.increasing.sublist List.filter_sublist
  have inRange : ∀ r ∈ source.retained, r.sourceOffset + 1 < 2 ^ 64 := by
    intro r mem
    have := source.log.numbered r (List.mem_filter.mp mem).1
    omega
  have complete : ∀ m : Mirror LogSource (TeeSink (K ⊕ NoDestinationSink)) N,
      Cached start source m →
      CompleteWhenReady start bootstrapHwm source.retained m.sink.cache := by
    rintro m ⟨reached, holds⟩
    rw [holds]
    exact completeWhenReady_of_applied registered fresh increasing inRange
      (source.between_prefix_retained reached)
  simp only [Mirror.runMirrorWithNotifier, wp_bind]
  refine wp_mono (bootstrap_caching cached fromLow notifier) ?_
    (fun _ m failed => complete m failed)
  rintro expected m ⟨-, caching⟩
  exact wp_mono (loop_cached events caching) (fun _ m holds => complete m holds)
    (fun _ m holds => complete m holds)

namespace Sample

/-- A log with a hole, low watermark and first record at one. -/
def trimmed : LogSource where
  log := ⟨[record 1, record 3], by simp [record], by simp [record]⟩
  position := 0
  lowWatermark := 1
  answers _ := ⟨none, false, 4⟩

/-- A mirror registered to serve its values, with four positions below its watermark. -/
def serving : CacheBinding :=
  ⟨(CacheState.new 0).registerMirrorWithTopic "m" 4 none false "t" 0, "m", by decide⟩

/-- A mirror without destinations behind the view. -/
def cacheOnly : TeeSink (NoDestinationSink ⊕ NoDestinationSink) :=
  ⟨[⟨"none", .inr ⟨0⟩, 0⟩], some serving, none⟩

/-- Two polls read both records, and the mirror has caught up. -/
theorem ready_cache_complete_sample :
    wp (Mirror.runMirrorWithNotifier [.poll, .poll])
      (fun _ m => CompleteWhenReady serving 4 trimmed.retained m.sink.cache)
      (fun _ m => CompleteWhenReady serving 4 trimmed.retained m.sink.cache)
      (⟨trimmed, cacheOnly, ⟨⟩⟩ : Mirror LogSource (TeeSink (NoDestinationSink ⊕ NoDestinationSink))
        NoOpNotifier)
    ∧ (after (Mirror.runMirrorWithNotifier [.poll, .poll])
        (⟨trimmed, cacheOnly, ⟨⟩⟩ : Mirror LogSource
          (TeeSink (NoDestinationSink ⊕ NoDestinationSink)) NoOpNotifier)).sink.cache.any
          (·.state.hasCaughtUp "m") = true := by
  obtain ⟨slot, registered, fresh⟩ := CacheState.get?_registerMirrorWithTopic
    (CacheState.new 0) "m" 4 none false "t" 0
  refine ⟨?_, by decide +kernel⟩
  exact @ready_cache_complete NoDestinationSink NoOpNotifier _ _ serving slot 4 registered fresh
    trimmed cacheOnly rfl (.inr ⟨"none", rfl⟩) ⟨⟩ [.poll, .poll]

end Sample

end MirrorV3
