import MirrorV3.Core.FanOut
import MirrorV3.Envelope.Sample
import MirrorV3.Flush.Watching
import MirrorV3.Kafka.Produce

/-! What an observer hears of is durable everywhere, unless a fan-out announces its own record. -/

namespace MirrorV3

open Effect

variable {K : Type} [Sink K] [LawfulSink K] [FlushingSink K] [HoldingSink K] [TriggeredSink K]
  [LawfulFlushing K]

/-- A slot whose destination stands at the head it has. -/
structure InnerSink.Standing (inner : InnerSink K) : Prop where
  owned : LawfulSink.owned inner.sink
  watched : LawfulFlushing.watched inner.sink
  head : inner.head = LawfulSink.position inner.sink

section Slots

variable {inner inner' : InnerSink K} {bound : Nat} {fed : List Record} {added : List NotedCall}

omit [Sink K] [LawfulSink K] [FlushingSink K] [HoldingSink K] [TriggeredSink K]
  [LawfulFlushing K] in
/-- Without a record a slot has been handed what it was handed before. -/
@[simp] theorem fedAfter_none (head : Nat) : fedAfter none head fed = fed := List.append_nil fed

omit [Sink K] [LawfulSink K] [FlushingSink K] [HoldingSink K] [TriggeredSink K]
  [LawfulFlushing K] in
/-- A slot that is due for a record is handed it after what it was handed before. -/
theorem fedAfter_of_le {head : Nat} {record : Record} (due : head ≤ record.sourceOffset) :
    fedAfter (some record) head fed = fed ++ [record] := by
  simp [fedAfter, Option.filter, due]

/-- What a destination tells without a record is what its slot tells. -/
theorem Told.slot (told : Told LawfulFlushing.durable bound fed inner.sink inner'.sink added) :
    SlotTold none fed inner inner' added where
  supports := told.supports
  calls := told.calls
  chained := told.chained
  below _ given := absurd given (by simp)
  idle _ given := absurd given (by simp)
  held := by
    rw [fedAfter_none]
    exact told.held
  grown := told.grown

/-- A slot whose destination goes on without a record goes on where it stood. -/
theorem GoesOn.slot (goesOn : GoesOn LawfulFlushing.durable LawfulFlushing.watched
      LawfulFlushing.backs fed inner.sink inner'.sink added)
    (owned : LawfulSink.owned inner'.sink) (head : inner'.head = LawfulSink.position inner'.sink)
    (same : inner'.head = inner.head) : SlotKept none fed inner inner' added where
  owned := owned
  watched := goesOn.watched
  head := head
  moved := same
  durable := goesOn.durable
  backs := by
    rw [fedAfter_none]
    exact goesOn.backs
  rules := goesOn.rules

/-- A slot that does nothing tells of nothing. -/
theorem SlotTells.same (record : Option Record) : SlotTells record inner inner := by
  -- No call is added, and what is stored is what was.
  intro fed _
  refine ⟨[], ⟨rfl, (List.append_nil _).symm, trivial, ?_, fun _ _ _ => rfl, ?_, ?_⟩⟩
  · exact fun _ _ _ call mem => absurd mem List.not_mem_nil
  · exact fun call mem => absurd mem List.not_mem_nil
  · simp [Content.within_refl]

/-- To ask a slot again where it stands is to let it tell of what it had taken. -/
theorem refreshHead_told (standing : inner.Standing) :
    wp InnerSink.refreshHead (fun _ inner' => SlotKeeps none inner inner')
      (fun _ inner' => SlotTells none inner inner') inner := by
  simp only [InnerSink.refreshHead, wp_bind, wp_focus, wp_get, wp_ensure, wp_set]
  refine wp_mono (wp_and (LawfulSink.nextExpectedOffset_spec inner.sink standing.owned)
    (wp_forall fun fed => wp_forall fun backs =>
      LawfulFlushing.nextExpectedOffset_told fed inner.sink standing.owned standing.watched backs))
    ?_
    ?_
  · rintro next sink ⟨⟨owned, position, answered⟩, told⟩
    split
    · intro fed backs
      obtain ⟨added, told, goesOn⟩ := told fed backs
      exact ⟨added, told.slot, goesOn.slot owned (answered.trans position.symm)
        (answered.trans standing.head.symm)⟩
    · intro fed backs
      obtain ⟨added, told, -⟩ := told fed backs
      exact ⟨added, told.slot⟩
  · rintro _ sink ⟨_, told⟩ fed backs
    obtain ⟨added, told⟩ := told fed backs
    exact ⟨added, told.slot⟩

/-- To ask a slot for its furthest part is to let it tell of what it had taken. -/
theorem furthest_told (standing : inner.Standing) :
    wp InnerSink.furthest (fun _ inner' => SlotKeeps none inner inner')
      (fun _ inner' => SlotTells none inner inner') inner := by
  simp only [InnerSink.furthest, wp_bind, wp_focus, wp_get, wp_pure]
  refine wp_mono (wp_and (LawfulSink.furthestNextOffset_spec inner.sink standing.owned)
    (wp_forall fun fed => wp_forall fun backs =>
      LawfulFlushing.furthestNextOffset_told fed inner.sink standing.owned standing.watched backs))
    ?_
    ?_
  · rintro _ sink ⟨⟨owned, position⟩, told⟩ fed backs
    obtain ⟨added, told, goesOn⟩ := told fed backs
    exact ⟨added, told.slot, goesOn.slot owned (standing.head.trans position.symm) rfl⟩
  · rintro _ sink ⟨_, told⟩ fed backs
    obtain ⟨added, told⟩ := told fed backs
    exact ⟨added, told.slot⟩

/-- A flushed slot has told of what it had taken. -/
theorem flush_told (standing : inner.Standing) :
    wp InnerSink.flush (fun _ inner' => SlotKeeps none inner inner')
      (fun _ inner' => True ∧ SlotTells none inner inner') inner := by
  simp only [InnerSink.flush, wp_bind, wp_focus, wp_get]
  refine wp_mono (wp_forall fun fed => wp_forall fun backs =>
    LawfulFlushing.flush_told fed inner.sink standing.owned standing.watched backs) ?_ ?_
  · rintro _ sink told fed backs
    obtain ⟨owned, position, added, told, goesOn⟩ := told fed backs
    exact ⟨added, told.slot, goesOn.slot owned (standing.head.trans position.symm) rfl⟩
  · rintro _ sink told
    refine ⟨trivial, fun fed backs => ?_⟩
    obtain ⟨added, told⟩ := told fed backs
    exact ⟨added, told.slot⟩

/-- A slot that is handed a record tells of it only if the record trips a trigger. -/
theorem write_told {record : Record} (standing : inner.Standing)
    (numbered : record.sourceOffset < 2 ^ 64) :
    wp (InnerSink.write record)
      (fun _ inner' => SlotTells (some record) inner inner'
        ∧ (record.sourceOffset + 1 < 2 ^ 64 → SlotKeeps (some record) inner inner'))
      (fun _ inner' => True ∧ SlotTells (some record) inner inner') inner := by
  simp only [InnerSink.write, wp_bind, wp_get, wp_ite, wp_focus, wp_modify, wp_pure]
  split
  · rename_i behind
    have position : LawfulSink.position inner.sink ≤ record.sourceOffset := standing.head ▸ behind
    -- Either bound keeps what is told below a record that trips no trigger.
    have slot : ∀ {sink' : K} {head' : Nat} {fed : List Record} {added : List NotedCall},
        Told LawfulFlushing.durable
          (if TriggeredSink.flushesWith record inner.sink then record.sourceOffset + 1
            else record.sourceOffset) (fed ++ [record]) inner.sink sink' added →
        SlotTold (some record) fed inner { inner with sink := sink', head := head' } added := by
      intro sink' head' fed added told
      refine ⟨told.supports, told.calls, told.chained, ?_, ?_, ?_, told.grown⟩
      · intro r given waits call mem
        obtain rfl : record = r := Option.some.inj given
        simpa [waits] using told.below call mem
      · intro r given past
        obtain rfl : record = r := Option.some.inj given
        omega
      · rw [fedAfter_of_le behind]
        exact told.held
    have told := fun fed backs => LawfulFlushing.write_told fed record inner.sink standing.owned
      standing.watched backs position numbered
    by_cases inRange : record.sourceOffset + 1 < 2 ^ 64
    · refine wp_mono (wp_and (LawfulSink.write_spec record inner.sink standing.owned inRange)
        (wp_forall fun fed => wp_forall fun backs => told fed backs)) ?_ ?_
      · rintro _ sink ⟨⟨owned, moved⟩, told⟩
        have next := addOne_eq inRange
        have keeps : SlotKeeps (some record) inner
            { inner with sink, head := addOne record.sourceOffset } := by
          intro fed backs
          obtain ⟨added, told, goesOn⟩ := told fed backs
          have goesOn := goesOn inRange
          refine ⟨added, slot told, owned, goesOn.watched, next.trans moved.symm, ?_,
            goesOn.durable, ?_, goesOn.rules⟩
          · simp [headAfter, behind, next]
          · rw [fedAfter_of_le behind]
            exact goesOn.backs
        exact ⟨keeps.tells, fun _ => keeps⟩
      · rintro _ sink ⟨_, told⟩
        refine ⟨trivial, fun fed backs => ?_⟩
        obtain ⟨added, told⟩ := told fed backs
        exact ⟨added, slot told⟩
    · refine wp_mono (wp_forall fun fed => wp_forall fun backs => told fed backs) ?_ ?_
      · rintro _ sink told
        refine ⟨fun fed backs => ?_, fun small => absurd small inRange⟩
        obtain ⟨added, told, _⟩ := told fed backs
        exact ⟨added, slot told⟩
      · rintro _ sink told
        refine ⟨trivial, fun fed backs => ?_⟩
        obtain ⟨added, told⟩ := told fed backs
        exact ⟨added, slot told⟩
  · rename_i past
    refine ⟨.same _, fun _ fed backs => ?_⟩
    obtain ⟨added, told⟩ := SlotTells.same (some record) fed backs
    have nothing : added = [] := told.idle record rfl (by omega)
    subst nothing
    refine ⟨[], told, standing.owned, standing.watched, standing.head, by simp [headAfter, past], rfl,
      ?_, rfl⟩
    simpa [fedAfter, Option.filter, past] using backs

/-- What aligning makes of a slot that has told of nothing yet. -/
structure SlotAligned (lowWatermark : Nat) (before after : InnerSink K) : Prop where
  told : ∀ fed, LawfulFlushing.backs fed before.sink → SlotTold none fed before after []
    ∧ LawfulFlushing.backs fed after.sink
  owned : LawfulSink.owned after.sink
  watched : LawfulFlushing.watched after.sink
  position : LawfulSink.position after.sink = lowWatermark
  rules : (HoldingSink.Holds after.sink : Content → List Record → Record → Prop)
    = HoldingSink.Holds before.sink
  durable : FlushingSink.supportsFlushObserver after.sink = true →
    LawfulFlushing.durable after.sink = lowWatermark

/-- An aligned slot has told of nothing. -/
theorem SlotAligned.tells {lowWatermark : Nat} (aligned : SlotAligned lowWatermark inner inner') :
    SlotTells none inner inner' :=
  fun fed backs => ⟨[], (aligned.told fed backs).1⟩

/-- An aligned slot stands, and is durable, where the source begins. -/
theorem align_told (standing : inner.Standing) {lowWatermark : Nat}
    (allowed : Sink.allowsCompactedSource inner.sink = true)
    (backs : LawfulFlushing.backs fed inner.sink) :
    wp (InnerSink.align lowWatermark) (fun _ inner' => SlotAligned lowWatermark inner inner')
      (fun _ inner' => True ∧ SlotTells none inner inner') inner := by
  simp only [InnerSink.align, wp_bind, wp_focus, wp_get]
  refine wp_mono (wp_and (LawfulSink.align_spec lowWatermark inner.sink standing.owned allowed)
    (wp_forall fun fed => wp_forall fun backs => LawfulFlushing.align_told fed lowWatermark
      inner.sink standing.owned standing.watched backs allowed)) ?_ ?_
  · rintro _ sink ⟨⟨owned, position⟩, told⟩
    obtain ⟨nothing, watched, -, rules, durable⟩ := told fed backs
    refine ⟨fun fed backs => ?_, owned, watched, position, rules,
      fun supports => durable (nothing.supports.symm.trans supports)⟩
    obtain ⟨told, -, backs, -⟩ := told fed backs
    exact ⟨told.slot, backs⟩
  · rintro _ sink ⟨_, told⟩
    exact ⟨trivial, fun fed backs => ⟨[], (told fed backs).slot⟩⟩

end Slots

section Tees

variable {tee : TeeSink K}

/-- A tee that is asked where it resumes lets its slots tell of what they had taken. -/
theorem nextExpectedOffset_keeps (standing : ∀ inner ∈ tee.inners, inner.Standing) :
    wp (Sink.nextExpectedOffset : Program SinkError (TeeSink K) Nat)
      (fun _ tee' => Keeps none tee.inners tee'.inners)
      (fun _ tee' => Tells none tee.inners tee'.inners) tee := by
  show wp (focus TeeSink.innersPart id _ >>= _) _ _ tee
  simp only [wp_bind, wp_focus, wp_get, wp_pure]
  exact wp_mono (wp_forEach (fun _ _ => True) (fun _ => True) (fun _ _ => .same _)
    (fun _ _ kept => kept.tells) fun inner mem =>
      wp_mono (refreshHead_told (standing inner mem)) (fun _ _ kept => ⟨kept, trivial⟩)
        (fun _ _ told => ⟨trivial, told⟩))
    (fun _ _ kept => kept.1) (fun _ _ told => told.2)

/-- A tee that is asked for its furthest destination lets its slots tell likewise. -/
theorem furthestNextOffset_keeps (standing : ∀ inner ∈ tee.inners, inner.Standing) :
    wp (Sink.furthestNextOffset : Program SinkError (TeeSink K) _)
      (fun _ tee' => Keeps none tee.inners tee'.inners)
      (fun _ tee' => Tells none tee.inners tee'.inners) tee := by
  show wp (focus TeeSink.innersPart id _ >>= _) _ _ tee
  simp only [wp_bind, wp_focus, wp_pure]
  exact wp_mono (wp_forEach (fun _ _ => True) (fun _ => True) (fun _ _ => .same _)
    (fun _ _ kept => kept.tells) fun inner mem =>
      wp_mono (furthest_told (standing inner mem)) (fun _ _ kept => ⟨kept, trivial⟩)
        (fun _ _ told => ⟨trivial, told⟩))
    (fun _ _ kept => kept.1) (fun _ _ told => told.2)

/-- A flushed tee has told of what its slots had taken. -/
theorem flush_keeps (standing : ∀ inner ∈ tee.inners, inner.Standing) :
    wp (Sink.flush : Program SinkError (TeeSink K) Unit)
      (fun _ tee' => Keeps none tee.inners tee'.inners)
      (fun _ tee' => Tells none tee.inners tee'.inners) tee := by
  show wp (focus TeeSink.innersPart id (forAll InnerSink.flush)) _ _ tee
  simp only [wp_focus]
  exact wp_mono (wp_forAll (fun _ => True) (fun _ _ kept => kept.tells)
    fun inner mem => flush_told (standing inner mem)) (fun _ _ kept => kept)
    (fun _ _ told => told.2)

/-- A tee that is handed a record tells of it only where it trips a trigger. -/
theorem write_keeps {record : Record} (standing : ∀ inner ∈ tee.inners, inner.Standing)
    (numbered : record.sourceOffset < 2 ^ 64) :
    wp (Sink.write record : Program SinkError (TeeSink K) Unit)
      (fun _ tee' => Tells (some record) tee.inners tee'.inners
        ∧ (record.sourceOffset + 1 < 2 ^ 64 → Keeps (some record) tee.inners tee'.inners))
      (fun _ tee' => Tells (some record) tee.inners tee'.inners) tee := by
  show wp (modify (TeeSink.applyToCache record) >>= _) _ _ tee
  simp only [wp_bind, wp_modify, wp_focus]
  refine wp_mono (wp_forAll (fun _ => True) (fun _ _ wrote => wrote.1)
    fun inner mem => write_told (standing inner mem) numbered) (fun _ inners wrote => ?_)
    (fun _ _ told => told.2)
  exact ⟨wrote.imp fun _ _ wrote => wrote.1,
    fun inRange => wrote.imp fun _ _ wrote => wrote.2 inRange⟩

/-- An aligned tee has all its slots where the source begins. -/
theorem align_slots {lowWatermark : Nat} (standing : ∀ inner ∈ tee.inners, inner.Standing)
    (backs : ∀ inner ∈ tee.inners, ∃ fed, LawfulFlushing.backs fed inner.sink)
    (allowed : Sink.allowsCompactedSource tee = true) :
    wp (Sink.alignToSourceLowWatermark lowWatermark : Program SinkError (TeeSink K) Unit)
      (fun _ tee' => List.Forall₂ (fun slot slot' => SlotAligned lowWatermark slot slot'
        ∧ slot'.head = lowWatermark) tee.inners tee'.inners)
      (fun _ tee' => Tells none tee.inners tee'.inners) tee := by
  have each : ∀ inner ∈ tee.inners, Sink.allowsCompactedSource inner.sink = true :=
    List.all_eq_true.mp allowed
  show wp (focus TeeSink.innersPart id _ >>= _) _ _ tee
  simp only [wp_bind, wp_focus, wp_modify]
  refine wp_mono (wp_forAll (fun _ => True)
    (fun slot slot' (aligned : SlotAligned lowWatermark slot slot') => aligned.tells)
    fun inner mem => ?_) (fun _ inners aligned => ?_) (fun _ _ told => told.2)
  · obtain ⟨fed, backs⟩ := backs inner mem
    exact align_told (standing inner mem) (each inner mem) backs
  · refine List.forall₂_map_right_iff.mpr (aligned.imp fun slot slot' moved => ?_)
    refine ⟨⟨fun fed backs => ?_, moved.owned, moved.watched, moved.position, moved.rules,
      moved.durable⟩, rfl⟩
    obtain ⟨told, backs⟩ := moved.told fed backs
    exact ⟨⟨told.supports, told.calls, told.chained, told.below, told.idle, told.held, told.grown⟩,
      backs⟩

end Tees

section Start

variable {opened : TeeSink K} {base : Nat → Nat} {w : WatchedTee K} {tee : TeeSink K}

/-- Every slot of a watched tee stands where it is in step with the loop. -/
theorem Watching.standing {expected : Nat} (holds : Watching opened base expected w) :
    ∀ inner ∈ w.tee.inners, inner.Standing := by
  intro inner mem
  obtain ⟨i, here⟩ := List.mem_iff_getElem?.mp mem
  obtain ⟨first, -, telling⟩ := holds.slot here
  exact ⟨telling.owned, telling.watched, telling.head⟩

/-- Every slot of a watched tee backs what it was handed. -/
theorem Watching.backs {expected : Nat} (holds : Watching opened base expected w) :
    ∀ inner ∈ w.tee.inners, ∃ fed, LawfulFlushing.backs fed inner.sink := by
  intro inner mem
  obtain ⟨i, here⟩ := List.mem_iff_getElem?.mp mem
  obtain ⟨first, -, telling⟩ := holds.slot here
  exact ⟨_, telling.backs⟩

/-- Before the first record nothing was delivered. -/
theorem Watching.undelivered (holds : Watching opened base 0 w) : delivered w.acts = [] :=
  List.eq_nil_iff_forall_not_mem.mpr fun r given =>
    absurd (holds.passed r given) (Nat.not_lt_zero _)

/-- Before the first record a watched tee is in step with whatever offset comes first. -/
theorem Watching.of_start (holds : Watching opened base 0 w) (expected : Nat) :
    Watching opened base expected w where
  length := holds.length
  slots i first inner open_ here := by
    have telling := holds.slots i first inner open_ here
    have based := telling.based
    have synced := telling.synced
    exact ⟨telling.owned, telling.watched, telling.head, based, by omega,
      telling.since.imp_right fun ⟨low, passed⟩ => ⟨by omega, passed⟩, telling.rules, telling.calls,
      telling.durable, telling.backs, telling.held, telling.grown, telling.stored⟩
  capable := holds.capable
  chained := holds.chained
  quiet := holds.quiet
  passed r given := absurd (holds.passed r given) (Nat.not_lt_zero _)
  truth := holds.truth

/-- Before the first record no destination has anything to tell of. -/
theorem Watching.untold (holds : Watching opened base 0 w) (i : Nat) : toldBy i w.acts = [] := by
  by_cases capable : i ∈ opened.supporting
  · have inside : i < w.tee.inners.length := holds.length ▸ lt_of_mem_supporting capable
    have here := List.getElem?_eq_getElem inside
    obtain ⟨first, -, telling⟩ := holds.slot here
    have supports := (holds.capable i _ here).mp capable
    refine List.eq_nil_iff_forall_not_mem.mpr fun range mem => ?_
    have below := telling.told_lt supports (holds.chained i) range mem
    have above := Ranges.le_of_mem (holds.chained i) mem
    have synced := telling.synced
    have based := telling.based
    omega
  · exact holds.quiet i capable

/-- Aligned before the first record, a watched tee is in step from where the source begins. -/
theorem Watching.rebase {lowWatermark : Nat} (holds : Watching opened base 0 w)
    (aligned : List.Forall₂ (fun slot slot' => SlotAligned lowWatermark slot slot'
      ∧ slot'.head = lowWatermark) w.tee.inners tee.inners) :
    Watching opened (fun _ => lowWatermark) lowWatermark (w.watch none tee) := by
  -- Aligning delivers nothing and makes no inner sink tell of anything.
  have tells : Tells none w.tee.inners tee.inners :=
    aligned.imp fun _ _ moved => moved.1.tells
  have undelivered : delivered (w.watch none tee).acts = [] := by
    rw [delivered_watch, holds.undelivered]
    rfl
  have unfed : ∀ base, deliveredFrom base (w.watch none tee).acts = [] := by
    intro base
    rw [deliveredFrom, undelivered]
    rfl
  have untold : ∀ i, toldBy i (w.watch none tee).acts = [] := by
    intro i
    rw [toldBy_watch, holds.untold i]
    by_cases capable : i ∈ opened.supporting
    · have inside : i < w.tee.inners.length := holds.length ▸ lt_of_mem_supporting capable
      have here := List.getElem?_eq_getElem inside
      obtain ⟨first, -, telling⟩ := holds.slot here
      obtain ⟨slot', there, moved, -⟩ := getElem?_of_forall₂ aligned here
      have told := (moved.told _ telling.backs).1
      exact List.prefix_nil.mp (toldBy_isPrefix List.prefix_rfl here there told.calls)
    · exact (holds.toldBy_moment tells List.prefix_rfl i).2 capable
  refine ⟨?_, ?_, ?_, ?_, ?_, ?_, holds.watch_truth (by simp) tells⟩
  · exact aligned.length_eq.symm.trans holds.length
  · intro i first slot' open_ there
    obtain ⟨slot, here, moved, head⟩ := getElem?_of_forall₂ aligned.flip there
    have telling := holds.slots i first slot open_ here
    obtain ⟨told, -⟩ := moved.told _ telling.backs
    -- What a slot backs is what it backed before, as nothing had been delivered to it.
    have before : deliveredFrom (base i) w.acts = [] := by
      rw [deliveredFrom, holds.undelivered]
      rfl
    have backs := (moved.told _ telling.backs).2
    rw [before] at backs
    refine ⟨moved.owned, moved.watched, head.trans moved.position.symm, Nat.le_of_eq head.symm,
      .inl head, .inr ⟨Nat.le_refl _, ?_⟩, moved.rules.trans telling.rules, ?_, ?_, ?_, ?_,
      telling.grown_watch here there told, ?_⟩
    · rw [undelivered]
      exact fun _ none => absurd none List.not_mem_nil
    · have calls : callsBy i (w.watch none tee).acts = callsBy i w.acts ++ [] :=
        (of_watch here there told.calls).1
      rw [told.calls, telling.calls, calls]
    · intro supports
      rw [moved.durable supports, untold i]
      rfl
    · rw [unfed]
      exact backs
    · rw [unfed]
      exact fun _ _ _ none => absurd none List.not_mem_nil
    · rw [unfed]
      exact fun _ _ none => absurd none List.not_mem_nil
  · intro i slot' there
    obtain ⟨slot, here, moved, -⟩ := getElem?_of_forall₂ aligned.flip there
    obtain ⟨first, -, telling⟩ := holds.slot here
    rw [holds.capable i slot here, (moved.told _ telling.backs).1.supports]
  · intro i
    rw [untold i]
    trivial
  · exact fun i _ => untold i
  · rw [undelivered]
    exact fun _ none => absurd none List.not_mem_nil

end Start

/-- A source whose records are numbered with 64-bit offsets. -/
class NumberedSource (S : Type) [Source S] : Prop where
  pollOne_numbered : ∀ s : S, wp (Source.pollOne : Program SourceError S _)
    (fun polled _ => ∀ r ∈ polled, r.sourceOffset < 2 ^ 64) (fun _ _ => True) s

instance : NumberedSource LogSource where
  pollOne_numbered s := by
    -- What is polled is a record of the log, which a broker numbered.
    refine wp_mono (LogSource.pollOne_spec s) (fun polled _ ⟨_, outcome⟩ r given => ?_)
      (fun _ _ _ => trivial)
    obtain rfl := Option.mem_def.mp given
    have listed := (Log.of_next outcome.1).1
    exact Nat.lt_trans (s.log.numbered r listed) (by decide)

section Run

variable {S N : Type} [Source S] [Notifier N] {opened : TeeSink K} {base : Nat → Nat}
  {expected : Nat} {m : Mirror S (WatchedTee K) N}

omit [Source S] [Notifier N] in
/-- To ask a watched tee where it resumes leaves it in step. -/
theorem nextExpectedOffset_watching {w : WatchedTee K} (holds : Watching opened base expected w) :
    wp (Sink.nextExpectedOffset : Program SinkError (WatchedTee K) Nat)
      (fun _ w' => Watching opened base expected w') (fun _ w' => StillTrue opened w') w := by
  show wp (WatchedTee.watching none _) _ _ w
  rw [WatchedTee.wp_watching]
  exact wp_mono (nextExpectedOffset_keeps holds.standing) (fun _ _ keeps => holds.watch (by simp) keeps)
    (fun _ _ tells => holds.watch_truth (by simp) tells)

omit [Source S] in
/-- A delivered record that the loop can go on from leaves the tee in step one past it. -/
theorem deliver_watching {record : Record} (holds : Watching opened base expected m.sink)
    (numbered : record.sourceOffset < 2 ^ 64) :
    wp (Mirror.deliver expected record) (fun next m' => Watching opened base next m'.sink)
      (fun _ m' => StillTrue opened m'.sink) m := by
  simp only [Mirror.deliver, Mirror.onSink, Mirror.onNotifier, wp_bind, wp_get, wp_focus,
    wp_ensure, wp_pure]
  split
  · rename_i above
    have next : headAfter (some record) expected = record.sourceOffset + 1 := if_pos above
    split
    · show wp (WatchedTee.watching (some record) (Sink.write record)) _ _ m.sink
      rw [WatchedTee.wp_watching]
      refine wp_mono (write_keeps holds.standing numbered) ?_
        (fun _ tee tells => holds.watch_truth (by simpa using above) tells)
      rintro _ tee ⟨tells, keeps⟩
      split
      · rename_i inRange
        have kept := holds.watch (by simpa using above) (keeps inRange)
        rw [next] at kept
        exact wp_any (fun _ _ => kept) (fun _ _ => kept.truth)
      · exact holds.watch_truth (by simpa using above) tells
    · exact holds.truth
  · exact holds.truth

/-- One poll leaves the tee in step, whether or not it delivers a record. -/
theorem poll_watching [NumberedSource S] (holds : Watching opened base expected m.sink) :
    wp (Mirror.poll expected) (fun next m' => Watching opened base next m'.sink)
      (fun _ m' => StillTrue opened m'.sink) m := by
  simp only [Mirror.poll, Mirror.onSource, wp_bind, wp_focus]
  refine wp_mono (NumberedSource.pollOne_numbered m.source) (fun polled source numbered => ?_)
    (fun _ _ _ => holds.truth)
  cases polled with
  | none =>
    simp only [Mirror.verifyIdle, Mirror.onSink, wp_bind, wp_focus, wp_ensure, wp_pure]
    refine wp_mono (nextExpectedOffset_watching holds) (fun _ w kept => ?_) (fun _ _ told => told)
    split
    · exact kept
    · exact kept.truth
  | some record => exact deliver_watching holds (numbered record rfl)

omit [Source S] in
/-- What a graceful stop makes durable is told of no sooner than it is. -/
theorem stop_watching (holds : Watching opened base expected m.sink) :
    wp Mirror.stop (fun _ m' => StillTrue opened m'.sink) (fun _ m' => StillTrue opened m'.sink)
      m := by
  simp only [Mirror.stop, Mirror.onSink, Mirror.onNotifier, wp_bind, wp_focus]
  show wp (WatchedTee.watching none Sink.flush) _ _ m.sink
  rw [WatchedTee.wp_watching]
  refine wp_mono (flush_keeps holds.standing) (fun _ tee keeps => ?_)
    (fun _ tee tells => holds.watch_truth (by simp) tells)
  have flushed := (holds.watch (by simp) keeps).truth
  exact wp_any (fun _ _ => flushed) (fun _ _ => flushed)

omit [Notifier N] in
/-- The startup checks leave a tee in step from where it was opened or aligned. -/
theorem bootstrap_watching (holds : Watching opened base 0 m.sink) :
    wp Mirror.bootstrap (fun expected m' => ∃ base, Watching opened base expected m'.sink)
      (fun _ m' => StillTrue opened m'.sink) m := by
  simp only [Mirror.bootstrap, Mirror.onSink, Mirror.onSource, wp_bind, wp_focus, wp_ensure, wp_get,
    wp_ite, wp_pure]
  refine wp_mono (nextExpectedOffset_watching holds) (fun next w₁ asked => ?_)
    (fun _ _ told => told)
  refine wp_any (fun low source₁ => ?_) (fun _ _ => asked.truth)
  refine wp_any (fun high source₂ => ?_) (fun _ _ => asked.truth)
  show wp (WatchedTee.watching none _) _ _ w₁
  rw [WatchedTee.wp_watching]
  refine wp_mono (furthestNextOffset_keeps asked.standing) (fun furthest tee keeps => ?_)
    (fun _ tee tells => asked.watch_truth (by simp) tells)
  have started : Watching opened base 0 (w₁.watch none tee) := asked.watch (by simp) keeps
  split
  · split
    · split
      · rename_i allowed
        show wp (WatchedTee.watching none _) _ _ _
        rw [WatchedTee.wp_watching]
        refine wp_mono (align_slots started.standing started.backs allowed) (fun _ tee aligned => ?_)
          (fun _ tee tells => started.watch_truth (by simp) tells)
        -- Nothing was told of before, so everything counts from where the source begins.
        have rebased := started.rebase aligned
        exact wp_any (fun _ _ => ⟨_, rebased⟩) (fun _ _ => rebased.truth)
      · exact started.truth
    · exact wp_any (fun _ _ => ⟨base, started.of_start next⟩) (fun _ _ => started.truth)
  · exact started.truth

/-- In a whole run the observer is told of nothing that a destination does not durably have. -/
theorem run_stillTrue [NumberedSource S] (events : List LoopEvent)
    (holds : Watching opened base 0 m.sink) :
    StillTrue opened (after (Mirror.runMirrorWithNotifier events) m).sink := by
  refine after_of_wp (fun m' : Mirror S (WatchedTee K) N => StillTrue opened m'.sink) ?_
  simp only [Mirror.runMirrorWithNotifier, wp_bind]
  refine wp_mono (bootstrap_watching holds) ?_ (fun _ _ told => told)
  rintro expected m₁ ⟨base, started⟩
  have run := Mirror.loop_rule
    (fun expected (m : Mirror S (WatchedTee K) N) (kept : Watching opened base expected m.sink) =>
      poll_watching kept)
    (fun _ _ kept => kept) (fun _ _ kept => stop_watching kept) events expected m₁ started
  refine wp_mono run (fun progress m' left => ?_) (fun _ _ left => left)
  cases progress with
  | running expected => exact left.truth
  | finished => exact left

end Run

section Opening

variable {cache : Option CacheBinding} {sinks : List (String × K)} {tee : TeeSink K}
  {left : List (InnerSink K)}

/-- A slot as it is when its tee was just opened. -/
structure InnerSink.Opened (inner : InnerSink K) : Prop where
  owned : LawfulSink.owned inner.sink
  fresh : LawfulFlushing.fresh inner.sink
  head : inner.head = LawfulSink.position inner.sink

/-- A tee opens with its slots where their destinations stand. -/
theorem openTee_opened
    (ready : ∀ sink ∈ sinks, LawfulSink.owned sink.2 ∧ LawfulFlushing.fresh sink.2) :
    wp (TeeSink.openTee cache) (fun tee _ => ∀ inner ∈ tee.inners, inner.Opened) (fun _ _ => True)
      (TeeSink.slots sinks) := by
  simp only [TeeSink.openTee, wp_bind, wp_get, wp_ensure, wp_pure]
  split
  · -- Each slot takes the position that its sink answers with for its head.
    have each : ∀ inner ∈ TeeSink.slots sinks, wp InnerSink.queryHead
        (fun _ inner' => inner'.Opened ∧ True) (fun _ _ => True ∧ True) inner := by
      intro inner mem
      obtain ⟨⟨name, sink⟩, listed, rfl⟩ := List.mem_map.mp mem
      obtain ⟨owned, fresh⟩ := ready _ listed
      simp only [InnerSink.queryHead, wp_bind, wp_focus, wp_modify]
      refine wp_mono (wp_and (LawfulSink.nextExpectedOffset_spec sink owned)
        (LawfulFlushing.fresh_spec sink fresh))
        ?_
        (fun _ _ _ => ⟨trivial, trivial⟩)
      rintro head sink' ⟨⟨owned, position, answered⟩, fresh⟩
      exact ⟨⟨owned, fresh, answered.trans position.symm⟩, trivial⟩
    have asked := @wp_forEach _ _ _ _ InnerSink.queryHead (fun _ inner' => inner'.Opened)
      (fun _ _ => True) (fun _ _ => True) (fun _ => True) (fun _ _ => trivial)
      (fun _ _ _ => trivial) each
    refine wp_mono asked ?_ (fun _ _ _ => trivial)
    rintro _ inners ⟨opened, _⟩
    exact forall_mem_of_forall₂ opened fun _ _ opened => opened
  · trivial

/-- What handing an observer on makes of a slot that was just opened. -/
structure InnerSink.Installed (before after : InnerSink K) : Prop where
  standing : after.Standing
  head : after.head = before.head
  calls : HoldingSink.calls after.sink = []
  backs : LawfulFlushing.backs [] after.sink
  rules : (HoldingSink.Holds after.sink : Content → List Record → Record → Prop)
    = HoldingSink.Holds before.sink
  supports : FlushingSink.supportsFlushObserver after.sink
    = FlushingSink.supportsFlushObserver before.sink
  durable : FlushingSink.supportsFlushObserver before.sink = true →
    LawfulFlushing.durable after.sink = after.head

/-- A slot that was just opened has told its observer of nothing. -/
theorem setFlushObserver_installed (opened : ∀ inner ∈ tee.inners, inner.Opened) {i : Nat}
    {inner' : InnerSink K} (there : tee.setFlushObserver.inners[i]? = some inner') :
    ∃ inner, tee.inners[i]? = some inner ∧ inner.Installed inner' := by
  simp only [TeeSink.setFlushObserver, List.getElem?_map, Option.map_eq_some_iff] at there
  obtain ⟨inner, here, rfl⟩ := there
  have opening := opened inner (List.mem_of_getElem? here)
  have spec := LawfulFlushing.install_spec inner.sink opening.owned opening.fresh
  refine ⟨inner, here, ?_⟩
  split at spec
  · rename_i supports
    obtain ⟨owned, watched, position, calls, backs, rules, same, durable⟩ := spec
    simp only [supports, if_true]
    exact ⟨⟨owned, watched, opening.head.trans position.symm⟩, rfl, calls, backs, rules, same,
      fun _ => (durable supports).trans opening.head.symm⟩
  · rename_i silent
    obtain ⟨owned, watched, position, calls, backs, rules, same, durable⟩ := spec
    rw [if_neg silent]
    exact ⟨⟨owned, watched, opening.head⟩, rfl, calls, backs, rfl, rfl,
      fun supports => absurd supports silent⟩

/-- A tee that was just opened, and given an observer, is in step with the loop. -/
theorem watching_setFlushObserver (opened : ∀ inner ∈ tee.inners, inner.Opened)
    (schedules : Stream' (Interleave.Schedule Act.inner)) :
    Watching tee tee.opening 0 ⟨tee.setFlushObserver, [], schedules⟩ := by
  refine ⟨by simp [TeeSink.setFlushObserver], ?_, ?_, fun _ => trivial, fun _ _ => rfl, ?_, ?_⟩
  · intro i first inner' open_ there
    obtain ⟨inner, here, installed⟩ := setFlushObserver_installed opened there
    obtain rfl : first = inner := Option.some.inj (open_.symm.trans here)
    have opening : tee.opening i = first.head := by
      simp [TeeSink.opening, here]
    rw [opening]
    refine ⟨installed.standing.owned, installed.standing.watched, installed.standing.head,
      Nat.le_of_eq installed.head.symm, .inl installed.head, .inl rfl, installed.rules,
      installed.calls, fun supports => ?_, installed.backs, ?_, List.pairwise_singleton _ _, ?_⟩
    · exact (installed.durable (installed.supports.symm.trans supports)).trans installed.head
    · exact fun _ none => absurd none List.not_mem_nil
    · exact fun _ _ none => absurd none List.not_mem_nil
  · intro i inner' there
    obtain ⟨inner, here, installed⟩ := setFlushObserver_installed opened there
    rw [mem_supporting here, installed.supports]
  · exact fun _ none => absurd none List.not_mem_nil
  · intro _ before event found moment
    exact absurd (List.prefix_nil.mp moment) (by simp)

end Opening

omit [Sink K] [LawfulSink K] [FlushingSink K] [HoldingSink K] [TriggeredSink K]
  [LawfulFlushing K] in
/-- A tee that opens has the slots that its queries left. -/
theorem openTee_eq [Sink K] {cache : Option CacheBinding} {slots : List (InnerSink K)}
    (opens : (value? (TeeSink.openTee cache slots)).isSome) :
    TeeSink.openTee cache slots = .ok ⟨after (TeeSink.openTee cache) slots, cache, none⟩
      (after (TeeSink.openTee cache) slots) := by
  obtain ⟨tee, returned⟩ := Option.isSome_iff_exists.mp opens
  have ok := eq_ok_of_value? returned
  have shape : wp (TeeSink.openTee cache) (fun tee left => tee = ⟨left, cache, none⟩)
      (fun _ _ => True) slots := by
    simp only [TeeSink.openTee, wp_bind, wp_get, wp_ensure, wp_pure]
    split
    · exact wp_any (fun _ _ => trivial) (fun _ _ => trivial)
    · trivial
  have whole := wp_of_ok shape ok
  rw [ok, whole]

/-- The observer of a tee of any destinations that keep their laws is told the truth. -/
theorem tellsTruth_of_harmless {S N : Type} [Source S] [NumberedSource S] [Notifier N] (source : S)
    (notifier : N) {sinks : List (String × K)}
    (ready : ∀ sink ∈ sinks, LawfulSink.owned sink.2 ∧ LawfulFlushing.fresh sink.2)
    {cache : Option CacheBinding} {tee : TeeSink K} {left : List (InnerSink K)}
    (opened : TeeSink.openTee cache (TeeSink.slots sinks) = .ok tee left) (floor : Option Nat)
    (schedules : Stream' (Interleave.Schedule Act.inner)) (events : List LoopEvent) :
    let tee := tee.withFloor floor
    let watched : WatchedTee K := ⟨tee.setFlushObserver, [], schedules⟩
    let started : Mirror S (WatchedTee K) N := ⟨source, watched, notifier⟩
    let acts := (after (Mirror.runMirrorWithNotifier events) started).sink.acts
    Harmless acts → TellsTruth tee acts := by
  intro floored watched started acts
  have inners : floored.inners = tee.inners := by
    cases floor <;> rfl
  have slots := wp_of_ok (openTee_opened ready) opened
  exact run_stillTrue events (m := started)
    (watching_setFlushObserver (fun inner mem => slots inner (inners ▸ mem)) schedules)

/--
A destination as a mirror opens it, of either kind.

What a compacting blob destination read back from its newest snapshot has 64-bit offsets.
-/
def JustOpened [EnvelopeLibraries] {σ β : Type} [BlobStore σ] : BlobSink σ ⊕ KafkaSink β → Prop
  | .inl blob => (∀ view ∈ blob.view, ∀ r ∈ view.values, r.sourceOffset < 2 ^ 64)
    ∧ ∃ store spec chain snapshot clocks,
        BlobSink.new store spec chain snapshot clocks = .ok blob
  | .inr kafka => kafka.producer = producerConfig kafka.config.bootstrapServers

namespace Sample

/-- A blob destination that flushes after some records, and a Kafka destination whose broker fails. -/
def blobAndKafka (every failsAt : Nat) : List (String × (BlobSink ObjectStore ⊕ KafkaSink Partition)) :=
  [("blob", .inl { blobAt none 0 with
      spec := { (blobAt none 0).spec with flush := ⟨1000, 1000, every, none⟩ }
      checked := rfl }),
    ("kafka", .inr ⟨⟨[], fun n => ⟨if n = failsAt then some "down" else none, false, false⟩⟩,
      producerConfig "broker:9092", watermarkConfig "broker:9092", kafka, none⟩)]

/-- The tee that opens over them. -/
def mixedTee (every failsAt : Nat) : TeeSink (BlobSink ObjectStore ⊕ KafkaSink Partition) :=
  ⟨after (TeeSink.openTee none) (TeeSink.slots (blobAndKafka every failsAt)), none, none⟩

/-- A source of one record. -/
def oneRecord : LogSource :=
  ⟨⟨[record 0], by simp, by simp [record]⟩, 0, 0, fun _ => ⟨none, false, 1⟩⟩

/-- What happens in a run to a tee that is given these events. -/
def actsOf (tee : TeeSink (BlobSink ObjectStore ⊕ KafkaSink Partition)) (events : List LoopEvent) :
    List Act :=
  let watched : WatchedTee (BlobSink ObjectStore ⊕ KafkaSink Partition) :=
    ⟨tee.setFlushObserver, [], fun _ => Interleave.inOrder⟩
  let started : Mirror LogSource _ NoOpNotifier := ⟨oneRecord, watched, ⟨⟩⟩
  (after (Mirror.runMirrorWithNotifier events) started).sink.acts

/-- The object in which the blob destination has the record of the source. -/
def oneObject : BlobObject :=
  (blobFilename 0 0 none "ndjson", line 0 ++ [Ndjson.newline])

/-- What a blob destination that just put its object calls its observer with. -/
def oneFlush : Act := .flushed ⟨0, 0, 0⟩ (.objects [oneObject])

/-- The tee opens over its destinations, which are new. -/
theorem openTee_mixedTee (every failsAt : Nat)
    (opens : (value? (TeeSink.openTee none (TeeSink.slots (blobAndKafka every failsAt)))).isSome) :
    (∀ sink ∈ blobAndKafka every failsAt, JustOpened sink.2)
      ∧ TeeSink.openTee none (TeeSink.slots (blobAndKafka every failsAt))
        = .ok (mixedTee every failsAt) (mixedTee every failsAt).inners := by
  refine ⟨fun sink mem => ?_, openTee_eq opens⟩
  rcases List.mem_cons.mp mem with rfl | mem
  · exact ⟨by simp [blobAt], ⟨[], fun _ => ⟨none, false⟩⟩,
      { (blobAt none 0).spec with flush := ⟨1000, 1000, every, none⟩ }, ⟨0, none, []⟩, none,
      ⟨fun _ => 0, fun _ => 0⟩, rfl⟩
  · rw [List.mem_singleton.mp mem]
    exact rfl

end Sample

end MirrorV3
