import MirrorV3.Core.FanOut
import MirrorV3.Envelope.Sample
import MirrorV3.Fs.Position
import MirrorV3.Fs.Store
import MirrorV3.Kafka.Position

/-! An idle poll of an undisturbed mirror finds the tee where the loop expects it, at all times. -/

namespace MirrorV3

open Effect

variable {S K N : Type} [Sink K] [LawfulSink K]

/-- Whether a run ended because an idle poll found a destination elsewhere. -/
def Halt.drifted : Halt → Bool
  | .failed (.destinationDrift _ _) => true
  | _ => false

/-- A slot whose head is where its destination stands. -/
structure Standing (inner : InnerSink K) : Prop where
  owned : LawfulSink.owned inner.sink
  head : inner.head = LawfulSink.position inner.sink

/-- A slot that stands where it stood. -/
structure Stands (before after : InnerSink K) : Prop where
  standing : Standing after
  head : after.head = before.head

section Slots

variable {inner : InnerSink K}

/-- Refreshed, a head stays where it is. -/
theorem refreshHead_stands (standing : Standing inner) :
    wp InnerSink.refreshHead (fun _ inner' => Stands inner inner' ∧ True)
      (fun _ _ => True ∧ True) inner := by
  simp only [InnerSink.refreshHead, wp_bind, wp_focus, wp_get, wp_ensure, wp_set]
  refine wp_mono (LawfulSink.nextExpectedOffset_spec inner.sink standing.owned)
    ?_ (fun _ _ _ => ⟨trivial, trivial⟩)
  rintro next sink ⟨owned, position, answered⟩
  split
  · exact ⟨⟨⟨owned, answered.trans position.symm⟩, answered.trans standing.head.symm⟩, trivial⟩
  · exact ⟨trivial, trivial⟩

/-- Asked how far it is, a slot stays where it is. -/
theorem furthest_stands (standing : Standing inner) :
    wp InnerSink.furthest (fun _ inner' => Stands inner inner' ∧ True) (fun _ _ => True ∧ True)
      inner := by
  simp only [InnerSink.furthest, wp_bind, wp_focus, wp_get, wp_pure]
  refine wp_mono (LawfulSink.furthestNextOffset_spec inner.sink standing.owned)
    ?_ (fun _ _ _ => ⟨trivial, trivial⟩)
  rintro _ sink ⟨owned, position⟩
  exact ⟨⟨⟨owned, standing.head.trans position.symm⟩, rfl⟩, trivial⟩

/-- What a write makes of a slot: one that was behind the record stands just past it. -/
structure Moved (record : Record) (before after : InnerSink K) : Prop where
  standing : Standing after
  head : after.head = if before.head ≤ record.sourceOffset then record.sourceOffset + 1
    else before.head

/-- A slot behind the record takes it, and one past the record is left alone. -/
theorem write_moved {record : Record} (standing : Standing inner)
    (inRange : record.sourceOffset + 1 < 2 ^ 64) :
    wp (InnerSink.write record) (fun _ inner' => Moved record inner inner')
      (fun _ _ => True ∧ True) inner := by
  simp only [InnerSink.write, wp_bind, wp_get, wp_ite, wp_focus, wp_modify, wp_pure]
  split
  · rename_i behind
    refine wp_mono (LawfulSink.write_spec record inner.sink standing.owned inRange)
      ?_ (fun _ _ _ => ⟨trivial, trivial⟩)
    rintro _ sink ⟨owned, position⟩
    have next := addOne_eq inRange
    exact ⟨⟨owned, next.trans position.symm⟩, by rw [if_pos behind]; exact next⟩
  · rename_i past
    exact ⟨standing, by rw [if_neg past]⟩

end Slots

/-- A tee whose slots stand where their heads say, and that resumes at the expected offset. -/
structure Resuming (expected : Nat) (tee : TeeSink K) : Prop where
  nonempty : tee.inners ≠ []
  standing : ∀ inner ∈ tee.inners, Standing inner
  position : tee.resumePosition = expected

namespace Resuming

variable {expected : Nat} {tee : TeeSink K}

/-- With every slot where it stood, the tee resumes where it did. -/
theorem stands {inners : List (InnerSink K)} (holds : Resuming expected tee)
    (stood : List.Forall₂ Stands tee.inners inners) : Resuming expected { tee with inners } := by
  have heads : inners.map (·.head) = tee.inners.map (·.head) :=
    map_eq_of_forall₂ stood fun _ _ step => step.head
  refine ⟨fun empty => holds.nonempty ?_, ?_, ?_⟩
  · have none : inners = [] := empty
    rw [none] at stood
    exact List.forall₂_nil_right_iff.mp stood
  · exact forall_mem_of_forall₂ stood fun _ _ step => step.standing
  · rw [← holds.position]
    simp only [TeeSink.resumePosition, TeeSink.minHead, heads]

/-- Asked for its position, a tee answers the expected offset and stays there. -/
theorem nextExpectedOffset (holds : Resuming expected tee) :
    wp (Sink.nextExpectedOffset : Program SinkError (TeeSink K) Nat)
      (fun next tee' => Resuming expected tee' ∧ next = expected) (fun _ _ => True) tee := by
  show wp (focus TeeSink.innersPart id _ >>= _) _ _ tee
  simp only [wp_bind, wp_focus, wp_get, wp_pure]
  refine wp_mono (wp_forEach (fun _ _ => True) (fun _ => True) (fun _ _ => trivial)
    (fun _ _ _ => trivial) fun inner mem => refreshHead_stands (holds.standing inner mem))
    (fun _ inners ⟨stood, _⟩ => ?_) (fun _ _ _ => trivial)
  have kept := holds.stands stood
  exact ⟨kept, kept.position⟩

/-- Asked for its furthest destination, a tee stays where it is. -/
theorem furthestNextOffset (holds : Resuming expected tee) :
    wp (Sink.furthestNextOffset : Program SinkError (TeeSink K) _)
      (fun _ tee' => Resuming expected tee') (fun _ _ => True) tee := by
  show wp (focus TeeSink.innersPart id _ >>= _) _ _ tee
  simp only [wp_bind, wp_focus, wp_pure]
  exact wp_mono (wp_forEach (fun _ _ => True) (fun _ => True) (fun _ _ => trivial)
    (fun _ _ _ => trivial) fun inner mem => furthest_stands (holds.standing inner mem))
    (fun _ _ ⟨stood, _⟩ => holds.stands stood) (fun _ _ _ => trivial)

/-- With every slot behind a record brought just past it, the slowest one is there or above. -/
theorem minHead_of_moved {record : Record} {tee' : TeeSink K} (holds : Resuming expected tee)
    (moved : List.Forall₂ (Moved record) tee.inners tee'.inners) :
    tee'.inners ≠ [] ∧ record.sourceOffset + 1 ≤ tee'.minHead
      ∧ (tee.minHead ≤ record.sourceOffset → tee'.minHead = record.sourceOffset + 1) := by
  have nonempty : tee'.inners ≠ [] := by
    intro none
    rw [none] at moved
    exact holds.nonempty (List.forall₂_nil_right_iff.mp moved)
  have least : record.sourceOffset + 1 ≤ tee'.minHead := by
    obtain ⟨inner', mem', same⟩ := TeeSink.exists_minHead nonempty
    obtain ⟨inner, -, step⟩ := exists_of_forall₂ moved mem'
    have head := step.head
    split at head <;> omega
  refine ⟨nonempty, least, fun behind => ?_⟩
  -- The slot that was the slowest is behind the record, so it is now just past it.
  obtain ⟨inner, mem, slowest⟩ := TeeSink.exists_minHead holds.nonempty
  obtain ⟨inner', mem', step⟩ := exists_after_of_forall₂ moved mem
  have atMost := TeeSink.minHead_le mem'
  have head := step.head
  rw [if_pos (by omega)] at head
  omega

/-- The slots and the cursor moved with a record, the tee resumes just past it. -/
theorem moved {record : Record} {tee' : TeeSink K} (holds : Resuming expected tee)
    (above : expected ≤ record.sourceOffset)
    (moved : List.Forall₂ (Moved record) tee.inners tee'.inners)
    (advanced : tee'.resumeCursor
      = tee.resumeCursor.map fun cursor => max cursor (record.sourceOffset + 1)) :
    Resuming (record.sourceOffset + 1) tee' := by
  obtain ⟨nonempty, least, slowest⟩ := holds.minHead_of_moved moved
  refine ⟨nonempty, forall_mem_of_forall₂ moved fun _ _ step => step.standing, ?_⟩
  have position := holds.position
  cases cursor : tee.resumeCursor with
  | none =>
    -- Without a cursor the expected offset is the slowest head, which the record is not below.
    simp only [TeeSink.resumePosition, cursor] at position
    simp only [TeeSink.resumePosition, advanced, cursor, Option.map_none]
    exact slowest (by omega)
  | some cursor' =>
    simp only [TeeSink.resumePosition, cursor] at position
    simp only [TeeSink.resumePosition, advanced, cursor, Option.map_some]
    by_cases behind : tee.minHead ≤ record.sourceOffset
    · -- The slowest slot is just past the record, and the cursor is not below that.
      have := slowest behind
      omega
    · -- All slots are past the record, so it is the cursor that the loop follows.
      omega

/-- A record at the expected offset or above brings the tee just past it. -/
theorem write {record : Record} (holds : Resuming expected tee)
    (above : expected ≤ record.sourceOffset) (inRange : record.sourceOffset + 1 < 2 ^ 64) :
    wp (Sink.write record : Program SinkError (TeeSink K) Unit)
      (fun _ tee' => Resuming (record.sourceOffset + 1) tee') (fun _ _ => True) tee := by
  show wp (modify (TeeSink.applyToCache record) >>= _) _ _ tee
  simp only [wp_bind, wp_modify, wp_focus]
  refine wp_mono (wp_forAll (fun _ => True) (fun _ _ _ => trivial)
    fun inner mem => write_moved (holds.standing inner mem) inRange)
    (fun _ inners moved => ?_) (fun _ _ _ => trivial)
  refine holds.moved above moved ?_
  rw [← addOne_eq inRange]
  rfl

end Resuming

section Run

variable [Source S] [Notifier N] {expected : Nat} {m : Mirror S (TeeSink K) N}

omit [Source S] in
/-- One delivered record moves the tee just past it, as it moves the loop. -/
theorem deliver_resuming {record : Record} (holds : Resuming expected m.sink) :
    wp (Mirror.deliver expected record) (fun expected m' => Resuming expected m'.sink)
      (fun halt _ => halt.drifted = false) m := by
  simp only [Mirror.deliver, Mirror.onSink, Mirror.onNotifier, wp_bind, wp_get, wp_focus,
    wp_ensure, wp_pure]
  split
  · rename_i above
    split
    · by_cases inRange : record.sourceOffset + 1 < 2 ^ 64
      · simp only [if_pos inRange]
        refine wp_mono (holds.write above inRange) (fun _ tee moved => ?_) (fun _ _ _ => rfl)
        exact wp_any (fun _ _ => moved) (fun _ _ => rfl)
      · -- At the last offset there is, the loop has no next one to expect.
        simp only [if_neg inRange]
        exact wp_any (fun _ _ => rfl) (fun _ _ => rfl)
    · rfl
  · rfl

/-- One poll keeps the loop and the tee in step. -/
theorem poll_resuming (holds : Resuming expected m.sink) :
    wp (Mirror.poll expected) (fun expected m' => Resuming expected m'.sink)
      (fun halt _ => halt.drifted = false) m := by
  simp only [Mirror.poll, Mirror.onSource, wp_bind, wp_focus]
  refine wp_any (fun polled source => ?_) (fun _ _ => rfl)
  cases polled with
  | some record => exact deliver_resuming holds
  | none =>
    simp only [Mirror.verifyIdle, Mirror.onSink, wp_bind, wp_focus, wp_ensure, wp_pure]
    refine wp_mono holds.nextExpectedOffset ?_ (fun _ _ _ => rfl)
    rintro next tee ⟨kept, same⟩
    rw [if_pos same]
    exact kept

/-- However the events go on, no idle poll finds a drift. -/
theorem loop_resuming (events : List LoopEvent) (holds : Resuming expected m.sink) :
    wp (Mirror.loop events expected)
      (fun progress m' => ∀ expected, progress = .running expected → Resuming expected m'.sink)
      (fun halt _ => halt.drifted = false) m := by
  have run := @Mirror.loop_rule S (TeeSink K) N _ _ _
    (fun expected m => Resuming expected m.sink) (fun _ => True) (fun halt _ => halt.drifted = false)
    (fun _ _ kept => poll_resuming kept) (fun _ _ kept => kept) (fun _ m _ => ?_) events expected m
    holds
  · refine wp_mono run (fun progress m' left expected going => ?_) (fun _ _ failed => failed)
    rw [going] at left
    exact left
  · simp only [Mirror.stop, Mirror.onSink, Mirror.onNotifier, wp_bind, wp_focus]
    exact wp_any (fun _ _ => wp_any (fun _ _ => trivial) (fun _ _ => rfl)) (fun _ _ => rfl)

omit [Notifier N] in
/-- A mirror that need not be aligned starts where its tee resumes. -/
theorem bootstrap_resuming (holds : Resuming expected m.sink)
    (aligned : wp (Source.lowWatermark : Program SourceError S Nat)
      (fun low _ => low ≤ m.sink.resumePosition) (fun _ _ => True) m.source) :
    wp Mirror.bootstrap (fun expected m' => Resuming expected m'.sink)
      (fun halt _ => halt.drifted = false) m := by
  simp only [Mirror.bootstrap, Mirror.onSink, Mirror.onSource, wp_bind, wp_focus, wp_ensure,
    wp_get, wp_ite, wp_pure]
  refine wp_mono holds.nextExpectedOffset ?_ (fun _ _ _ => rfl)
  rintro start tee ⟨kept, same⟩
  refine wp_mono aligned (fun low source low_le => ?_) (fun _ _ _ => rfl)
  refine wp_any (fun high source' => ?_) (fun _ _ => rfl)
  refine wp_mono kept.furthestNextOffset (fun furthest tee' kept' => ?_) (fun _ _ _ => rfl)
  split
  · -- The source still has everything from the resume position on.
    rw [holds.position] at low_le
    rw [if_neg (by omega)]
    refine wp_any (fun _ _ => ?_) (fun _ _ => rfl)
    rw [same]
    exact kept'
  · rfl

end Run

/-- A tee opened over destinations of its own has its slots where they stand. -/
theorem openTee_standing {cache : Option CacheBinding} {sinks : List (String × K)}
    (owned : ∀ sink ∈ sinks, LawfulSink.owned sink.2) :
    wp (TeeSink.openTee cache)
      (fun tee _ => tee.inners ≠ [] ∧ ∀ inner ∈ tee.inners, Standing inner) (fun _ _ => True)
      (TeeSink.slots sinks) := by
  simp only [TeeSink.openTee, wp_bind, wp_get, wp_ensure, wp_pure]
  split
  · rename_i nonempty
    have each : ∀ inner ∈ TeeSink.slots sinks, wp InnerSink.queryHead
        (fun _ inner' => Standing inner' ∧ True) (fun _ _ => True ∧ True) inner := by
      intro inner mem
      obtain ⟨⟨name, sink⟩, listed, rfl⟩ := List.mem_map.mp mem
      simp only [InnerSink.queryHead, wp_bind, wp_focus, wp_modify]
      refine wp_mono (LawfulSink.nextExpectedOffset_spec sink (owned _ listed))
        ?_ (fun _ _ _ => ⟨trivial, trivial⟩)
      rintro head sink' ⟨owned', position, answered⟩
      exact ⟨⟨owned', answered.trans position.symm⟩, trivial⟩
    refine wp_mono (wp_forEach (fun _ _ => True) (fun _ => True) (fun _ _ => trivial)
      (fun _ _ _ => trivial) each) ?_ (fun _ _ _ => trivial)
    rintro _ inners ⟨asked, _⟩
    constructor
    · intro none
      have empty : inners = [] := none
      rw [empty] at asked
      exact nonempty (List.forall₂_nil_right_iff.mp asked)
    · exact forall_mem_of_forall₂ asked fun _ _ standing => standing
  · trivial

/--
The idle check has no false alarm.

Whatever a tee is opened over, wherever its destinations stand, whatever floor it is given and
however the source goes on, a run that need not be aligned never ends with a drift, and at every
moment of it the tee answers the offset the loop expects.
-/
theorem idle_check_never_drifts [Source S] [Notifier N] {sinks : List (String × K)}
    (owned : ∀ sink ∈ sinks, LawfulSink.owned sink.2) {cache : Option CacheBinding}
    {tee : TeeSink K} {left : List (InnerSink K)}
    (opened : TeeSink.openTee cache (TeeSink.slots sinks) = .ok tee left) (floor : Option Nat)
    {source : S}
    (aligned : wp (Source.lowWatermark : Program SourceError S Nat)
      (fun low _ => low ≤ (tee.withFloor floor).resumePosition) (fun _ _ => True) source)
    (notifier : N) (events : List LoopEvent) :
    wp (Mirror.runMirrorWithNotifier events)
      (fun progress m => ∀ expected, progress = .running expected →
        wp (Sink.nextExpectedOffset : Program SinkError (TeeSink K) Nat)
          (fun next _ => next = expected) (fun _ _ => True) m.sink)
      (fun halt _ => halt.drifted = false) ⟨source, tee.withFloor floor, notifier⟩ := by
  obtain ⟨nonempty, standing⟩ := wp_of_ok (openTee_standing owned) opened
  have inners : (tee.withFloor floor).inners = tee.inners := by
    cases floor <;> rfl
  have start : Resuming (tee.withFloor floor).resumePosition (tee.withFloor floor) :=
    ⟨inners ▸ nonempty, inners ▸ standing, rfl⟩
  simp only [Mirror.runMirrorWithNotifier, wp_bind]
  refine wp_mono (bootstrap_resuming start aligned) (fun expected m started => ?_)
    (fun _ _ failed => failed)
  refine wp_mono (loop_resuming events started) (fun progress m' kept expected going => ?_)
    (fun _ _ failed => failed)
  exact wp_mono (kept expected going).nextExpectedOffset (fun _ _ answered => answered.2)
    (fun _ _ failed => failed)

namespace Sample

/-- Any of the three kinds of destination. -/
abbrev AnySink : Type := BlobSink ObjectStore ⊕ (KafkaSink Partition ⊕ NoDestinationSink)

/-- A Kafka destination that was produced to up to an offset, with a broker that always answers. -/
def producedUpTo (next : Nat) : KafkaSink Partition :=
  let config : KafkaSinkConfig := ⟨"broker:9092", "copy", 0, .source, .bytes, .bytes⟩
  ⟨⟨(List.range next).map fun offset => config.futureRecord (record offset),
    fun _ => ⟨none, false, false⟩⟩, producerConfig "broker:9092", watermarkConfig "broker:9092",
    config, none⟩

/-- One destination of each kind, none of them where another is. -/
def oneOfEach : List (String × AnySink) :=
  [("blob", .inl (blobAt none 1)), ("kafka", .inr (.inl (producedUpTo 2))),
    ("none", .inr (.inr ⟨3⟩))]

/-- The tee over them. -/
def teeOfEach : TeeSink AnySink :=
  ⟨[⟨"blob", .inl (blobAt none 1), 1⟩, ⟨"kafka", .inr (.inl (producedUpTo 2)), 2⟩,
    ⟨"none", .inr (.inr ⟨3⟩), 3⟩], none, none⟩

/-- A log of four records, on a broker that leaves every third request waiting. -/
def everyThirdIdle : LogSource where
  log := ⟨[record 0, record 1, record 2, record 3], by simp [record], by simp [record]⟩
  position := 0
  lowWatermark := 0
  answers n := ⟨none, n % 3 == 0, 4⟩

/-- The events of a run with idle polls below the heads, between them and past them. -/
def idling : List LoopEvent := List.replicate 7 .poll

/-- Read again from the first record, the tee is where the loop expects it until the end. -/
theorem idle_check_never_drifts_sample :
    wp (Mirror.runMirrorWithNotifier idling)
      (fun progress m => ∀ expected, progress = .running expected →
        wp (Sink.nextExpectedOffset : Program SinkError (TeeSink AnySink) Nat)
          (fun next _ => next = expected) (fun _ _ => True) m.sink)
      (fun halt _ => halt.drifted = false)
      (⟨everyThirdIdle, teeOfEach.withFloor (some 0), {}⟩ :
        Mirror LogSource (TeeSink AnySink) NoOpNotifier)
    ∧ value? (Mirror.runMirrorWithNotifier idling
        (⟨everyThirdIdle, teeOfEach.withFloor (some 0), {}⟩ :
          Mirror LogSource (TeeSink AnySink) NoOpNotifier)) = some (.running 4) := by
  have owned : ∀ sink ∈ oneOfEach, LawfulSink.owned sink.2 := by
    intro sink mem
    simp only [oneOfEach, List.mem_cons, List.not_mem_nil, or_false] at mem
    rcases mem with rfl | rfl | rfl
    · trivial
    · exact producerConfig_noRetries "broker:9092"
    · trivial
  have opened : TeeSink.openTee none (TeeSink.slots oneOfEach) = .ok teeOfEach teeOfEach.inners := by
    rfl
  have aligned : wp (Source.lowWatermark : Program SourceError LogSource Nat)
      (fun low _ => low ≤ (teeOfEach.withFloor (some 0)).resumePosition) (fun _ _ => True)
      everyThirdIdle := by
    refine wp_mono (LogSource.lowWatermark_spec everyThirdIdle) (fun low _ answered => ?_)
      (fun _ _ _ => trivial)
    rw [answered.2]
    exact Nat.zero_le _
  have never := @idle_check_never_drifts LogSource AnySink NoOpNotifier _ _ _ _ oneOfEach owned
    none teeOfEach teeOfEach.inners opened (some 0) everyThirdIdle aligned NoOpNotifier.mk
  refine ⟨?_, by decide +kernel⟩
  -- The events are one name here, so that no run is evaluated to compare it with itself.
  generalize idling = events
  exact never events

end Sample

end MirrorV3
