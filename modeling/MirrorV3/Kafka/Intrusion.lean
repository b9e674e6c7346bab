import Mathlib.Logic.Relation
import MirrorV3.Core.FanOut
import MirrorV3.Kafka.Produce

/-! A tee whose destinations others write to as well: what it notices and what it absorbs. -/

namespace MirrorV3

open Effect

variable {S K N : Type} [Sink K] [LawfulSink K]

/-- One past the last accepted record, or the opening head before the first. -/
def Recorded.own (s : Recorded K) : Nat :=
  (s.accepted.getLast?.map fun record => record.sourceOffset + 1).getD s.opening

/-- The destination reports more than its own records account for. -/
def InnerSink.Raised (inner : InnerSink (Recorded K)) : Prop :=
  inner.sink.own < LawfulSink.position inner.sink.sink

namespace TeeSink

/-- No destination reports more than the head its slot has. -/
def Settled (tee : TeeSink (Recorded K)) : Prop :=
  ∀ inner ∈ tee.inners, LawfulSink.position inner.sink.sink = inner.head

/--
What an idle poll has to find so that it notices a destination that reports more than its head.

Then every slowest destination does, and no resume cursor holds the tee at or below them.
-/
def Noticeable (tee : TeeSink (Recorded K)) : Prop :=
  (∃ inner ∈ tee.inners, inner.head < LawfulSink.position inner.sink.sink) →
    (∀ inner ∈ tee.inners, inner.head = tee.minHead →
      inner.head < LawfulSink.position inner.sink.sink)
    ∧ ∀ cursor, tee.resumeCursor = some cursor → tee.minHead < cursor

end TeeSink

section Runs

variable [Source S] [SharedSink K] [Notifier N]

/-- Another writer appends to the destination of one inner sink. -/
def Intrusion (m m' : Mirror S (TeeSink (Recorded K)) N) : Prop :=
  ∃ before inner after sink, m.sink.inners = before ++ inner :: after
    ∧ SharedSink.foreign inner.sink.sink sink
    ∧ m' = { m with sink := { m.sink with inners :=
        before ++ { inner with sink := { inner.sink with sink } } :: after } }

/--
The states of a run between its events, others writing to the destinations at any moment.

Nothing foreign is reported at startup, and every idle poll finds what it needs to notice it.
-/
inductive Running (opened : Mirror S (TeeSink (Recorded K)) N) :
    Nat → Mirror S (TeeSink (Recorded K)) N → Prop where
  | start {m m' : Mirror S (TeeSink (Recorded K)) N} {expected : Nat}
      (before : Relation.ReflTransGen Intrusion opened m) (settled : m.sink.Settled)
      (resumed : Mirror.bootstrap m = .ok expected m') : Running opened expected m'
  | intrusion {m m' : Mirror S (TeeSink (Recorded K)) N} {expected : Nat}
      (earlier : Running opened expected m) (wrote : Intrusion m m') : Running opened expected m'
  | event {m m' : Mirror S (TeeSink (Recorded K)) N} {expected next : Nat} {event : LoopEvent}
      (earlier : Running opened expected m)
      (idle : event = .poll → ∀ source, Source.pollOne m.source = .ok none source →
        m.sink.Noticeable)
      (served : Mirror.loop [event] expected m = .ok (.running next) m') :
      Running opened next m'

/-- What a foreign write on a destination leads to: a record it needs is never passed by. -/
structure NeverAbsorbed (expected : Nat) (m : Mirror S (TeeSink (Recorded K)) N) : Prop where
  /-- A record the tee takes was written to every destination whose own position is not above. -/
  passed : ∀ record, wp (Sink.write record : Program SinkError (TeeSink (Recorded K)) Unit)
    (fun _ tee => List.Forall₂ (fun inner inner' => inner.sink.own ≤ record.sourceOffset →
      inner'.sink.presented = inner.sink.presented ++ [record]) m.sink.inners tee.inners)
    (fun _ _ => True) m.sink
  /-- The next record for a destination that reports more than its own ends the run. -/
  refused : ∀ record, ∀ inner ∈ m.sink.inners, inner.Raised →
    inner.sink.own ≤ record.sourceOffset →
    wp (Mirror.deliver expected record) (fun _ _ => False) (fun _ _ => True) m
  /-- The next idle poll ends the run. -/
  noticed : m.sink.Noticeable → (∃ inner ∈ m.sink.inners, inner.Raised) →
    wp (Mirror.verifyIdle expected) (fun _ _ => False) (fun _ _ => True) m

/-- One destination of a run: its slot's head is its own position, whatever it reports. -/
structure Held (expected : Nat) (inner : InnerSink (Recorded K)) : Prop where
  owned : LawfulSink.owned inner.sink.sink
  head : inner.head = inner.sink.own
  ahead : expected ≤ inner.head
  reports : inner.head ≤ LawfulSink.position inner.sink.sink
  /-- Only a destination that takes no hole reports what others wrote. -/
  gapless : inner.head < LawfulSink.position inner.sink.sink →
    Sink.allowsOffsetHoles inner.sink.sink = false

/-- A write of another leaves the own position of a destination as it was. -/
theorem Held.foreign {expected : Nat} {inner : InnerSink (Recorded K)} {sink : K}
    (held : Held expected inner) (written : SharedSink.foreign inner.sink.sink sink) :
    Held expected { inner with sink := { inner.sink with sink } } := by
  obtain ⟨owned, grown, holes, unreported⟩ := SharedSink.foreign_spec _ _ held.owned written
  have reports := held.reports
  refine ⟨owned, held.head, held.ahead, Nat.le_trans reports grown, fun raised => ?_⟩
  show Sink.allowsOffsetHoles sink = false
  rw [holes]
  -- A report that rose just now rose on a destination without holes, an earlier one as well.
  by_cases before : inner.head < LawfulSink.position inner.sink.sink
  · exact held.gapless before
  · cases allowed : Sink.allowsOffsetHoles inner.sink.sink with
    | false => rfl
    | true =>
      have same := unreported allowed
      have raised : inner.head < LawfulSink.position sink := raised
      omega

omit [Source S] [Notifier N] in
/-- Whatever others write, every destination of the tee stays held. -/
theorem held_of_intrusion {expected : Nat} {m m' : Mirror S (TeeSink (Recorded K)) N}
    (held : ∀ inner ∈ m.sink.inners, Held expected inner) (wrote : Intrusion m m') :
    ∀ inner ∈ m'.sink.inners, Held expected inner := by
  obtain ⟨before, inner, after, sink, split, written, rfl⟩ := wrote
  rw [split] at held
  intro inner' mem
  rcases List.mem_append.mp mem with early | late
  · exact held inner' (List.mem_append_left _ early)
  · rcases List.mem_cons.mp late with rfl | later
    · exact (held inner (by simp)).foreign written
    · exact held inner' (List.mem_append_right _ (List.mem_cons_of_mem _ later))

omit [Source S] [Notifier N] in
/-- What others write is nothing a destination of this process accepted. -/
theorem unused_of_intrusion {m m' : Mirror S (TeeSink (Recorded K)) N}
    (unused : ∀ inner ∈ m.sink.inners, inner.sink.accepted = []) (wrote : Intrusion m m') :
    ∀ inner ∈ m'.sink.inners, inner.sink.accepted = [] := by
  obtain ⟨before, inner, after, sink, split, _, rfl⟩ := wrote
  rw [split] at unused
  intro inner' mem
  rcases List.mem_append.mp mem with early | late
  · exact unused inner' (List.mem_append_left _ early)
  · rcases List.mem_cons.mp late with rfl | later
    · exact unused inner (by simp)
    · exact unused inner' (List.mem_append_right _ (List.mem_cons_of_mem _ later))

omit [Source S] [Notifier N] [SharedSink K] in
/-- A destination of a tee that was just opened is held before any offset up to its head. -/
theorem Fed.held {inner : InnerSink (Recorded K)} (fed : Fed [] 0 inner) : Held 0 inner := by
  have opening := fed.opening
  have same : inner.head = inner.sink.opening := by
    rcases fed.synced with same | zero
    · exact same
    · omega
  refine ⟨fed.owned, ?_, Nat.zero_le _, Nat.le_of_eq fed.head, fun raised => ?_⟩
  · simpa [Recorded.own, fed.accepted, due] using same
  · have := fed.head
    omega

omit [SharedSink K] in
/-- A refreshed head is what the destination reports. -/
theorem refreshHead_reports {inner : InnerSink (Recorded K)}
    (owned : LawfulSink.owned inner.sink.sink) :
    wp InnerSink.refreshHead
      (fun _ inner' => inner'.head = LawfulSink.position inner.sink.sink
        ∧ LawfulSink.owned inner'.sink.sink
        ∧ LawfulSink.position inner'.sink.sink = LawfulSink.position inner.sink.sink
        ∧ inner'.sink.accepted = inner.sink.accepted ∧ inner'.sink.own = inner.sink.own)
      (fun _ _ => True) inner := by
  have query : (Sink.nextExpectedOffset : Program SinkError (Recorded K) Nat)
      = focus Recorded.part id Sink.nextExpectedOffset := rfl
  simp only [InnerSink.refreshHead, query, wp_bind, wp_focus, wp_get, wp_ensure, wp_set]
  refine wp_mono (LawfulSink.nextExpectedOffset_spec inner.sink.sink owned)
    ?_ (fun _ _ _ => trivial)
  rintro next sink ⟨owned, position, answered⟩
  split
  · exact ⟨answered, owned, position, rfl, rfl⟩
  · trivial

omit [SharedSink K] in
/-- A query moves every head to what its destination reports, and answers no more than any. -/
theorem nextExpectedOffset_reports {tee : TeeSink (Recorded K)}
    (owned : ∀ inner ∈ tee.inners, LawfulSink.owned inner.sink.sink) :
    wp (Sink.nextExpectedOffset : Program SinkError (TeeSink (Recorded K)) Nat)
      (fun next tee' => List.Forall₂ (fun inner inner' =>
          inner'.head = LawfulSink.position inner.sink.sink
            ∧ LawfulSink.owned inner'.sink.sink
            ∧ LawfulSink.position inner'.sink.sink = LawfulSink.position inner.sink.sink
            ∧ inner'.sink.accepted = inner.sink.accepted
            ∧ inner'.sink.own = inner.sink.own) tee.inners tee'.inners
        ∧ tee'.resumeCursor = tee.resumeCursor ∧ next = tee'.resumePosition)
      (fun _ _ => True) tee := by
  show wp (focus TeeSink.innersPart id _ >>= _) _ _ tee
  simp only [wp_bind, wp_focus, wp_get, wp_pure]
  refine wp_mono (wp_forEach (fun _ _ => True) (fun _ => True) (fun _ _ => trivial)
    (fun _ _ _ => trivial) fun inner mem => wp_mono (refreshHead_reports (owned inner mem))
      (fun _ _ reported => ⟨reported, trivial⟩) (fun _ _ _ => ⟨trivial, trivial⟩))
    (fun _ inners reported => ?_) (fun _ _ _ => trivial)
  exact ⟨reported.1, rfl, trivial⟩

omit [Source S] [Notifier N] [SharedSink K] in
/-- On a settled tee a query changes nothing, and answers no more than any head. -/
theorem nextExpectedOffset_settled {expected : Nat} {tee : TeeSink (Recorded K)}
    (held : ∀ inner ∈ tee.inners, Held expected inner) (settled : tee.Settled) :
    wp (Sink.nextExpectedOffset : Program SinkError (TeeSink (Recorded K)) Nat)
      (fun next tee' => List.Forall₂ (fun inner inner' => Held expected inner'
          ∧ LawfulSink.position inner'.sink.sink = inner'.head
          ∧ inner'.sink.accepted = inner.sink.accepted) tee.inners tee'.inners
        ∧ ∀ inner ∈ tee'.inners, next ≤ inner.head)
      (fun _ _ => True) tee := by
  refine wp_mono (nextExpectedOffset_reports fun inner mem => (held inner mem).owned) ?_
    (fun _ _ _ => trivial)
  rintro next tee' ⟨reported, _, answered⟩
  refine ⟨?_, fun inner mem => ?_⟩
  · refine forall₂_of_mem reported ?_
    rintro inner inner' mem ⟨head, owned, position, accepted, own⟩
    have before := held inner mem
    -- What was reported is the head the slot had already.
    have same : inner'.head = inner.head := head.trans (settled inner mem)
    have still : LawfulSink.position inner'.sink.sink = inner'.head := position.trans head.symm
    refine ⟨⟨owned, ?_, same ▸ before.ahead, Nat.le_of_eq still.symm, fun raised => ?_⟩, still,
      accepted⟩
    · rw [same, own]
      exact before.head
    · exact absurd raised (Nat.not_lt.mpr (Nat.le_of_eq still))
  · rw [answered]
    exact TeeSink.resumePosition_le mem

/-- A destination that was asked for nothing yet, and reports where it stands. -/
structure Ready (start : Nat) (inner : InnerSink (Recorded K)) : Prop where
  held : Held start inner
  settled : LawfulSink.position inner.sink.sink = inner.head
  unused : inner.sink.accepted = []

omit [SharedSink K] in
/-- The query for the furthest part leaves a destination ready. -/
theorem furthest_ready {start : Nat} {inner : InnerSink (Recorded K)} (ready : Ready start inner) :
    wp InnerSink.furthest (fun _ inner' => Ready start inner' ∧ True) (fun _ _ => True ∧ True)
      inner := by
  have query : (Sink.furthestNextOffset : Program SinkError (Recorded K) _)
      = focus Recorded.part id Sink.furthestNextOffset := rfl
  simp only [InnerSink.furthest, query, wp_bind, wp_focus, wp_get, wp_pure]
  refine wp_mono (LawfulSink.furthestNextOffset_spec inner.sink.sink ready.held.owned) ?_
    (fun _ _ _ => ⟨trivial, trivial⟩)
  rintro _ sink ⟨owned, position⟩
  refine ⟨?_, trivial⟩
  have still : LawfulSink.position sink = inner.head := position.trans ready.settled
  refine ⟨⟨owned, ready.held.head, ready.held.ahead, Nat.le_of_eq still.symm, fun raised => ?_⟩,
    still, ready.unused⟩
  exact absurd raised (Nat.not_lt.mpr (Nat.le_of_eq still))

omit [SharedSink K] in
/-- Aligned destinations stand where they were aligned to. -/
theorem align_ready {start lowWatermark : Nat} {tee : TeeSink (Recorded K)}
    (ready : ∀ inner ∈ tee.inners, Ready start inner)
    (allowed : Sink.allowsCompactedSource tee = true) :
    wp (Sink.alignToSourceLowWatermark lowWatermark :
        Program SinkError (TeeSink (Recorded K)) Unit)
      (fun _ tee' => ∀ inner ∈ tee'.inners, Ready lowWatermark inner) (fun _ _ => True) tee := by
  show wp (focus TeeSink.innersPart id _ >>= _) _ _ tee
  simp only [wp_bind, wp_focus, wp_modify]
  have allowed : ∀ inner ∈ tee.inners, Sink.allowsCompactedSource inner.sink.sink = true :=
    fun inner mem => List.all_eq_true.mp allowed inner mem
  -- Each destination moves its own position and, with it, where its own part starts.
  have aligns : ∀ inner ∈ tee.inners, wp (InnerSink.align lowWatermark)
      (fun _ inner' => Ready lowWatermark { inner' with head := lowWatermark })
      (fun _ _ => True ∧ True) inner := by
    intro inner mem
    have moves : (Sink.alignToSourceLowWatermark lowWatermark :
        Program SinkError (Recorded K) Unit) = (do
          focus Recorded.part id (Sink.alignToSourceLowWatermark lowWatermark)
          modify fun s => { s with opening := lowWatermark }) := rfl
    simp only [InnerSink.align, moves, wp_bind, wp_get, wp_focus, wp_modify]
    refine wp_mono (LawfulSink.align_spec lowWatermark inner.sink.sink (ready inner mem).held.owned
      (allowed inner mem)) (fun _ sink ⟨owned, position⟩ => ?_) (fun _ _ _ => ⟨trivial, trivial⟩)
    have unused := (ready inner mem).unused
    refine ⟨⟨owned, ?_, Nat.le_refl _, Nat.le_of_eq position.symm, fun raised => ?_⟩, position,
      unused⟩
    · -- Nothing was accepted, so the own position is the one that was aligned to.
      show lowWatermark = ((inner.sink.accepted).getLast?.map _).getD lowWatermark
      rw [unused]
      rfl
    · exact absurd raised (Nat.not_lt.mpr (Nat.le_of_eq position))
  refine wp_mono (wp_forAll (fun _ => True) (fun _ _ _ => trivial) aligns)
    (fun _ inners aligned inner' among => ?_) (fun _ _ _ => trivial)
  obtain ⟨inner, mem, rfl⟩ := List.mem_map.mp among
  exact forall_mem_of_forall₂ aligned (fun _ _ ready => ready) inner mem

omit [Notifier N] [SharedSink K] in
/-- A run that starts on a settled tee holds every destination from where it starts. -/
theorem bootstrap_held {m : Mirror S (TeeSink (Recorded K)) N}
    (ready : ∀ inner ∈ m.sink.inners, Ready 0 inner) :
    wp Mirror.bootstrap (fun expected m' => ∀ inner ∈ m'.sink.inners, Held expected inner)
      (fun _ _ => True) m := by
  -- Every slot stays ready from the query on, whichever of the branches the startup takes.
  simp only [Mirror.bootstrap, Mirror.onSink, Mirror.onSource, wp_bind, wp_focus, wp_ensure,
    wp_get, wp_ite, wp_pure, wp_throw]
  refine wp_mono (nextExpectedOffset_settled (fun inner mem => (ready inner mem).held)
    fun inner mem => (ready inner mem).settled) ?_
    (fun _ _ _ => trivial)
  rintro start tee ⟨asked, atMost⟩
  have ready₁ : ∀ inner ∈ tee.inners, Ready start inner := by
    intro inner' mem'
    obtain ⟨inner, mem, held, settled, accepted⟩ := exists_of_forall₂ asked mem'
    exact ⟨⟨held.owned, held.head, atMost inner' mem', held.reports, held.gapless⟩, settled,
      accepted.trans (ready inner mem).unused⟩
  refine wp_any (fun low source₁ => ?_) (fun _ _ => trivial)
  refine wp_any (fun high source₂ => ?_) (fun _ _ => trivial)
  have asksFurthest : wp (Sink.furthestNextOffset : Program SinkError (TeeSink (Recorded K)) _)
      (fun _ tee' => ∀ inner ∈ tee'.inners, Ready start inner) (fun _ _ => True) tee := by
    show wp (focus TeeSink.innersPart id _ >>= _) _ _ tee
    simp only [wp_bind, wp_focus, wp_pure]
    exact wp_mono (wp_forEach (fun _ _ => True) (fun _ => True) (fun _ _ => trivial)
      (fun _ _ _ => trivial) fun inner mem => furthest_ready (ready₁ inner mem))
      (fun _ inners asked => forall_mem_of_forall₂ asked.1 fun _ _ ready => ready)
      (fun _ _ _ => trivial)
  refine wp_mono asksFurthest (fun furthest tee₂ ready₂ => ?_) (fun _ _ _ => trivial)
  split
  · split
    · split
      · rename_i allowed
        refine wp_mono (align_ready ready₂ allowed) (fun _ tee₃ ready₃ => ?_)
          (fun _ _ _ => trivial)
        exact wp_any (fun _ _ inner mem => (ready₃ inner mem).held) (fun _ _ => trivial)
      · trivial
    · exact wp_any (fun _ _ inner mem => (ready₂ inner mem).held) (fun _ _ => trivial)
  · trivial

/-- What writing a record makes of one destination of a run. -/
structure Given (record : Record) (before after : InnerSink (Recorded K)) : Prop where
  presented : before.sink.own ≤ record.sourceOffset →
    after.sink.presented = before.sink.presented ++ [record]
  gate : before.head ≤ record.sourceOffset →
    LawfulSink.position before.sink.sink ≤ record.sourceOffset
  held : record.sourceOffset + 1 < 2 ^ 64 → Held (record.sourceOffset + 1) after

omit [Source S] [Notifier N] in
/-- One destination is given the record unless its own position is past it. -/
theorem write_held {expected : Nat} {record : Record} {inner : InnerSink (Recorded K)}
    (held : Held expected inner) :
    wp (InnerSink.write record) (fun _ inner' => Given record inner inner')
      (fun _ _ => True ∧ True) inner := by
  -- A destination that is due for the record takes it at its gate, and any other is left alone.
  simp only [InnerSink.write, wp_bind, wp_get, wp_ite, wp_focus, wp_modify, wp_pure]
  split
  · rename_i behind
    have recorded : (Sink.write record : Program SinkError (Recorded K) Unit)
        = Recorded.write record := rfl
    simp only [recorded, Recorded.write, wp_bind, wp_modify, wp_focus]
    have gate := SharedSink.write_gate record inner.sink.sink held.owned
    by_cases inRange : record.sourceOffset + 1 < 2 ^ 64
    · refine wp_mono (wp_and gate (LawfulSink.write_spec record inner.sink.sink held.owned inRange))
        ?_ (fun _ _ _ => ⟨trivial, trivial⟩)
      rintro _ sink ⟨taken, owned, position⟩
      refine ⟨fun _ => rfl, fun _ => taken, fun _ => ?_⟩
      have next := addOne_eq inRange
      have position : LawfulSink.position sink = record.sourceOffset + 1 := position
      refine ⟨owned, ?_, Nat.le_of_eq next.symm, ?_, fun raised => ?_⟩
      · show addOne record.sourceOffset
          = ((inner.sink.accepted ++ [record]).getLast?.map
              fun record => record.sourceOffset + 1).getD inner.sink.opening
        simp [next]
      · show addOne record.sourceOffset ≤ LawfulSink.position sink
        omega
      · have raised : addOne record.sourceOffset < LawfulSink.position sink := raised
        omega
    · exact wp_mono gate (fun _ _ taken => ⟨fun _ => rfl, fun _ => taken,
        fun inRange' => absurd inRange' inRange⟩) (fun _ _ _ => ⟨trivial, trivial⟩)
  · -- Past the record, the destination is past the next offset as well.
    rename_i past
    have head := held.head
    refine ⟨fun due => absurd (head ▸ due) past, fun behind => absurd behind past, fun _ => ?_⟩
    exact ⟨held.owned, head, by omega, held.reports, held.gapless⟩

omit [Source S] [Notifier N] in
/-- The tee gives the record to every destination whose own position is not past it. -/
theorem write_given {expected : Nat} {record : Record} {tee : TeeSink (Recorded K)}
    (held : ∀ inner ∈ tee.inners, Held expected inner) :
    wp (Sink.write record : Program SinkError (TeeSink (Recorded K)) Unit)
      (fun _ tee' => List.Forall₂ (Given record) tee.inners tee'.inners) (fun _ _ => True) tee := by
  show wp (modify (TeeSink.applyToCache record) >>= _) _ _ tee
  simp only [wp_bind, wp_modify, wp_focus]
  exact wp_mono (wp_forAll (fun _ => True) (fun _ _ _ => trivial)
    fun inner mem => write_held (held inner mem)) (fun _ _ given => given) (fun _ _ _ => trivial)

omit [Source S] in
/-- A delivered record leaves every destination held before the next offset. -/
theorem deliver_held {expected : Nat} {record : Record} {m : Mirror S (TeeSink (Recorded K)) N}
    (held : ∀ inner ∈ m.sink.inners, Held expected inner) :
    wp (Mirror.deliver expected record)
      (fun next m' => ∀ inner ∈ m'.sink.inners, Held next inner) (fun _ _ => True) m := by
  simp only [Mirror.deliver, Mirror.onSink, Mirror.onNotifier, wp_bind, wp_get, wp_focus,
    wp_ensure, wp_pure]
  split
  · split
    · refine wp_mono (write_given held) (fun _ tee given => ?_) (fun _ _ _ => trivial)
      split
      · rename_i inRange
        exact wp_any (fun _ _ => forall_mem_of_forall₂ given fun _ _ step => step.held inRange)
          (fun _ _ => trivial)
      · trivial
    · trivial
  · trivial

omit [Source S] in
/-- A record that a raised destination is due ends the run. -/
theorem deliver_refused {expected : Nat} {record : Record}
    {m : Mirror S (TeeSink (Recorded K)) N}
    (held : ∀ inner ∈ m.sink.inners, Held expected inner) {inner : InnerSink (Recorded K)}
    (mem : inner ∈ m.sink.inners) (raised : inner.Raised)
    (isDue : inner.sink.own ≤ record.sourceOffset) :
    wp (Mirror.deliver expected record) (fun _ _ => False) (fun _ _ => True) m := by
  have here := held inner mem
  have head := here.head
  have ahead := here.ahead
  have raised : inner.sink.own < LawfulSink.position inner.sink.sink := raised
  -- A raised destination takes no holes, so neither does the tee.
  have gapless : Sink.allowsOffsetHoles m.sink = false := by
    have closed : Sink.allowsOffsetHoles inner.sink = false := here.gapless (head ▸ raised)
    show (m.sink.inners.all fun inner => Sink.allowsOffsetHoles inner.sink) = false
    rw [List.all_eq_false]
    exact ⟨inner, mem, by simp [closed]⟩
  simp only [Mirror.deliver, Mirror.onSink, Mirror.onNotifier, wp_bind, wp_get, wp_focus,
    wp_ensure, wp_pure]
  split
  · split
    · rename_i above withoutHole
      refine wp_mono (write_given held) (fun _ tee given => ?_) (fun _ _ _ => trivial)
      -- The record is the expected one, where the destination's own position is as well.
      have atMost : record.sourceOffset ≤ expected := by
        rcases withoutHole with atMost | holes
        · exact atMost
        · rw [gapless] at holes
          exact absurd holes Bool.false_ne_true
      obtain ⟨inner', _, step⟩ := exists_after_of_forall₂ given mem
      have taken := step.gate (by omega)
      omega
    · trivial
  · trivial

omit [Source S] [Notifier N] [SharedSink K] in
/-- An idle poll that finds what it needs ends the run where a destination is raised. -/
theorem verifyIdle_noticed {expected : Nat} {m : Mirror S (TeeSink (Recorded K)) N}
    (held : ∀ inner ∈ m.sink.inners, Held expected inner) (noticeable : m.sink.Noticeable)
    (raised : ∃ inner ∈ m.sink.inners, inner.Raised) :
    wp (Mirror.verifyIdle expected) (fun _ _ => False) (fun _ _ => True) m := by
  obtain ⟨one, mem, raised⟩ := raised
  have raised : one.sink.own < LawfulSink.position one.sink.sink := raised
  obtain ⟨slowest, cursor⟩ := noticeable ⟨one, mem, (held one mem).head ▸ raised⟩
  simp only [Mirror.verifyIdle, Mirror.onSink, wp_bind, wp_focus, wp_ensure, wp_pure]
  refine wp_mono (nextExpectedOffset_reports fun inner mem => (held inner mem).owned)
    ?_ (fun _ _ _ => trivial)
  rintro next tee ⟨reported, sameCursor, answered⟩
  have reported : List.Forall₂ _ m.sink.inners tee.inners := reported
  have sameCursor : tee.resumeCursor = m.sink.resumeCursor := sameCursor
  -- Every destination now has a head above the slowest one before.
  have risen : ∀ inner' ∈ tee.inners, m.sink.minHead < inner'.head := by
    intro inner' mem'
    obtain ⟨inner, mem, head, _⟩ := exists_of_forall₂ reported mem'
    have reports := (held inner mem).reports
    have least := TeeSink.minHead_le mem
    rcases Nat.lt_or_eq_of_le least with above | same
    · omega
    · have := slowest inner mem same.symm
      omega
  have atLeast : expected ≤ m.sink.minHead := by
    obtain ⟨inner, mem, same⟩ := TeeSink.exists_minHead (List.ne_nil_of_mem mem)
    rw [← same]
    exact (held inner mem).ahead
  have above : expected < next := by
    obtain ⟨one', mem', _⟩ := exists_after_of_forall₂ reported mem
    obtain ⟨inner, mem, same⟩ := TeeSink.exists_minHead (List.ne_nil_of_mem mem')
    have minimum := risen inner mem
    rw [answered, TeeSink.resumePosition, sameCursor]
    cases held : m.sink.resumeCursor with
    | none =>
      simp only
      omega
    | some at_ =>
      have := cursor at_ held
      simp only
      omega
  rw [if_neg (by omega)]
  trivial

omit [Source S] [SharedSink K] [Notifier N] in
/-- An idle poll on a tee where nothing is raised leaves every destination held. -/
theorem verifyIdle_held {expected : Nat} {m : Mirror S (TeeSink (Recorded K)) N}
    (held : ∀ inner ∈ m.sink.inners, Held expected inner) (noticeable : m.sink.Noticeable) :
    wp (Mirror.verifyIdle expected) (fun next m' => ∀ inner ∈ m'.sink.inners, Held next inner)
      (fun _ _ => True) m := by
  by_cases raised : ∃ inner ∈ m.sink.inners, inner.Raised
  · exact wp_mono (verifyIdle_noticed held noticeable raised) (fun _ _ impossible => impossible.elim)
      (fun _ _ _ => trivial)
  · have settled : m.sink.Settled := by
      intro inner mem
      have reports := (held inner mem).reports
      have quiet : ¬ inner.sink.own < LawfulSink.position inner.sink.sink :=
        fun beyond => raised ⟨inner, mem, beyond⟩
      rw [← (held inner mem).head] at quiet
      omega
    simp only [Mirror.verifyIdle, Mirror.onSink, wp_bind, wp_focus, wp_ensure, wp_pure]
    refine wp_mono (nextExpectedOffset_settled held settled) ?_ (fun _ _ _ => trivial)
    rintro next tee ⟨asked, _⟩
    split
    · exact forall_mem_of_forall₂ asked fun _ _ step => step.1
    · trivial

/-- One event that does not end the run leaves every destination held. -/
theorem loop_held {expected : Nat} {m : Mirror S (TeeSink (Recorded K)) N} (event : LoopEvent)
    (held : ∀ inner ∈ m.sink.inners, Held expected inner)
    (idle : event = .poll → ∀ source, Source.pollOne m.source = .ok none source →
      m.sink.Noticeable) :
    wp (Mirror.loop [event] expected)
      (fun progress m' => ∀ next, progress = .running next →
        ∀ inner ∈ m'.sink.inners, Held next inner)
      (fun _ _ => True) m := by
  cases event with
  | shutdown =>
    simp only [Mirror.loop, wp_bind, wp_modify, wp_pure]
    exact wp_any (fun _ _ _ impossible => Progress.noConfusion impossible) (fun _ _ => trivial)
  | heartbeat =>
    simp only [Mirror.loop, wp_bind, wp_modify, wp_pure]
    intro next running
    cases running
    exact held
  | poll =>
    have runs : ∀ (next : Nat) (m' : Mirror S (TeeSink (Recorded K)) N),
        (∀ inner ∈ m'.sink.inners, Held next inner) →
          ∀ after, Progress.running next = .running after →
            ∀ inner ∈ m'.sink.inners, Held after inner := by
      intro next m' held after same
      cases same
      exact held
    simp only [Mirror.loop, Mirror.poll, Mirror.onSource, wp_bind, wp_focus, wp_pure]
    -- What the source answers decides between a record and an idle poll.
    refine wp_intro (fun polled source answered => ?_) (fun _ _ _ => trivial)
    cases polled with
    | none =>
      exact wp_mono (verifyIdle_held held (idle rfl source answered)) runs (fun _ _ _ => trivial)
    | some record => exact wp_mono (deliver_held held) runs (fun _ _ _ => trivial)

/-- In every state of a run every destination is held. -/
theorem Running.held {opened m : Mirror S (TeeSink (Recorded K)) N} {expected : Nat}
    (ready : ∀ inner ∈ opened.sink.inners, Held 0 inner ∧ inner.sink.accepted = [])
    (running : Running opened expected m) : ∀ inner ∈ m.sink.inners, Held expected inner := by
  induction running with
  | @start m m' expected before settled resumed =>
    have intruded : ∀ inner ∈ m.sink.inners, Held 0 inner ∧ inner.sink.accepted = [] := by
      clear settled resumed
      induction before with
      | refl => exact ready
      | tail _ wrote ih =>
        intro inner mem
        refine ⟨held_of_intrusion (fun inner mem => (ih inner mem).1) wrote inner mem, ?_⟩
        exact unused_of_intrusion (fun inner mem => (ih inner mem).2) wrote inner mem
    exact wp_of_ok (bootstrap_held fun inner mem =>
      ⟨(intruded inner mem).1, settled inner mem, (intruded inner mem).2⟩) resumed
  | intrusion _ wrote ih => exact held_of_intrusion ih wrote
  | @event m m' expected next event _ idle served ih =>
    exact wp_of_ok (loop_held event ih idle) served next rfl

/--
A foreign write is never absorbed in a run that could notice it.

No destination may report more than its opening head at startup, and when an idle poll finds one
that reports more than its head, every slowest destination must, with no resume cursor at or below.
-/
theorem foreign_write_never_absorbed {sinks : List (String × K)}
    (owned : ∀ sink ∈ sinks, LawfulSink.owned sink.2) {cache : Option CacheBinding}
    {tee : TeeSink (Recorded K)} {left : List (InnerSink (Recorded K))}
    (opened : TeeSink.openTee cache (untouched sinks) = .ok tee left) (floor : Option Nat)
    (source : S) (notifier : N) {expected : Nat} {m : Mirror S (TeeSink (Recorded K)) N}
    (running : Running ⟨source, tee.withFloor floor, notifier⟩ expected m) :
    NeverAbsorbed expected m := by
  have fed := (wp_of_ok (openTee_fed owned) opened).1
  have inners : (tee.withFloor floor).inners = tee.inners := by
    cases floor <;> rfl
  have held := running.held fun inner mem => by
    have fed := fed inner (inners ▸ mem)
    exact ⟨fed.held, fed.accepted⟩
  refine ⟨fun record => ?_, fun record inner mem raised isDue => ?_, fun noticeable raised => ?_⟩
  · exact wp_mono (write_given held) (fun _ _ given => given.imp fun _ _ step => step.presented)
      (fun _ _ _ => trivial)
  · exact deliver_refused held mem raised isDue
  · exact verifyIdle_noticed held noticeable raised

end Runs

namespace Sample

/-- A Kafka destination with the given records, whose broker answers every request. -/
def kafkaSink (records : List FutureRecord) : KafkaSink Partition :=
  ⟨⟨records, fun _ => ⟨none, false, false⟩⟩, producerConfig "broker:9092",
    watermarkConfig "broker:9092", kafka, none⟩

/-- Two Kafka destinations, of which the second has one record more. -/
def twoSinks : List (String × KafkaSink Partition) :=
  [("a", kafkaSink []), ("b", kafkaSink [kafka.futureRecord (keyed 0)])]

/-- The tee over them. -/
def twoHeads : TeeSink (Recorded (KafkaSink Partition)) :=
  ⟨[⟨"a", .start (kafkaSink []), 0⟩,
    ⟨"b", .start (kafkaSink [kafka.futureRecord (keyed 0)]), 1⟩], none, none⟩

/-- A source of two records whose first poll after the startup is idle. -/
def idleFirst : LogSource := ⟨twoRecords, 0, 0, fun n => ⟨none, n == 3, 2⟩⟩

/-- The mirror before its startup. -/
def beforeStart : Mirror LogSource (TeeSink (Recorded (KafkaSink Partition))) NoOpNotifier :=
  ⟨idleFirst, twoHeads, {}⟩

/-- The mirror after its startup. -/
def afterStart : Mirror LogSource (TeeSink (Recorded (KafkaSink Partition))) NoOpNotifier :=
  after Mirror.bootstrap beforeStart

/-- Another producer adds a record to a destination. -/
def producedByOther (s : KafkaSink Partition) : KafkaSink Partition :=
  { s with broker := { s.broker with
      records := s.broker.records ++ [kafka.futureRecord (keyed 7)] } }

/-- The mirror after another producer added a record to one of its destinations. -/
def intrudedOn (i : Nat)
    (m : Mirror LogSource (TeeSink (Recorded (KafkaSink Partition))) NoOpNotifier)
    (within : i < m.sink.inners.length) :
    Mirror LogSource (TeeSink (Recorded (KafkaSink Partition))) NoOpNotifier :=
  let inner := m.sink.inners[i]
  let written := { inner.sink with sink := producedByOther inner.sink.sink }
  let inners := m.sink.inners.take i ++ { inner with sink := written } :: m.sink.inners.drop (i + 1)
  { m with sink := { m.sink with inners } }

/-- What another producer adds is a foreign write on that destination. -/
theorem intrusion_intrudedOn (i : Nat)
    (m : Mirror LogSource (TeeSink (Recorded (KafkaSink Partition))) NoOpNotifier)
    (within : i < m.sink.inners.length) : Intrusion m (intrudedOn i m within) :=
  ⟨m.sink.inners.take i, m.sink.inners[i], m.sink.inners.drop (i + 1),
    producedByOther m.sink.inners[i].sink.sink,
    by rw [List.getElem_cons_drop, List.take_append_drop],
    ⟨⟨rfl, rfl⟩, List.prefix_append _ _⟩, rfl⟩

/-- Both destinations are there after the startup. -/
theorem afterStart_length : afterStart.sink.inners.length = 2 := by decide +kernel

/-- The startup resumes at the slower destination. -/
theorem bootstrap_beforeStart : Mirror.bootstrap beforeStart = .ok 0 afterStart :=
  eq_ok_of_value? (by decide +kernel)

/-- The mirror after another producer wrote to the destination that is further on. -/
def furtherWritten : Mirror LogSource (TeeSink (Recorded (KafkaSink Partition))) NoOpNotifier :=
  intrudedOn 1 afterStart (by rw [afterStart_length]; decide)

/--
A foreign write on the destination that is further on is absorbed.

The idle poll passes, and both records are taken although the second destination, whose own
position is 1, was never asked to write the record at 1.
-/
theorem foreign_write_absorbed :
    TeeSink.openTee none (untouched twoSinks) = .ok twoHeads twoHeads.inners
      ∧ Mirror.bootstrap beforeStart = .ok 0 afterStart
      ∧ Intrusion afterStart furtherWritten
      ∧ furtherWritten.sink.inners.map (fun inner =>
          (inner.sink.own, LawfulSink.position inner.sink.sink)) = [(0, 0), (1, 2)]
      ∧ value? (Mirror.loop [.poll] 0 furtherWritten) = some (.running 0)
      ∧ value? (Mirror.loop [.poll, .poll, .poll] 0 furtherWritten) = some (.running 2)
      ∧ (after (Mirror.loop [.poll, .poll, .poll] 0) furtherWritten).sink.inners.map
          (fun inner => (inner.sink.own, inner.sink.presented))
        = [(2, [keyed 0, keyed 1]), (1, [])] := by
  refine ⟨rfl, bootstrap_beforeStart, intrusion_intrudedOn 1 afterStart _, ?_, ?_, ?_, ?_⟩
  all_goals decide +kernel

/-- A foreign write on the slowest destination ends the run at the idle poll. -/
theorem foreign_write_never_absorbed_sample :
    NeverAbsorbed 0 (intrudedOn 0 afterStart (by rw [afterStart_length]; decide)) := by
  have owned : ∀ sink ∈ twoSinks, LawfulSink.owned sink.2 := by
    intro sink mem
    rcases List.mem_cons.mp mem with rfl | mem
    · exact producerConfig_noRetries _
    · rw [List.mem_singleton.mp mem]
      exact producerConfig_noRetries _
  have opened : TeeSink.openTee none (untouched twoSinks) = .ok twoHeads twoHeads.inners := rfl
  have settled : twoHeads.Settled := by
    intro inner mem
    rcases List.mem_cons.mp mem with rfl | mem
    · rfl
    · rw [List.mem_singleton.mp mem]
      rfl
  have running : Running (⟨idleFirst, twoHeads.withFloor none, {}⟩ :
      Mirror LogSource (TeeSink (Recorded (KafkaSink Partition))) NoOpNotifier) 0 afterStart :=
    .start .refl settled bootstrap_beforeStart
  exact foreign_write_never_absorbed owned opened none idleFirst {}
    (running.intrusion (intrusion_intrudedOn 0 afterStart _))

end Sample

end MirrorV3
