import MirrorV3.Core.LogSource
import MirrorV3.Core.NoDestination
import MirrorV3.Core.Observed
import MirrorV3.Core.Tee

/-! A tee gives every destination the records it is behind on, once each, and then tells the observer. -/

namespace MirrorV3

open Effect

variable {S K N : Type}

/-- The records at a destination's opening head or above. -/
def due (opening : Nat) (records : List Record) : List Record :=
  records.filter (opening ≤ ·.sourceOffset)

/-- A record at the opening head or above is due next. -/
theorem due_snoc_of_le (records : List Record) {opening : Nat} {record : Record}
    (above : opening ≤ record.sourceOffset) :
    due opening (records ++ [record]) = due opening records ++ [record] := by
  simp [due, above]

/-- A record below the opening head is not due. -/
theorem due_snoc_of_lt (records : List Record) {opening : Nat} {record : Record}
    (below : record.sourceOffset < opening) :
    due opening (records ++ [record]) = due opening records := by
  simp [due, below]

/-- A destination as it is when a tee is opened over it. -/
def Recorded.start [Sink K] [LawfulSink K] (sink : K) : Recorded K :=
  ⟨sink, LawfulSink.position sink, [], []⟩

/-- The slots of destinations that nothing was asked of yet. -/
def untouched [Sink K] [LawfulSink K] (sinks : List (String × K)) : List (InnerSink (Recorded K)) :=
  TeeSink.slots (sinks.map fun sink => (sink.1, .start sink.2))

/-- The tee with the resume floor it is given, if it is given one. -/
def TeeSink.withFloor (tee : TeeSink K) : Option Nat → TeeSink K
  | none => tee
  | some floor => tee.setResumeFloor floor

/-- Every destination has taken exactly what it was due of these records. -/
structure Served (openings : List Nat) (records : List Record)
    (inners : List (InnerSink (Recorded K))) : Prop where
  openings : inners.map (·.sink.opening) = openings
  presented : ∀ inner ∈ inners, inner.sink.presented = due inner.sink.opening records
  accepted : ∀ inner ∈ inners, inner.sink.accepted = due inner.sink.opening records

/-- A run between two events: every delivered record was fanned out, and the observer told. -/
structure FannedOut (openings : List Nat)
    (m : Mirror (Delivering S) (TeeSink (Recorded K)) (Notified N)) : Prop where
  served : Served openings m.source.delivered m.sink.inners
  increasing : m.source.delivered.Pairwise (·.sourceOffset < ·.sourceOffset)
  notified : m.notifier.notified = m.source.delivered

/--
A run that ended in an error, which at most the last record was on its way in.

The observer was told of it only when every destination behind it had taken it.
-/
def Interrupted (openings : List Nat)
    (m : Mirror (Delivering S) (TeeSink (Recorded K)) (Notified N)) : Prop :=
  ∃ done rest, m.source.delivered = done ++ rest ∧ rest.length ≤ 1
    ∧ m.sink.inners.map (·.sink.opening) = openings
    ∧ (∀ inner ∈ m.sink.inners,
        (inner.sink.presented = due inner.sink.opening done
          ∨ inner.sink.presented = due inner.sink.opening m.source.delivered)
        ∧ due inner.sink.opening done <+: inner.sink.accepted
        ∧ inner.sink.accepted <+: inner.sink.presented)
    ∧ (m.notifier.notified = done
        ∨ m.notifier.notified = m.source.delivered
          ∧ Served openings m.source.delivered m.sink.inners)

/-- A run that stopped after its last record is in particular interrupted nowhere. -/
theorem FannedOut.interrupted {openings : List Nat}
    {m : Mirror (Delivering S) (TeeSink (Recorded K)) (Notified N)}
    (holds : FannedOut openings m) : Interrupted openings m := by
  refine ⟨m.source.delivered, [], by simp, by simp, holds.served.openings, fun inner mem => ?_,
    .inl holds.notified⟩
  have presented := holds.served.presented inner mem
  have accepted := holds.served.accepted inner mem
  refine ⟨.inl presented, ?_, ?_⟩
  · simp only [accepted, List.prefix_rfl]
  · simp only [accepted, presented, List.prefix_rfl]

section Step

variable [Sink K] [LawfulSink K] {delivered : List Record} {expected : Nat}

/-- One destination in step with the loop, its slot's head where the destination stands. -/
structure Fed (delivered : List Record) (expected : Nat) (inner : InnerSink (Recorded K)) :
    Prop where
  owned : LawfulSink.owned inner.sink.sink
  head : inner.head = LawfulSink.position inner.sink.sink
  opening : inner.sink.opening ≤ inner.head
  /-- Only a record the loop has passed moves the head from where it was opened. -/
  synced : inner.head = inner.sink.opening ∨ inner.head ≤ expected
  presented : inner.sink.presented = due inner.sink.opening delivered
  accepted : inner.sink.accepted = due inner.sink.opening delivered

/-- Before the first record a destination is in step with whatever offset comes first. -/
theorem Fed.of_start {inner : InnerSink (Recorded K)} (fed : Fed [] 0 inner) :
    Fed [] expected inner where
  owned := fed.owned
  head := fed.head
  opening := fed.opening
  synced := by
    have := fed.opening
    rcases fed.synced with same | zero
    · exact .inl same
    · left
      omega
  presented := fed.presented
  accepted := fed.accepted

/-- What a destination keeps whatever is asked of it but a write. -/
def SameRecords (before after : InnerSink (Recorded K)) : Prop :=
  after.sink.opening = before.sink.opening ∧ after.sink.presented = before.sink.presented
    ∧ after.sink.accepted = before.sink.accepted

/-- A destination in step with the loop answers the head it is known to have. -/
theorem refreshHead_fed {inner : InnerSink (Recorded K)} (fed : Fed delivered expected inner) :
    wp InnerSink.refreshHead
      (fun _ inner' => Fed delivered expected inner' ∧ inner'.head = inner.head
        ∧ SameRecords inner inner')
      (fun _ inner' => SameRecords inner inner') inner := by
  have query : (Sink.nextExpectedOffset : Program SinkError (Recorded K) Nat)
      = focus Recorded.part id Sink.nextExpectedOffset := rfl
  simp only [InnerSink.refreshHead, query, wp_bind, wp_focus, wp_get, wp_ensure, wp_set]
  refine wp_mono (LawfulSink.nextExpectedOffset_spec inner.sink.sink fed.owned)
    (fun next sink ⟨owned, position, answered⟩ => ?_) (fun _ _ _ => ⟨rfl, rfl, rfl⟩)
  have same : next = inner.head := answered.trans fed.head.symm
  subst same
  have kept : LawfulSink.position sink = inner.head := position.trans fed.head.symm
  split
  · exact ⟨⟨owned, kept.symm, fed.opening, fed.synced, fed.presented, fed.accepted⟩, rfl,
      rfl, rfl, rfl⟩
  · exact ⟨rfl, rfl, rfl⟩

/-- The query for the furthest part leaves a destination in step. -/
theorem furthest_fed {inner : InnerSink (Recorded K)} (fed : Fed delivered expected inner) :
    wp InnerSink.furthest
      (fun _ inner' => Fed delivered expected inner' ∧ SameRecords inner inner')
      (fun _ inner' => SameRecords inner inner') inner := by
  have query : (Sink.furthestNextOffset : Program SinkError (Recorded K) _)
      = focus Recorded.part id Sink.furthestNextOffset := rfl
  simp only [InnerSink.furthest, query, wp_bind, wp_focus, wp_get, wp_pure]
  refine wp_mono (LawfulSink.furthestNextOffset_spec inner.sink.sink fed.owned)
    (fun _ sink ⟨owned, position⟩ => ?_) (fun _ _ _ => ⟨rfl, rfl, rfl⟩)
  exact ⟨⟨owned, fed.head.trans position.symm, fed.opening, fed.synced, fed.presented,
    fed.accepted⟩, rfl, rfl, rfl⟩

/-- What writing a record makes of one destination, before the last offset there can be. -/
structure Took (delivered : List Record) (record : Record) (before after : InnerSink (Recorded K)) :
    Prop where
  opening : after.sink.opening = before.sink.opening
  presented : after.sink.presented = due before.sink.opening (delivered ++ [record])
  accepted : after.sink.accepted = due before.sink.opening (delivered ++ [record])
  fed : record.sourceOffset + 1 < 2 ^ 64 →
    Fed (delivered ++ [record]) (record.sourceOffset + 1) after

/-- What is left of a destination when some destination of the tee failed to take a record. -/
structure Offered (delivered : List Record) (record : Record)
    (before after : InnerSink (Recorded K)) : Prop where
  opening : after.sink.opening = before.sink.opening
  presented : after.sink.presented = due before.sink.opening (delivered ++ [record])
  low : due before.sink.opening delivered <+: after.sink.accepted
  high : after.sink.accepted <+: after.sink.presented

/-- The records due before one more are a part of those due with it. -/
theorem due_prefix (opening : Nat) (records : List Record) (record : Record) :
    due opening records <+: due opening (records ++ [record]) := by
  rw [due, due, List.filter_append]
  exact List.prefix_append _ _

/-- A destination that took the record was offered it. -/
theorem Took.offered {record : Record} {before after : InnerSink (Recorded K)}
    (took : Took delivered record before after) : Offered delivered record before after where
  opening := took.opening
  presented := took.presented
  low := by
    rw [took.accepted]
    exact due_prefix _ _ _
  high := by
    simp only [took.accepted, took.presented, List.prefix_rfl]

/-- One destination takes the record when it is behind, and is left alone when it is past. -/
theorem write_fed {record : Record} {inner : InnerSink (Recorded K)}
    (fed : Fed delivered expected inner) (above : expected ≤ record.sourceOffset) :
    wp (InnerSink.write record) (fun _ inner' => Took delivered record inner inner')
      (fun _ inner' => True ∧ Offered delivered record inner inner') inner := by
  have opening := fed.opening
  simp only [InnerSink.write, wp_bind, wp_get, wp_ite, wp_focus, wp_modify, wp_pure]
  split
  · -- Behind the record, so above its opening head as well.
    rename_i behind
    have wanted : inner.sink.opening ≤ record.sourceOffset := Nat.le_trans opening behind
    have presented := due_snoc_of_le delivered wanted
    have recorded : (Sink.write record : Program SinkError (Recorded K) Unit)
        = Recorded.write record := rfl
    simp only [recorded, Recorded.write, wp_bind, wp_modify, wp_focus]
    have before : due inner.sink.opening delivered <+: inner.sink.accepted := by
      simp only [fed.accepted, List.prefix_rfl]
    have within : inner.sink.accepted <+: inner.sink.presented ++ [record] := by
      rw [fed.accepted, fed.presented]
      exact List.prefix_append _ _
    by_cases inRange : record.sourceOffset + 1 < 2 ^ 64
    · refine wp_mono (LawfulSink.write_spec record inner.sink.sink fed.owned inRange)
        (fun _ sink ⟨owned, position⟩ => ?_) (fun _ _ _ => ?_)
      · have next := addOne_eq inRange
        refine ⟨rfl, ?_, ?_, fun _ => ⟨owned, next.trans position.symm, ?_, .inr (by simp [next]),
          ?_, ?_⟩⟩
        · rw [presented]
          exact congrArg (· ++ [record]) fed.presented
        · rw [presented]
          exact congrArg (· ++ [record]) fed.accepted
        · show inner.sink.opening ≤ addOne record.sourceOffset
          omega
        · show inner.sink.presented ++ [record] = due inner.sink.opening (delivered ++ [record])
          rw [presented, fed.presented]
        · show inner.sink.accepted ++ [record] = due inner.sink.opening (delivered ++ [record])
          rw [presented, fed.accepted]
      · refine ⟨trivial, rfl, ?_, before, within⟩
        rw [presented]
        exact congrArg (· ++ [record]) fed.presented
    · -- At the last offset there is, the run ends right after the write.
      refine wp_any (fun _ _ => ⟨rfl, ?_, ?_, fun inRange' => absurd inRange' inRange⟩)
        (fun _ _ => ⟨trivial, rfl, ?_, before, within⟩)
      · rw [presented]
        exact congrArg (· ++ [record]) fed.presented
      · rw [presented]
        exact congrArg (· ++ [record]) fed.accepted
      · rw [presented]
        exact congrArg (· ++ [record]) fed.presented
  · -- Past the record, which only an opening head the loop has not reached can be.
    rename_i past
    have unmoved : inner.head = inner.sink.opening := by
      rcases fed.synced with same | passed
      · exact same
      · omega
    have skipped := due_snoc_of_lt delivered
      (by omega : record.sourceOffset < inner.sink.opening)
    refine ⟨rfl, by rw [skipped, fed.presented], by rw [skipped, fed.accepted], fun _ => ?_⟩
    exact ⟨fed.owned, fed.head, opening, .inl unmoved, by rw [skipped, fed.presented],
      by rw [skipped, fed.accepted]⟩

/-- What is asked of a tee other than a write leaves every destination's records as they were. -/
def TeeSink.Same (before after : TeeSink (Recorded K)) : Prop :=
  List.Forall₂ SameRecords before.inners after.inners

omit [Sink K] [LawfulSink K] in
/-- Destinations whose records stayed as they were have taken what they had taken. -/
theorem Served.same {openings : List Nat} {inners inners' : List (InnerSink (Recorded K))}
    (served : Served openings delivered inners) (same : List.Forall₂ SameRecords inners inners') :
    Served openings delivered inners' := by
  refine ⟨?_, ?_, ?_⟩
  · rw [map_eq_of_forall₂ same fun _ _ kept => kept.1]
    exact served.openings
  all_goals
    intro inner' mem
    obtain ⟨inner, mem, kept⟩ := exists_of_forall₂ same mem
    rw [kept.1]
  · rw [kept.2.1]
    exact served.presented inner mem
  · rw [kept.2.2]
    exact served.accepted inner mem

/-- A tee whose destinations are in step answers the position it is known to resume at. -/
theorem nextExpectedOffset_fed {tee : TeeSink (Recorded K)}
    (fed : ∀ inner ∈ tee.inners, Fed delivered expected inner) :
    wp (Sink.nextExpectedOffset : Program SinkError (TeeSink (Recorded K)) Nat)
      (fun next tee' => (∀ inner ∈ tee'.inners, Fed delivered expected inner) ∧ tee.Same tee'
        ∧ next = tee.resumePosition ∧ tee'.resumePosition = tee.resumePosition)
      (fun _ tee' => tee.Same tee') tee := by
  show wp (focus TeeSink.innersPart id _ >>= _) _ _ tee
  simp only [wp_bind, wp_focus, wp_get, wp_pure]
  refine wp_mono (wp_forEach (fun _ _ => True) (fun _ => True) (fun _ _ => ⟨rfl, rfl, rfl⟩)
    (fun _ _ ran => ran.2.2) fun inner mem => wp_mono
      (refreshHead_fed (fed inner mem)) (fun _ _ ran => ⟨ran, trivial⟩)
      (fun _ _ same => ⟨trivial, same⟩)) (fun _ inners ⟨ran, _⟩ => ?_) (fun _ _ failed => failed.2)
  have heads : inners.map (·.head) = tee.inners.map (·.head) :=
    map_eq_of_forall₂ ran fun _ _ step => step.2.1
  -- With the heads as they were, so is the smallest of them.
  have unmoved : TeeSink.resumePosition { tee with inners } = tee.resumePosition := by
    simp only [TeeSink.resumePosition, TeeSink.minHead, heads]
  exact ⟨forall_mem_of_forall₂ ran fun _ _ step => step.1, ran.imp fun _ _ step => step.2.2,
    unmoved, unmoved⟩

/-- The query for the furthest destination leaves all of them in step. -/
theorem furthestNextOffset_fed {tee : TeeSink (Recorded K)}
    (fed : ∀ inner ∈ tee.inners, Fed delivered expected inner) :
    wp (Sink.furthestNextOffset : Program SinkError (TeeSink (Recorded K)) _)
      (fun _ tee' => (∀ inner ∈ tee'.inners, Fed delivered expected inner) ∧ tee.Same tee')
      (fun _ tee' => tee.Same tee') tee := by
  show wp (focus TeeSink.innersPart id _ >>= _) _ _ tee
  simp only [wp_bind, wp_focus, wp_pure]
  refine wp_mono (wp_forEach (fun _ _ => True) (fun _ => True) (fun _ _ => ⟨rfl, rfl, rfl⟩)
    (fun _ _ ran => ran.2) fun inner mem => wp_mono
      (furthest_fed (fed inner mem)) (fun _ _ ran => ⟨ran, trivial⟩)
      (fun _ _ same => ⟨trivial, same⟩)) (fun _ inners ⟨ran, _⟩ => ?_) (fun _ _ failed => failed.2)
  exact ⟨forall_mem_of_forall₂ ran fun _ _ step => step.1, ran.imp fun _ _ step => step.2⟩

omit [LawfulSink K] in
/-- A flush leaves every destination's records as they were. -/
theorem flush_same (tee : TeeSink (Recorded K)) :
    wp (Sink.flush : Program SinkError (TeeSink (Recorded K)) Unit)
      (fun _ tee' => tee.Same tee') (fun _ tee' => tee.Same tee') tee := by
  show wp (focus TeeSink.innersPart id (forAll InnerSink.flush)) _ _ tee
  simp only [wp_focus]
  have each : ∀ inner ∈ tee.inners, wp InnerSink.flush (fun _ inner' => SameRecords inner inner')
      (fun _ inner' => True ∧ SameRecords inner inner') inner := by
    intro inner _
    have flushes : (Sink.flush : Program SinkError (Recorded K) Unit)
        = focus Recorded.part id Sink.flush := rfl
    simp only [InnerSink.flush, flushes, wp_bind, wp_get, wp_focus]
    exact wp_any (fun _ _ => ⟨rfl, rfl, rfl⟩) (fun _ _ => ⟨trivial, rfl, rfl, rfl⟩)
  exact wp_mono (wp_forAll (fun _ => True) (fun _ _ same => same) each) (fun _ _ same => same)
    (fun _ _ failed => failed.2)

/-- A record reaches every destination that is behind it, and no destination that is past it. -/
theorem write_tee {record : Record} {tee : TeeSink (Recorded K)}
    (fed : ∀ inner ∈ tee.inners, Fed delivered expected inner)
    (above : expected ≤ record.sourceOffset) :
    wp (Sink.write record : Program SinkError (TeeSink (Recorded K)) Unit)
      (fun _ tee' => List.Forall₂ (Took delivered record) tee.inners tee'.inners)
      (fun _ tee' => List.Forall₂ (Offered delivered record) tee.inners tee'.inners) tee := by
  show wp (modify (TeeSink.applyToCache record) >>= _) _ _ tee
  simp only [wp_bind, wp_modify, wp_focus]
  exact wp_mono (wp_forAll (fun _ => True) (fun _ _ took => took.offered)
    fun inner mem => write_fed (fed inner mem) above) (fun _ _ took => took)
    (fun _ _ offered => offered.2)

end Step

section Run

variable [Source S] [Sink K] [LawfulSink K] [Notifier N] {openings : List Nat} {expected : Nat}
  {m : Mirror (Delivering S) (TeeSink (Recorded K)) (Notified N)}

/-- A running mirror: its destinations are in step with the records it has delivered. -/
structure FanningOut (openings : List Nat) (expected : Nat)
    (m : Mirror (Delivering S) (TeeSink (Recorded K)) (Notified N)) : Prop where
  fed : ∀ inner ∈ m.sink.inners, Fed m.source.delivered expected inner
  openings : m.sink.inners.map (·.sink.opening) = openings
  increasing : m.source.delivered.Pairwise (·.sourceOffset < ·.sourceOffset)
  passed : ∀ record ∈ m.source.delivered, record.sourceOffset < expected
  notified : m.notifier.notified = m.source.delivered

omit [Source S] [Notifier N] in
/-- A running mirror has fanned out every record it has delivered. -/
theorem FanningOut.fannedOut (holds : FanningOut openings expected m) : FannedOut openings m where
  served := ⟨holds.openings, fun inner mem => (holds.fed inner mem).presented,
    fun inner mem => (holds.fed inner mem).accepted⟩
  increasing := holds.increasing
  notified := holds.notified

omit [Source S] [Sink K] [LawfulSink K] [Notifier N] in
/-- A query or a flush changes nothing of what was fanned out, also when it fails. -/
theorem FannedOut.same {tee : TeeSink (Recorded K)} (holds : FannedOut openings m)
    (same : m.sink.Same tee) : FannedOut openings { m with sink := tee } :=
  ⟨holds.served.same same, holds.increasing, holds.notified⟩

/-- A record at the expected offset or above comes after those that were passed. -/
theorem increasing_snoc {done : List Record} {record : Record} {expected : Nat}
    (increasing : done.Pairwise (·.sourceOffset < ·.sourceOffset))
    (passed : ∀ r ∈ done, r.sourceOffset < expected) (above : expected ≤ record.sourceOffset) :
    (done ++ [record]).Pairwise (·.sourceOffset < ·.sourceOffset) := by
  rw [List.pairwise_append]
  refine ⟨increasing, List.pairwise_singleton _ _, fun r mem r' last => ?_⟩
  rw [List.mem_singleton.mp last]
  exact Nat.lt_of_lt_of_le (passed r mem) above

/-- One past a record, the record and those before it are passed. -/
theorem passed_snoc {done : List Record} {record : Record} {expected : Nat}
    (passed : ∀ r ∈ done, r.sourceOffset < expected) (above : expected ≤ record.sourceOffset) :
    ∀ r ∈ done ++ [record], r.sourceOffset < record.sourceOffset + 1 := by
  intro r mem
  rcases List.mem_append.mp mem with earlier | last
  · have := passed r earlier
    omega
  · rw [List.mem_singleton.mp last]
    omega

omit [Source S] in
/-- One delivered record is fanned out and reported, or the run ends with it on its way. -/
theorem deliver_fanningOut {record : Record} {done : List Record}
    (served : ∀ inner ∈ m.sink.inners, Fed done expected inner)
    (openings_eq : m.sink.inners.map (·.sink.opening) = openings)
    (delivered : m.source.delivered = done ++ [record])
    (increasing : done.Pairwise (·.sourceOffset < ·.sourceOffset))
    (passed : ∀ r ∈ done, r.sourceOffset < expected) (notified : m.notifier.notified = done) :
    wp (Mirror.deliver expected record) (fun expected m' => FanningOut openings expected m')
      (fun _ m' => Interrupted openings m') m := by
  -- Refused before it is written, the record has reached nobody.
  have refused : Interrupted openings m := by
    refine ⟨done, [record], delivered, by simp, openings_eq, fun inner mem => ?_, .inl notified⟩
    have fed := served inner mem
    refine ⟨.inl fed.presented, ?_, ?_⟩
    · simp only [fed.accepted, List.prefix_rfl]
    · simp only [fed.accepted, fed.presented, List.prefix_rfl]
  simp only [Mirror.deliver, Mirror.onSink, Mirror.onNotifier, wp_bind, wp_get, wp_focus,
    wp_ensure, wp_pure]
  split
  · rename_i above
    split
    · refine wp_mono (write_tee served above) (fun _ tee took => ?_) (fun _ tee offered => ?_)
      · have reached : Served openings (done ++ [record]) tee.inners := by
          refine ⟨?_, ?_, ?_⟩
          · rw [map_eq_of_forall₂ took fun _ _ step => step.opening]
            exact openings_eq
          · exact forall_mem_of_forall₂ took fun _ _ step => by rw [step.presented, step.opening]
          · exact forall_mem_of_forall₂ took fun _ _ step => by rw [step.accepted, step.opening]
        split
        · rename_i inRange
          have tells : (Notifier.onRecord record : Program NotifyError (Notified N) Unit)
              = (do
                modify fun s => { s with notified := s.notified ++ [record] }
                focus Notified.part id (Notifier.onRecord record)) := rfl
          simp only [tells, wp_bind, wp_modify, wp_focus]
          have told : m.notifier.notified ++ [record] = m.source.delivered := by
            rw [notified, delivered]
          -- Every destination behind the record has taken it before the observer is called.
          refine wp_any (fun _ _ => ?_) (fun _ _ => ?_)
          · refine ⟨?_, reached.openings, ?_, ?_, told⟩
            · show ∀ inner ∈ tee.inners, Fed m.source.delivered (record.sourceOffset + 1) inner
              rw [delivered]
              exact forall_mem_of_forall₂ took fun _ _ step => step.fed inRange
            · show m.source.delivered.Pairwise _
              rw [delivered]
              exact increasing_snoc increasing passed above
            · show ∀ r ∈ m.source.delivered, r.sourceOffset < record.sourceOffset + 1
              rw [delivered]
              exact passed_snoc passed above
          · refine FannedOut.interrupted ⟨?_, ?_, told⟩
            · show Served openings m.source.delivered tee.inners
              rw [delivered]
              exact reached
            · show m.source.delivered.Pairwise _
              rw [delivered]
              exact increasing_snoc increasing passed above
        · -- The loop has no next offset to expect, and stops before the observer is told.
          refine ⟨done, [record], delivered, by simp, reached.openings, fun inner mem => ?_,
            .inl notified⟩
          have presented := reached.presented inner mem
          have accepted := reached.accepted inner mem
          refine ⟨.inr ?_, ?_, ?_⟩
          · show inner.sink.presented = due inner.sink.opening m.source.delivered
            rw [presented, delivered]
          · rw [accepted]
            exact due_prefix _ _ _
          · simp only [accepted, presented, List.prefix_rfl]
      · refine ⟨done, [record], delivered, by simp, ?_, ?_, .inl notified⟩
        · show tee.inners.map _ = openings
          rw [map_eq_of_forall₂ offered fun _ _ step => step.opening]
          exact openings_eq
        · refine forall_mem_of_forall₂ offered fun _ inner' step => ⟨.inr ?_, ?_, step.high⟩
          · show inner'.sink.presented = due inner'.sink.opening m.source.delivered
            rw [step.presented, step.opening, delivered]
          · rw [step.opening]
            exact step.low
    · exact refused
  · exact refused

omit [Source S] [Notifier N] in
/-- An idle poll leaves everything as it was, or ends the run with nothing on its way. -/
theorem verifyIdle_fanningOut (holds : FanningOut openings expected m) :
    wp (Mirror.verifyIdle expected) (fun expected m' => FanningOut openings expected m')
      (fun _ m' => Interrupted openings m') m := by
  simp only [Mirror.verifyIdle, Mirror.onSink, wp_bind, wp_focus, wp_ensure, wp_pure]
  refine wp_mono (nextExpectedOffset_fed holds.fed) (fun next tee ⟨fed, same, _⟩ => ?_)
    (fun _ tee same => (holds.fannedOut.same same).interrupted)
  split
  · exact ⟨fed, (holds.fannedOut.same same).served.openings, holds.increasing, holds.passed,
      holds.notified⟩
  · exact (holds.fannedOut.same same).interrupted

/-- One poll fans out the record it delivers, if it delivers one. -/
theorem poll_fanningOut (holds : FanningOut openings expected m) :
    wp (Mirror.poll expected) (fun expected m' => FanningOut openings expected m')
      (fun _ m' => Interrupted openings m') m := by
  have polls : (Source.pollOne : Program SourceError (Delivering S) (Option Record))
      = (do
        let polled ← focus Delivering.part id Source.pollOne
        modify fun s => { s with delivered := s.delivered ++ polled.toList }
        pure polled) := rfl
  simp only [Mirror.poll, Mirror.onSource, polls, wp_bind, wp_focus, wp_modify, wp_pure]
  refine wp_any (fun polled source => ?_) (fun _ _ => holds.fannedOut.interrupted)
  cases polled with
  | none =>
    refine verifyIdle_fanningOut ⟨?_, holds.openings, ?_, ?_, ?_⟩
    all_goals simp only [Mirror.sourcePart, Delivering.part, Option.toList, List.append_nil]
    · exact holds.fed
    · exact holds.increasing
    · exact holds.passed
    · exact holds.notified
  | some record =>
    exact deliver_fanningOut holds.fed holds.openings rfl holds.increasing holds.passed
      holds.notified

omit [Source S] in
/-- A graceful stop leaves everything fanned out, whether or not it succeeds. -/
theorem stop_fanningOut (holds : FanningOut openings expected m) :
    wp Mirror.stop (fun _ m' => FannedOut openings m') (fun _ m' => Interrupted openings m') m := by
  simp only [Mirror.stop, Mirror.onSink, Mirror.onNotifier, wp_bind, wp_focus]
  refine wp_mono (flush_same m.sink) (fun _ tee same => ?_)
    (fun _ tee same => (holds.fannedOut.same same).interrupted)
  have flushed := holds.fannedOut.same same
  have drains : (Notifier.shutdown : Program NotifyError (Notified N) Unit)
      = focus Notified.part id Notifier.shutdown := rfl
  simp only [drains, wp_focus]
  exact wp_any (fun _ _ => ⟨flushed.served, flushed.increasing, flushed.notified⟩)
    (fun _ _ => FannedOut.interrupted ⟨flushed.served, flushed.increasing, flushed.notified⟩)

/-- However the events go on, every delivered record is fanned out. -/
theorem loop_fanningOut (events : List LoopEvent) (holds : FanningOut openings expected m) :
    wp (Mirror.loop events expected) (fun _ m' => FannedOut openings m')
      (fun _ m' => Interrupted openings m') m := by
  have run := Mirror.loop_rule (fun _ _ (kept : FanningOut openings _ _) => poll_fanningOut kept)
    (fun _ _ kept => ⟨kept.fed, kept.openings, kept.increasing, kept.passed, kept.notified⟩)
    (fun _ _ kept => stop_fanningOut kept) events expected m holds
  refine wp_mono run (fun progress m' left => ?_) (fun _ _ left => left)
  cases progress with
  | running expected => exact left.fannedOut
  | finished => exact left

omit [Notifier N] in
/-- A mirror that has delivered nothing and need not be aligned starts with nothing fanned out. -/
theorem bootstrap_fanningOut (fed : ∀ inner ∈ m.sink.inners, Fed [] 0 inner)
    (openings_eq : m.sink.inners.map (·.sink.opening) = openings)
    (fresh : m.source.delivered = []) (untold : m.notifier.notified = [])
    (aligned : wp (Source.lowWatermark : Program SourceError S Nat)
      (fun low _ => low ≤ m.sink.resumePosition) (fun _ _ => True) m.source.source) :
    wp Mirror.bootstrap (fun expected m' => FanningOut openings expected m')
      (fun _ m' => Interrupted openings m') m := by
  have start : FannedOut openings m := by
    refine ⟨⟨openings_eq, fun inner mem => ?_, fun inner mem => ?_⟩, ?_, untold.trans fresh.symm⟩
    · rw [fresh]
      exact (fed inner mem).presented
    · rw [fresh]
      exact (fed inner mem).accepted
    · rw [fresh]
      exact .nil
  have lows : (Source.lowWatermark : Program SourceError (Delivering S) Nat)
      = focus Delivering.part id Source.lowWatermark := rfl
  have highs : (Source.highWatermark : Program SourceError (Delivering S) Nat)
      = focus Delivering.part id Source.highWatermark := rfl
  have seeks : ∀ offset, (Source.seek offset : Program SourceError (Delivering S) Unit)
      = focus Delivering.part id (Source.seek offset) := fun _ => rfl
  simp only [Mirror.bootstrap, Mirror.onSink, Mirror.onSource, wp_bind, wp_focus, lows, highs,
    seeks, wp_ensure, wp_get, wp_ite, wp_pure]
  refine wp_mono (nextExpectedOffset_fed fed) (fun next tee ⟨fed₁, same₁, answered, _⟩ => ?_)
    (fun _ _ same => (start.same same).interrupted)
  refine wp_mono aligned (fun low source₁ low_le => ?_)
    (fun _ _ _ => (start.same same₁).interrupted)
  refine wp_any (fun high source₂ => ?_) (fun _ _ => (start.same same₁).interrupted)
  refine wp_mono (furthestNextOffset_fed fed₁) (fun furthest tee₂ ⟨fed₂, same₂⟩ => ?_)
    (fun _ tee₂ same₂ => ((start.same same₁).same same₂).interrupted)
  have kept := (start.same same₁).same same₂
  split
  · -- The source still has everything from the resume position on.
    rw [if_neg (Nat.not_lt.mpr (by rw [answered]; exact low_le))]
    refine wp_any (fun _ _ => ?_) (fun _ _ => kept.interrupted)
    -- Nothing was delivered, so a destination is in step with whatever offset comes first.
    refine ⟨fun inner mem => ?_, kept.served.openings, kept.increasing, ?_, kept.notified⟩
    · show Fed m.source.delivered next inner
      rw [fresh]
      exact (fed₂ inner mem).of_start
    · show ∀ record ∈ m.source.delivered, record.sourceOffset < next
      rw [fresh]
      exact fun _ mem => absurd mem List.not_mem_nil
  · exact kept.interrupted

omit [Source S] [Notifier N] in
/-- A tee opened over untouched destinations is in step, its heads where they stand. -/
theorem openTee_fed {cache : Option CacheBinding} {sinks : List (String × K)}
    (owned : ∀ sink ∈ sinks, LawfulSink.owned sink.2) :
    wp (TeeSink.openTee cache)
      (fun tee _ => (∀ inner ∈ tee.inners, Fed [] 0 inner)
        ∧ tee.inners.map (·.sink.opening) = tee.heads.map (·.2)
        ∧ tee.inners.map (·.name) = sinks.map (·.1))
      (fun _ _ => True) (untouched sinks) := by
  simp only [TeeSink.openTee, wp_bind, wp_get, wp_ensure, wp_pure]
  split
  · have each : ∀ inner ∈ untouched sinks,
        wp InnerSink.queryHead
          (fun _ inner' => ((Fed [] 0 inner' ∧ inner'.sink.opening = inner'.head)
            ∧ inner'.name = inner.name) ∧ True)
          (fun _ _ => True ∧ True) inner := by
      intro inner mem
      simp only [untouched, TeeSink.slots, List.map_map, List.mem_map] at mem
      obtain ⟨⟨name, sink⟩, mem, rfl⟩ := mem
      have query : (Sink.nextExpectedOffset : Program SinkError (Recorded K) Nat)
          = focus Recorded.part id Sink.nextExpectedOffset := rfl
      simp only [InnerSink.queryHead, query, wp_bind, wp_focus, wp_modify]
      refine wp_mono (LawfulSink.nextExpectedOffset_spec sink (owned _ mem))
        (fun head sink' ⟨owned', position, answered⟩ => ?_) (fun _ _ _ => ⟨trivial, trivial⟩)
      subst answered
      exact ⟨⟨⟨⟨owned', position.symm, Nat.le_refl _, .inl rfl, rfl, rfl⟩, rfl⟩, rfl⟩, trivial⟩
    refine wp_mono (wp_forEach (fun _ _ => True) (fun _ => True) (fun _ _ => trivial)
      (fun _ _ _ => trivial) each) (fun _ inners ⟨asked, _⟩ => ?_) (fun _ _ _ => trivial)
    refine ⟨forall_mem_of_forall₂ asked fun _ _ step => step.1.1, ?_, ?_⟩
    · have heads := forall_mem_of_forall₂ asked fun _ _ step => step.1.2
      simp only [TeeSink.heads, List.map_map]
      exact List.map_congr_left heads
    · rw [map_eq_of_forall₂ asked fun _ _ step => step.2]
      simp [untouched, TeeSink.slots]
  · trivial

/--
A tee neither loses nor duplicates a record, and tells the observer of each after its destinations.

Up to the first error every inner sink was asked to write exactly the delivered records from its
opening head on, in order, and the observer was told of every delivered record, in order. An
observer may fail at any record it is told of: every destination behind that record had taken it.
-/
theorem tee_fans_out {sinks : List (String × K)} (owned : ∀ sink ∈ sinks, LawfulSink.owned sink.2)
    {cache : Option CacheBinding} {tee : TeeSink (Recorded K)}
    {left : List (InnerSink (Recorded K))}
    (opened : TeeSink.openTee cache (untouched sinks) = .ok tee left)
    (floor : Option Nat) {source : S}
    (aligned : wp (Source.lowWatermark : Program SourceError S Nat)
      (fun low _ => low ≤ (tee.withFloor floor).resumePosition) (fun _ _ => True) source)
    (notifier : N) (events : List LoopEvent) :
    wp (Mirror.runMirrorWithNotifier events)
      (fun _ m => FannedOut (tee.heads.map (·.2)) m)
      (fun _ m => Interrupted (tee.heads.map (·.2)) m)
      ⟨⟨source, []⟩, tee.withFloor floor, ⟨notifier, []⟩⟩ := by
  obtain ⟨fed, openings, -⟩ := wp_of_ok (openTee_fed owned) opened
  have inners : (tee.withFloor floor).inners = tee.inners := by
    cases floor <;> rfl
  simp only [Mirror.runMirrorWithNotifier, wp_bind]
  refine wp_mono (bootstrap_fanningOut ?_ ?_ rfl rfl aligned)
    (fun expected m started => loop_fanningOut events started) (fun _ _ failed => failed)
  · show ∀ inner ∈ (tee.withFloor floor).inners, Fed [] 0 inner
    rw [inners]
    exact fed
  · show (tee.withFloor floor).inners.map _ = _
    rw [inners]
    exact openings

end Run

namespace Sample

/-- A log with a hole, behind a broker that answers every request. -/
def holed : LogSource where
  log := ⟨[record 0, record 1, record 3], by simp [record], by simp [record]⟩
  position := 0
  lowWatermark := 0
  answers _ := ⟨none, false, 4⟩

/-- A tee over two positions in memory, two records apart. -/
def apart : TeeSink (Recorded NoDestinationSink) :=
  ⟨[⟨"a", .start ⟨2⟩, 2⟩, ⟨"b", .start ⟨0⟩, 0⟩], none, none⟩

/-- The mirror of the log to the two positions, read again from the first record. -/
def fanOut : Mirror (Delivering LogSource) (TeeSink (Recorded NoDestinationSink))
    (Notified NoOpNotifier) :=
  ⟨⟨holed, []⟩, apart.withFloor (some 0), ⟨{}, []⟩⟩

/-- Of three records the first destination gets the one it is behind on, the second all of them. -/
theorem tee_fans_out_sample :
    wp (Mirror.runMirrorWithNotifier [.poll, .poll, .heartbeat, .poll, .poll])
      (fun _ m => FannedOut (apart.heads.map (·.2)) m)
      (fun _ m => Interrupted (apart.heads.map (·.2)) m) fanOut
    ∧ (after (Mirror.runMirrorWithNotifier [.poll, .poll, .heartbeat, .poll, .poll])
        fanOut).sink.inners.map (·.sink.accepted)
      = [[record 3], [record 0, record 1, record 3]] := by
  have owned : ∀ sink ∈ [("a", (⟨2⟩ : NoDestinationSink)), ("b", ⟨0⟩)],
      LawfulSink.owned sink.2 := fun _ _ => trivial
  have opened : TeeSink.openTee none (untouched [("a", (⟨2⟩ : NoDestinationSink)), ("b", ⟨0⟩)])
      = .ok apart apart.inners := rfl
  have aligned : wp (Source.lowWatermark : Program SourceError LogSource Nat)
      (fun low _ => low ≤ (apart.withFloor (some 0)).resumePosition) (fun _ _ => True) holed := by
    refine wp_mono (LogSource.lowWatermark_spec holed) (fun low _ answered => ?_)
      (fun _ _ _ => trivial)
    rw [answered.2]
    exact Nat.zero_le _
  have unfolded : fanOut = ⟨⟨holed, []⟩, apart.withFloor (some 0), ⟨NoOpNotifier.mk, []⟩⟩ := rfl
  refine ⟨?_, by decide +kernel⟩
  rw [unfolded]
  exact @tee_fans_out LogSource NoDestinationSink NoOpNotifier _ _ _ _ _ owned none apart _ opened
    (some 0) holed aligned NoOpNotifier.mk [.poll, .poll, .heartbeat, .poll, .poll]

end Sample

end MirrorV3
