import MirrorV3.Core.LogSource
import MirrorV3.Core.NoDestination
import MirrorV3.Core.RunLoop
import MirrorV3.Core.Tee
import MirrorV3.Fs.BlobSink
import MirrorV3.Kafka.Sink

/-! A destination ahead of its source ends the startup before anything is asked but questions. -/

namespace MirrorV3

open Effect

/-- What a party of the loop is asked that moves it. -/
inductive Call where
  | seek (nextOffset : Nat)
  | poll
  | write (record : Record)
  | flush
  | align (lowWatermark : Nat)
  deriving Repr, DecidableEq

/-- A source or a destination that remembers every call that moves it. -/
structure Traced (T : Type) where
  party : T
  calls : List Call

namespace Traced

variable {T ε α : Type}

/-- The source or the destination itself. -/
def part : Part (Traced T) T := ⟨party, fun party t => { t with party }⟩

/-- Pass a call on, remembering it before it is made. -/
def passOn (call : Call) (program : Program ε T α) : Program ε (Traced T) α := do
  modify fun t => { t with calls := t.calls ++ [call] }
  focus part id program

instance [Source T] : Source (Traced T) where
  seek nextOffset := passOn (.seek nextOffset) (Source.seek nextOffset)
  pollOne := passOn .poll Source.pollOne
  abandonPoll t := { t with party := Source.abandonPoll t.party }
  lowWatermark := focus part id Source.lowWatermark
  highWatermark := focus part id Source.highWatermark

instance [Sink T] : Sink (Traced T) where
  nextExpectedOffset := focus part id Sink.nextExpectedOffset
  furthestNextOffset := focus part id Sink.furthestNextOffset
  write record := passOn (.write record) (Sink.write record)
  flush := passOn .flush Sink.flush
  allowsCompactedSource t := Sink.allowsCompactedSource t.party
  allowsOffsetHoles t := Sink.allowsOffsetHoles t.party
  alignToSourceLowWatermark lowWatermark :=
    passOn (.align lowWatermark) (Sink.alignToSourceLowWatermark lowWatermark)

end Traced

/-- A destination without parts of its own: nothing of it is further than where it stands. -/
class SinglePart (K : Type) [Sink K] : Prop where
  furthest : (Sink.furthestNextOffset : Program SinkError K (Option Nat)) = pure none

instance : SinglePart NoDestinationSink := ⟨rfl⟩

instance {σ : Type} [EnvelopeLibraries] [BlobStore σ] : SinglePart (BlobSink σ) := ⟨rfl⟩

instance {β : Type} [Broker β] [PayloadParsers] : SinglePart (KafkaSink β) := ⟨rfl⟩

instance {K₁ K₂ : Type} [Sink K₁] [Sink K₂] [SinglePart K₁] [SinglePart K₂] :
    SinglePart (K₁ ⊕ K₂) where
  furthest := by
    show onEither _ _ = _
    rw [SinglePart.furthest, SinglePart.furthest]
    funext s
    cases s <;> rfl

/-- Whether a run ended because a destination is ahead of the source. -/
def Halt.aheadOfSource : Halt → Bool
  | .failed (.sinkAheadOfSource _ _) => true
  | _ => false

/-- A number is below the greatest of some exactly when it is below one of them. -/
theorem lt_foldl_max_iff {bound first : Nat} {positions : List Nat} :
    bound < positions.foldl max first ↔ bound < first ∨ ∃ p ∈ positions, bound < p := by
  induction positions generalizing first with
  | nil => simp
  | cons p rest ih =>
    have here : bound < max first p ↔ bound < first ∨ bound < p := by omega
    rw [List.foldl_cons, ih, here, or_assoc]
    simp only [List.mem_cons, exists_eq_or_imp]

section Heads

variable {K : Type} [Sink K]

/-- What the query at startup makes of one slot: its head is what the destination answered. -/
def Answered (before after : InnerSink (Traced K)) : Prop :=
  (∃ sink, (Sink.nextExpectedOffset : Program SinkError K Nat) before.sink.party
      = .ok after.head sink)
    ∧ after.sink.calls = before.sink.calls

/-- A slot that was asked, whether or not it answered. -/
def SameCalls (before after : InnerSink (Traced K)) : Prop :=
  after.sink.calls = before.sink.calls

/-- A slot that was refreshed has the destination's answer as its head. -/
theorem refreshHead_answered (inner : InnerSink (Traced K)) :
    wp InnerSink.refreshHead (fun _ inner' => Answered inner inner' ∧ True)
      (fun _ inner' => True ∧ SameCalls inner inner') inner := by
  have query : (Sink.nextExpectedOffset : Program SinkError (Traced K) Nat)
      = focus Traced.part id Sink.nextExpectedOffset := rfl
  simp only [InnerSink.refreshHead, query, wp_bind, wp_focus, wp_get, wp_ensure, wp_set]
  apply wp_intro
  · intro next sink answered
    split
    · exact ⟨⟨⟨sink, answered⟩, rfl⟩, trivial⟩
    · exact ⟨trivial, rfl⟩
  · intro _ _ _
    exact ⟨trivial, rfl⟩

/-- A slot without parts tells its head as the furthest it is, and stays what it was. -/
theorem furthest_eq [SinglePart K] (inner : InnerSink (Traced K)) :
    InnerSink.furthest inner = .ok inner.head inner := by
  have query : (Sink.furthestNextOffset : Program SinkError (Traced K) (Option Nat))
      = focus Traced.part id Sink.furthestNextOffset := rfl
  simp only [InnerSink.furthest, query, SinglePart.furthest]
  rfl

/-- Asked one after the other, the slots tell their heads. -/
theorem forEach_furthest [SinglePart K] (inners : List (InnerSink (Traced K))) :
    forEach InnerSink.furthest inners = .ok (inners.map (·.head)) inners := by
  induction inners with
  | nil => rfl
  | cons inner rest ih => simp [forEach, furthest_eq, ih]

end Heads

section Bootstrap

variable {S K N : Type} [Source S] [Sink K] [Notifier N]
  {m : Mirror (Traced S) (TeeSink (Traced K)) N}

/-- Whether some inner sink answers, as it is now, with an offset above the watermark. -/
def SomeAhead (high : Nat) (tee : TeeSink (Traced K)) : Prop :=
  ∃ inner ∈ tee.inners, ∃ next sink,
    (Sink.nextExpectedOffset : Program SinkError K Nat) inner.sink.party = .ok next sink
      ∧ high < next

/-- Two moments of a mirror between which nobody was asked for anything but an answer. -/
structure OnlyAsked (before after : Mirror (Traced S) (TeeSink (Traced K)) N) : Prop where
  source : after.source.calls = before.source.calls
  sinks : after.sink.inners.map (·.sink.calls) = before.sink.inners.map (·.sink.calls)
  cache : after.sink.cache = before.sink.cache
  notifier : after.notifier = before.notifier

omit [Source S] [Notifier N] in
/-- After the query at startup, one head is above the watermark when one answer was. -/
theorem someAhead_iff {high : Nat} {tee : TeeSink (Traced K)} {inners : List (InnerSink (Traced K))}
    (answered : List.Forall₂ Answered tee.inners inners) :
    high < (inners.map (·.head)).foldl max 0 ↔ SomeAhead high tee := by
  rw [lt_foldl_max_iff]
  constructor
  · rintro (below | ⟨head, listed, above⟩)
    · omega
    · obtain ⟨inner', mem', rfl⟩ := List.mem_map.mp listed
      obtain ⟨inner, mem, ⟨sink, told⟩, -⟩ := exists_of_forall₂ answered mem'
      exact ⟨inner, mem, inner'.head, sink, told, above⟩
  · rintro ⟨inner, mem, next, sink, told, above⟩
    obtain ⟨inner', mem', ⟨sink', told'⟩, -⟩ := exists_after_of_forall₂ answered mem
    -- A destination in one state gives one answer.
    rw [told] at told'
    cases told'
    exact .inr ⟨_, List.mem_map_of_mem mem', above⟩

/-- What a startup that was only asking leaves as it was when it ends with this error. -/
def RefusedAhead (m : Mirror (Traced S) (TeeSink (Traced K)) N) (high : Nat) (halt : Halt)
    (m' : Mirror (Traced S) (TeeSink (Traced K)) N) : Prop :=
  (halt.aheadOfSource = true ↔ SomeAhead high m.sink)
    ∧ (halt.aheadOfSource = true → OnlyAsked m m')

variable [SinglePart K]

omit [Notifier N] in
/-- The startup gets past the check, or fails on it, as some inner sink is ahead or none is. -/
theorem bootstrap_refuses {start low high : Nat} {tee : TeeSink (Traced K)} {source source' : S}
    (started : (Sink.nextExpectedOffset : Program SinkError (TeeSink (Traced K)) Nat) m.sink
      = .ok start tee)
    (lows : (Source.lowWatermark : Program SourceError S Nat) m.source.party = .ok low source)
    (highs : (Source.highWatermark : Program SourceError S Nat) source = .ok high source') :
    wp Mirror.bootstrap (fun _ _ => ¬ SomeAhead high m.sink) (RefusedAhead m high) m := by
  have query : (Sink.nextExpectedOffset : Program SinkError (TeeSink (Traced K)) Nat) = (do
      let _ ← focus TeeSink.innersPart id (forEach InnerSink.refreshHead)
      return (← get).resumePosition) := rfl
  have asked : wp (Sink.nextExpectedOffset : Program SinkError (TeeSink (Traced K)) Nat)
      (fun _ tee => List.Forall₂ Answered m.sink.inners tee.inners ∧ tee.cache = m.sink.cache)
      (fun _ _ => True) m.sink := by
    simp only [query, wp_bind, wp_focus, wp_get, wp_pure]
    have each : ∀ inner ∈ m.sink.inners, wp InnerSink.refreshHead
        (fun _ inner' => Answered inner inner' ∧ True)
        (fun _ inner' => True ∧ SameCalls inner inner') inner :=
      fun inner _ => refreshHead_answered inner
    have same : ∀ inner ∈ m.sink.inners, SameCalls inner inner := fun _ _ => rfl
    exact wp_mono (wp_forEach (fun _ _ => True) (fun _ => True) same (fun _ _ step => step.2) each)
      (fun _ _ ⟨answered, _⟩ => ⟨answered, rfl⟩) (fun _ _ _ => trivial)
  obtain ⟨answered, cached⟩ := wp_of_ok asked started
  have ahead : high < (tee.inners.map (·.head)).foldl max 0 ↔ SomeAhead high m.sink :=
    someAhead_iff answered
  have told : (Sink.furthestNextOffset : Program SinkError (TeeSink (Traced K)) _) tee
      = .ok (some ((tee.inners.map (·.head)).foldl max 0)) tee := by
    show (focus TeeSink.innersPart id (forEach InnerSink.furthest) >>= _) tee = _
    simp only [bind, EStateM.bind, focus, TeeSink.innersPart, forEach_furthest]
    rfl
  have lowAsked : (Source.lowWatermark : Program SourceError (Traced S) Nat)
      = focus Traced.part id Source.lowWatermark := rfl
  have highAsked : (Source.highWatermark : Program SourceError (Traced S) Nat)
      = focus Traced.part id Source.highWatermark := rfl
  have seeks : ∀ offset, (Source.seek offset : Program SourceError (Traced S) Unit)
      = Traced.passOn (.seek offset) (Source.seek offset) := fun _ => rfl
  -- The three questions are answered, and the fourth asks the heads that the first one refreshed.
  simp only [Mirror.bootstrap, Mirror.onSink, Mirror.onSource, wp_bind, wp_focus, lowAsked,
    highAsked, Mirror.sinkPart, Mirror.sourcePart, Traced.part, wp_eq_of_ok started,
    wp_eq_of_ok lows, wp_eq_of_ok highs, wp_eq_of_ok told, wp_ensure, Option.getD_some, wp_get]
  split
  · rename_i within
    have none_ahead : ¬ SomeAhead high m.sink := by
      rw [← ahead]
      omega
    -- From here on no step ends with this error.
    have passes : ∀ (halt : Halt) (m' : Mirror (Traced S) (TeeSink (Traced K)) N),
        halt.aheadOfSource = false → RefusedAhead m high halt m' := by
      intro halt m' other
      refine ⟨⟨fun ends => ?_, fun ends => absurd ends none_ahead⟩, fun ends => ?_⟩
      · exact absurd (other.symm.trans ends) Bool.false_ne_true
      · exact absurd (other.symm.trans ends) Bool.false_ne_true
    split
    · split
      · simp only [wp_bind, wp_focus, wp_pure]
        refine wp_any (fun _ _ => ?_) (fun _ _ => passes _ _ rfl)
        exact wp_any (fun _ _ => none_ahead) (fun _ _ => passes _ _ rfl)
      · exact passes _ _ rfl
    · simp only [wp_bind, wp_focus, wp_pure]
      exact wp_any (fun _ _ => none_ahead) (fun _ _ => passes _ _ rfl)
  · rename_i beyond
    refine ⟨⟨fun _ => ahead.mp (by omega), fun _ => rfl⟩, fun _ => ⟨rfl, ?_, cached, rfl⟩⟩
    exact map_eq_of_forall₂ answered fun _ _ step => step.2

omit [SinglePart K] in
/-- Once the loop runs, it never ends with this error. -/
theorem loop_refuses (events : List LoopEvent) (expected : Nat) :
    wp (Mirror.loop events expected) (fun _ _ => True) (fun halt _ => halt.aheadOfSource = false)
      m := by
  have delivers : ∀ expected record (m : Mirror (Traced S) (TeeSink (Traced K)) N),
      wp (Mirror.deliver expected record) (fun _ _ => True)
        (fun halt _ => halt.aheadOfSource = false) m := by
    intro expected record m
    simp only [Mirror.deliver, Mirror.onSink, Mirror.onNotifier, wp_bind, wp_ensure, wp_get,
      wp_focus, wp_pure]
    split
    · split
      · refine wp_any (fun _ tee => ?_) (fun _ _ => rfl)
        split
        · exact wp_any (fun _ _ => trivial) (fun _ _ => rfl)
        · rfl
      · rfl
    · rfl
  have run := @Mirror.loop_rule (Traced S) (TeeSink (Traced K)) N _ _ _ (fun _ _ => True)
    (fun _ => True) (fun halt _ => halt.aheadOfSource = false) (fun expected m _ => ?_)
    (fun _ _ _ => trivial) (fun _ m _ => ?_) events expected m trivial
  · exact wp_mono run (fun _ _ _ => trivial) (fun _ _ failed => failed)
  · simp only [Mirror.poll, Mirror.verifyIdle, Mirror.onSource, Mirror.onSink, wp_bind, wp_focus]
    refine wp_any (fun polled source => ?_) (fun _ _ => rfl)
    cases polled with
    | some record => exact delivers expected record _
    | none =>
      simp only [wp_bind, wp_focus, wp_ensure, wp_pure]
      refine wp_any (fun current tee => ?_) (fun _ _ => rfl)
      split
      · trivial
      · rfl
  · simp only [Mirror.stop, Mirror.onSink, Mirror.onNotifier, wp_bind, wp_focus]
    exact wp_any (fun _ _ => wp_any (fun _ _ => trivial) (fun _ _ => rfl)) (fun _ _ => rfl)

/--
A destination ahead of its source is refused before anything is read or written.

The queries of the startup are answered, and then the run ends with this error exactly when some
inner sink answered with an offset above the high watermark, wherever the floor, the other heads
and the low watermark are.
It then ended before any seek, poll, alignment, write or flush, and the view and the observer are
as they were.
-/
theorem ahead_of_source_iff {start low high : Nat} {tee : TeeSink (Traced K)} {source source' : S}
    (started : (Sink.nextExpectedOffset : Program SinkError (TeeSink (Traced K)) Nat) m.sink
      = .ok start tee)
    (lows : (Source.lowWatermark : Program SourceError S Nat) m.source.party = .ok low source)
    (highs : (Source.highWatermark : Program SourceError S Nat) source = .ok high source')
    (events : List LoopEvent) :
    ((∃ halt m', Mirror.runMirrorWithNotifier events m = .error halt m'
        ∧ halt.aheadOfSource = true) ↔ SomeAhead high m.sink)
      ∧ ∀ halt m', Mirror.runMirrorWithNotifier events m = .error halt m' →
        halt.aheadOfSource = true → OnlyAsked m m' := by
  have run : wp (Mirror.runMirrorWithNotifier events) (fun _ _ => ¬ SomeAhead high m.sink)
      (RefusedAhead m high) m := by
    simp only [Mirror.runMirrorWithNotifier, wp_bind]
    refine wp_mono (bootstrap_refuses started lows highs) (fun expected m' none_ahead => ?_)
      (fun _ _ refused => refused)
    refine wp_mono (loop_refuses events expected) (fun _ _ _ => none_ahead)
      (fun halt m'' other => ?_)
    -- The loop ends with other errors only.
    refine ⟨⟨fun ends => ?_, fun ahead => absurd ahead none_ahead⟩, fun ends => ?_⟩
    · exact absurd (other.symm.trans ends) Bool.false_ne_true
    · exact absurd (other.symm.trans ends) Bool.false_ne_true
  refine ⟨⟨?_, fun ahead => ?_⟩, fun halt m' ended => (wp_of_error run ended).2⟩
  · rintro ⟨halt, m', ended, refused⟩
    exact (wp_of_error run ended).1.mp refused
  · -- With some inner sink ahead, the run neither goes on nor ends with another error.
    cases outcome : Mirror.runMirrorWithNotifier events m with
    | ok progress m' => exact absurd ahead (wp_of_ok run outcome)
    | error halt m' => exact ⟨halt, m', rfl, (wp_of_error run outcome).1.mpr ahead⟩

end Bootstrap

namespace Sample

/-- A recreated topic of four records, the first of them trimmed already. -/
def recreated : LogSource where
  log := ⟨[record 1, record 2, record 3], by simp [record], by simp [record]⟩
  position := 0
  lowWatermark := 1
  answers _ := ⟨none, false, 4⟩

/-- Its mirror to two positions in memory, one of which the old topic brought to nine. -/
def outlived : Mirror (Traced LogSource) (TeeSink (Traced NoDestinationSink)) NoOpNotifier :=
  ⟨⟨recreated, []⟩, ⟨[⟨"a", ⟨⟨0⟩, []⟩, 0⟩, ⟨"b", ⟨⟨9⟩, []⟩, 9⟩], none, some 0⟩, {}⟩

/-- The floor at zero and the first position hide the second one, which is found all the same. -/
theorem ahead_of_source_iff_sample :
    ∃ halt m', Mirror.runMirrorWithNotifier [.poll, .poll] outlived = .error halt m'
      ∧ halt.aheadOfSource = true ∧ OnlyAsked outlived m' := by
  obtain ⟨refused, asked⟩ := ahead_of_source_iff (m := outlived) rfl rfl rfl [.poll, .poll]
  have ahead : SomeAhead 4 outlived.sink :=
    ⟨⟨"b", ⟨⟨9⟩, []⟩, 9⟩, List.mem_cons_of_mem _ List.mem_cons_self, 9, ⟨⟨9⟩, rfl, by decide⟩⟩
  obtain ⟨halt, m', ended, error⟩ := refused.mpr ahead
  exact ⟨halt, m', ended, error, asked halt m' ended error⟩

end Sample

end MirrorV3
