import MirrorV3.Core.Tee

/-! The error of a tee whose inner sinks fail together: the first one's, whatever the others say. -/

namespace MirrorV3

open Effect

variable {K : Type}

/-- A call on a destination that may fail. -/
inductive SinkCall where
  | write (record : Record)
  | flush
  | align (lowWatermark : Nat)
  | nextExpectedOffset

namespace SinkCall

variable [Sink K]

/-- Make the call, whatever it answers. -/
def run : SinkCall → Program SinkError K Unit
  | .write record => Sink.write record
  | .flush => Sink.flush
  | .align lowWatermark => Sink.alignToSourceLowWatermark lowWatermark
  | .nextExpectedOffset => do let _ ← Sink.nextExpectedOffset

/-- The failure of the first inner sink that fails, among those asked before one went back. -/
def firstAsked : List (InnerSink K) → Option SinkError
  | [] => none
  | inner :: inners =>
    match (Sink.nextExpectedOffset : Program SinkError K Nat) inner.sink with
    | .error e _ => some e
    | .ok head _ => if inner.head ≤ head then firstAsked inners else none

/-- The errors of the inner sinks that fail in a call on their tee, in their order. -/
def failures (tee : TeeSink K) : SinkCall → List SinkError
  | .write record =>
    (tee.inners.filter (·.head ≤ record.sourceOffset)).filterMap fun inner =>
      failure? (run (.write record)) inner.sink
  | .nextExpectedOffset => (firstAsked tee.inners).toList
  | call => tee.inners.filterMap fun inner => failure? call.run inner.sink

/-- When inner sinks fail the tee fails too, and only their transport failures can be retried. -/
def StaysFatal (call : SinkCall) (tee : TeeSink K) : Prop :=
  call.failures tee ≠ [] → ∃ e, failure? call.run tee = some e
    ∧ ((∃ f ∈ call.failures tee, f.isTransient = false) → e.isTransient = false)
    ∧ ((∀ f ∈ call.failures tee, f.isTransient = true) → e.isTransient = true)

variable {tee : TeeSink K} {inner : InnerSink K}

/-- An inner sink past the record is not written to, and any other names itself in its error. -/
theorem failure?_write (record : Record) :
    failure? (InnerSink.write record) inner
      = if inner.head ≤ record.sourceOffset then
          (failure? (run (.write record)) inner.sink).map (·.context s!"inner sink {inner.name}")
        else none := by
  show failure? (ite (inner.head ≤ record.sourceOffset) (_ >>= _) (pure ())) inner = _
  split
  · -- Moving the head on afterwards cannot fail.
    rw [failure?_bind _ _ fun _ _ => rfl, failure?_focus]
    rfl
  · rfl

/-- An inner sink that is flushed names itself in its error. -/
theorem failure?_flush :
    failure? InnerSink.flush inner
      = (failure? (run .flush) inner.sink).map (·.context s!"inner sink {inner.name} flush") :=
  failure?_focus InnerSink.sinkPart _ Sink.flush inner

/-- An inner sink that is aligned names itself in its error. -/
theorem failure?_align (lowWatermark : Nat) :
    failure? (InnerSink.align lowWatermark) inner
      = (failure? (run (.align lowWatermark)) inner.sink).map
          (·.context s!"inner sink {inner.name} align") :=
  failure?_focus InnerSink.sinkPart _ (Sink.alignToSourceLowWatermark lowWatermark) inner

/-- An inner sink that is asked where it stands fails by itself, or went back. -/
theorem failure?_refreshHead :
    failure? InnerSink.refreshHead inner
      = match (Sink.nextExpectedOffset : Program SinkError K Nat) inner.sink with
        | .error e _ => some e
        | .ok head _ =>
          if inner.head ≤ head then none
          else some (.inconsistent (s!"inner sink {inner.name}: destination went back "
            ++ s!"from next offset {inner.head} to {head}")) := by
  apply failure?_of_wp
  simp only [InnerSink.refreshHead, wp_bind, wp_focus, wp_get, wp_ensure, wp_set]
  apply wp_intro
  · intro head sink answered
    have answered : (Sink.nextExpectedOffset : Program SinkError K Nat) inner.sink = .ok head sink :=
      answered
    rw [answered]
    -- The head known so far is compared with the one answered.
    show if inner.head ≤ head then _ else _
    by_cases onward : inner.head ≤ head
    · rw [if_pos onward]
      exact if_pos onward
    · rw [if_neg onward]
      exact if_neg onward
  · intro e sink failed
    have failed : (Sink.nextExpectedOffset : Program SinkError K Nat) inner.sink = .error e sink :=
      failed
    rw [failed]
    rfl

/-- The first inner sink to fail is the failure of the tee, unless one before it went back. -/
theorem firstAsked_eq {inners : List (InnerSink K)} {e : SinkError}
    (first : firstAsked inners = some e) :
    inners.findSome? (failure? InnerSink.refreshHead) = some e := by
  induction inners with
  | nil => cases first
  | cons inner inners ih =>
    rw [List.findSome?_cons, failure?_refreshHead]
    rw [firstAsked] at first
    split at first
    · -- It is asked and fails, whatever those after it would say.
      exact first
    · -- It answers, and only one that went on leaves the next to be asked.
      split at first
      · rename_i onward
        rw [if_pos onward]
        exact ih first
      · cases first

omit [Sink K] in
/-- Errors that are only named differently are worth retrying alike. -/
theorem map_isTransient_filterMap {inners : List (InnerSink K)}
    {program : Program SinkError (InnerSink K) Unit} {failed : InnerSink K → Option SinkError}
    {context : InnerSink K → String}
    (named : ∀ inner ∈ inners,
      failure? program inner = (failed inner).map (·.context (context inner))) :
    (inners.filterMap (failure? program)).map (·.isTransient)
      = (inners.filterMap failed).map (·.isTransient) := by
  induction inners with
  | nil => rfl
  | cons inner inners ih =>
    have rest := ih fun other mem => named other (List.mem_cons_of_mem _ mem)
    rw [List.filterMap_cons, List.filterMap_cons, named inner List.mem_cons_self]
    cases failed inner with
    | none => exact rest
    | some e =>
      simp only [Option.map_some, List.map_cons, SinkError.context_isTransient, rest]

/-- Where some inner sink fails, the tee fails with an error of the kind of the first of them. -/
theorem failure?_tee (call : SinkCall) (tee : TeeSink K) {first : SinkError}
    (ahead : (call.failures tee).head? = some first) :
    ∃ e, failure? call.run tee = some e ∧ e.isTransient = first.isTransient := by
  -- Side by side, the error reported is the first in the order of the tee.
  have together : ∀ {program : Program SinkError (InnerSink K) Unit},
      (tee.inners.filterMap (failure? program)).map (·.isTransient)
        = (call.failures tee).map (·.isTransient) →
      ∃ e, failure? (forAll program) tee.inners = some e ∧ e.isTransient = first.isTransient := by
    intro program same
    have heads := congrArg List.head? same
    rw [List.head?_map, List.head?_map, ahead, Option.map_some, Option.map_eq_some_iff] at heads
    obtain ⟨e, found, alike⟩ := heads
    exact ⟨e, (failure?_forAll program tee.inners).trans found, alike⟩
  -- What the tee does besides cannot fail.
  have alone : ∀ {program : Program SinkError (InnerSink K) Unit} {before : TeeSink K}
      (after : Unit → Program SinkError (TeeSink K) Unit),
      (∀ b s, failure? (after b) s = none) → before.inners = tee.inners →
      failure? (focus TeeSink.innersPart id (forAll program) >>= after) before
        = failure? (forAll program) tee.inners := by
    intro program before after never same
    rw [failure?_bind _ _ never, failure?_focus, Option.map_id_fun, id]
    exact congrArg (failure? (forAll program)) same
  cases call with
  | write record =>
    -- The inner sinks past the record take no part, as when they are left out from the start.
    have behind : failures tee (.write record) = tee.inners.filterMap fun inner =>
        if inner.head ≤ record.sourceOffset then failure? (run (.write record)) inner.sink
        else none := by
      simp only [failures, List.filterMap_filter, decide_eq_true_eq]
    obtain ⟨e, failed, alike⟩ := @together (InnerSink.write record) (by
      rw [behind]
      apply map_isTransient_filterMap
      intro inner _
      rw [failure?_write]
      split <;> rfl)
    refine ⟨e, ?_, alike⟩
    exact (@alone _ (tee.applyToCache record)
      (fun _ => modify (TeeSink.advanceResumeCursor record.sourceOffset)) (fun _ _ => rfl)
      rfl).trans failed
  | flush =>
    obtain ⟨e, failed, alike⟩ := @together InnerSink.flush
      (map_isTransient_filterMap fun inner _ => failure?_flush)
    refine ⟨e, ?_, alike⟩
    show failure? (focus TeeSink.innersPart id (forAll InnerSink.flush)) tee = _
    rw [failure?_focus, Option.map_id_fun, id]
    exact failed
  | align lowWatermark =>
    obtain ⟨e, failed, alike⟩ := @together (InnerSink.align lowWatermark)
      (map_isTransient_filterMap fun inner _ => failure?_align lowWatermark)
    refine ⟨e, ?_, alike⟩
    exact (@alone _ tee (fun _ => modify fun s =>
      { s with inners := s.inners.map ({ · with head := lowWatermark }) }) (fun _ _ => rfl)
      rfl).trans failed
  | nextExpectedOffset =>
    -- One after the other, the first to fail is the only one.
    have asked : firstAsked tee.inners = some first := by
      rwa [failures, Option.head?_toList] at ahead
    refine ⟨first, ?_, rfl⟩
    show failure? ((focus TeeSink.innersPart id (forEach InnerSink.refreshHead) >>= _) >>= _) tee = _
    rw [failure?_bind _ _ fun _ _ => rfl, failure?_bind _ _ fun _ _ => rfl, failure?_focus,
      Option.map_id_fun, id]
    exact (failure?_forEach _ tee.inners).trans (firstAsked_eq asked)

end SinkCall

open SinkCall

/--
A fatal failure of an inner sink stays fatal through the tee exactly when it is not overtaken.

The error of a tee is that of the first inner sink that fails, so a transport failure hides every
failure after it.
-/
theorem stays_fatal_iff [Sink K] (call : SinkCall) (tee : TeeSink K) :
    call.StaysFatal tee ↔ ∀ first ∈ (call.failures tee).head?, first.isTransient = true →
      ∀ f ∈ call.failures tee, f.isTransient = true := by
  constructor
  · intro stays first ahead retried f mem
    obtain ⟨e, failed, alike⟩ := failure?_tee call tee ahead
    have some_ : call.failures tee ≠ [] := List.ne_nil_of_mem mem
    obtain ⟨e', failed', fatal, -⟩ := stays some_
    obtain rfl : e = e' := Option.some.inj (failed.symm.trans failed')
    -- The tee's error can be retried, so no failure was a fatal one.
    by_contra fatal'
    rw [Bool.not_eq_true] at fatal'
    rw [fatal ⟨f, mem, fatal'⟩, retried] at alike
    cases alike
  · intro unhidden some_
    obtain ⟨first, ahead⟩ : ∃ first, (call.failures tee).head? = some first := by
      rw [← Option.isSome_iff_exists, List.isSome_head?]
      simpa using some_
    obtain ⟨e, failed, alike⟩ := failure?_tee call tee ahead
    refine ⟨e, failed, ?_, ?_⟩
    · rintro ⟨f, mem, fatal⟩
      cases retried : first.isTransient with
      | false => rw [alike, retried]
      | true =>
        rw [unhidden first ahead retried f mem] at fatal
        cases fatal
    · intro retried
      rw [alike]
      exact retried first (List.mem_of_head? ahead)

namespace Sample

/-- A destination that refuses every call, as a test's does. -/
structure Failing where
  error : SinkError

instance : Sink Failing where
  nextExpectedOffset := do throw (← get).error
  write _ := do throw (← get).error
  flush := do throw (← get).error
  alignToSourceLowWatermark _ := do throw (← get).error

/-- A bucket that cannot be reached, before a topic that stands elsewhere than it should. -/
def overtaken : TeeSink Failing where
  inners := [⟨"archive", ⟨.transport "timed out"⟩, 3⟩, ⟨"topic", ⟨.unexpectedPosition 5 3⟩, 3⟩]
  cache := none
  resumeCursor := none

/-- The bucket's timeout hides the topic's mismatch, and the mirror would be opened again. -/
theorem not_stays_fatal : ¬ (SinkCall.write (record 3)).StaysFatal overtaken := by
  intro stays
  obtain ⟨e, failed, fatal, -⟩ := stays (by decide)
  have reported : failure? (SinkCall.write (record 3)).run overtaken
      = some ((SinkError.transport "timed out").context "inner sink archive") := rfl
  rw [reported] at failed
  cases failed
  exact absurd (fatal ⟨.unexpectedPosition 5 3, by decide, rfl⟩) (by decide)

end Sample

end MirrorV3
