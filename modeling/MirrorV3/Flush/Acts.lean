import MirrorV3.Flush.Announced
import MirrorV3.Flush.Telling
import MirrorV3.Lib.Interleave

/-! A tee with everything it lets happen in one order: deliveries, stores and calls of observers. -/

namespace MirrorV3

open Effect Interleave

/-- What happens while a tee serves its destinations. -/
inductive Act where
  /-- A record is handed to the tee, and whether its fan-out may announce it too early. -/
  | delivered (record : Record) (risky : Bool)
  /-- A destination calls the observer it was given, with this stored behind it. -/
  | flushed (event : FlushEvent) (found : Content)
  /-- A destination is through with its part of an operation, with this stored behind it. -/
  | rested (inner : Nat) (found : Content)
  deriving Repr, DecidableEq

/-- The inner sink an act of a destination is of. -/
def Act.inner : Act → Nat
  | .delivered _ _ => 0
  | .flushed event _ => event.inner
  | .rested inner _ => inner

/-- The records among some acts that were handed to the tee. -/
def delivered (acts : List Act) : List Record :=
  acts.filterMap fun act =>
    match act with
    | .delivered record _ => some record
    | _ => none

/-- The calls of observers among some acts. -/
def flushEvents (acts : List Act) : List FlushEvent :=
  acts.filterMap fun act =>
    match act with
    | .flushed event _ => some event
    | _ => none

/-- The ranges an inner sink told of in some acts. -/
def toldBy (inner : Nat) (acts : List Act) : List (Nat × Nat) := rangesOf inner (flushEvents acts)

/-- The call an act is for an inner sink, with what was stored by then. -/
def Act.callBy? (inner : Nat) : Act → Option NotedCall
  | .flushed event found =>
    if event.inner = inner then some ⟨(event.from_, event.to_), found⟩ else none
  | _ => none

/-- What an act shows to be stored behind an inner sink. -/
def Act.foundBy? (inner : Nat) : Act → Option Content
  | .flushed event found => if event.inner = inner then some found else none
  | .rested other found => if other = inner then some found else none
  | .delivered _ _ => none

/-- The calls of an inner sink in some acts. -/
def callsBy (inner : Nat) (acts : List Act) : List NotedCall := acts.filterMap (·.callBy? inner)

/-- What was stored behind an inner sink whenever some acts show it. -/
def foundBy (inner : Nat) (acts : List Act) : List Content := acts.filterMap (·.foundBy? inner)

section Acts

variable {acts more : List Act} {inner : Nat}

/-- Calls of a first part and of what follows it. -/
theorem flushEvents_append : flushEvents (acts ++ more) = flushEvents acts ++ flushEvents more := by
  simp [flushEvents]

/-- What was delivered in the first of some acts was delivered first. -/
theorem delivered_isPrefix (first : acts <+: more) : delivered acts <+: delivered more :=
  first.filterMap _

/-- The records of a first part and of what follows it. -/
theorem delivered_append : delivered (acts ++ more) = delivered acts ++ delivered more := by
  simp [delivered]

/-- A record was delivered with some risk. -/
theorem mem_delivered {record : Record} :
    record ∈ delivered acts ↔ ∃ risky, .delivered record risky ∈ acts := by
  -- Only a delivery gives a record.
  rw [delivered, List.mem_filterMap]
  constructor
  · rintro ⟨act, mem, gives⟩
    cases act with
    | delivered other risky =>
      obtain rfl : other = record := Option.some.inj gives
      exact ⟨risky, mem⟩
    | flushed event found => cases gives
    | rested inner found => cases gives
  · rintro ⟨risky, mem⟩
    exact ⟨_, mem, rfl⟩

/-- The ranges an inner sink told of are those of its calls. -/
theorem toldBy_eq (inner : Nat) (acts : List Act) :
    toldBy inner acts = (callsBy inner acts).map (·.range) := by
  -- Act by act: only a call of the inner sink itself counts on either side.
  induction acts with
  | nil => rfl
  | cons act acts ih =>
    have split : toldBy inner (act :: acts) = toldBy inner [act] ++ toldBy inner acts := by
      simp only [toldBy, ← rangesOf_append, ← flushEvents_append, List.singleton_append]
    rw [split, ih]
    cases act with
    | delivered record risky => rfl
    | rested other found => rfl
    | flushed event found =>
      by_cases own : event.inner = inner
      · simp [toldBy, flushEvents, rangesOf, callsBy, Act.callBy?, own]
      · simp [toldBy, flushEvents, rangesOf, callsBy, Act.callBy?, own]

/-- The ranges of a first part and of what follows it. -/
theorem toldBy_append : toldBy inner (acts ++ more) = toldBy inner acts ++ toldBy inner more := by
  simp [toldBy, flushEvents_append, rangesOf_append]

/-- What an act gives for an inner sink is an act of that inner sink. -/
theorem filterMap_filter_inner {β : Type} {gives : Act → Option β}
    (own : ∀ act, gives act ≠ none → act.inner = inner) (acts : List Act) :
    (acts.filter (·.inner = inner)).filterMap gives = acts.filterMap gives := by
  -- What is filtered out would have given nothing.
  rw [List.filterMap_filter]
  refine List.filterMap_congr fun act _ => ?_
  by_cases mine : act.inner = inner
  · simp [mine]
  · have nothing : gives act = none := by
      by_contra gave
      exact mine (own act gave)
    simp [mine, nothing]

/-- The calls of an inner sink are among its own acts. -/
theorem callsBy_filter (inner : Nat) (acts : List Act) :
    callsBy inner (acts.filter (·.inner = inner)) = callsBy inner acts := by
  -- A call is an act of the inner sink it is a call of.
  refine filterMap_filter_inner (fun act gave => ?_) acts
  cases act with
  | delivered record risky => exact absurd rfl gave
  | rested other found => exact absurd rfl gave
  | flushed event found =>
    by_contra other
    exact gave (if_neg other)

/-- What is found behind an inner sink is shown by its own acts. -/
theorem foundBy_filter (inner : Nat) (acts : List Act) :
    foundBy inner (acts.filter (·.inner = inner)) = foundBy inner acts := by
  -- So is what is found.
  refine filterMap_filter_inner (fun act gave => ?_) acts
  cases act with
  | delivered record risky => exact absurd rfl gave
  | rested other found =>
    by_contra differs
    exact gave (if_neg differs)
  | flushed event found =>
    by_contra differs
    exact gave (if_neg differs)

/-- What was found at a call was found. -/
theorem found_of_callsBy {call : NotedCall} (mem : call ∈ callsBy inner acts) :
    call.found ∈ foundBy inner acts := by
  obtain ⟨act, listed, gives⟩ := List.mem_filterMap.mp mem
  cases act with
  | delivered record risky => cases gives
  | rested other found => cases gives
  | flushed event found =>
    refine List.mem_filterMap.mpr ⟨.flushed event found, listed, ?_⟩
    simp only [Act.callBy?] at gives
    split at gives
    · rename_i own
      cases gives
      exact if_pos own
    · cases gives

end Acts

variable {K : Type} [FlushingSink K] [HoldingSink K] [TriggeredSink K]

namespace TeeSink

/--
Whether an observer may hear of a record before every destination has it.

That takes a destination that stores record by record and is due for it, and that all destinations
that flush do so with this very record.
-/
def atRisk (record : Record) (tee : TeeSink K) : Bool :=
  (tee.inners.any fun inner => FlushingSink.supportsFlushObserver inner.sink)
    && (tee.inners.any fun inner => !FlushingSink.supportsFlushObserver inner.sink
      && decide (inner.head ≤ record.sourceOffset))
    && (tee.inners.all fun inner => !FlushingSink.supportsFlushObserver inner.sink
      || (decide (inner.head ≤ record.sourceOffset)
        && TriggeredSink.flushesWith record inner.sink))

end TeeSink

/-- A tee, what happened in it, and how what its destinations do next will be scheduled. -/
structure WatchedTee (K : Type) where
  tee : TeeSink K
  acts : List Act
  schedules : Stream' (Schedule Act.inner)

/-- The record that is handed to the tee, if one is. -/
def handed (record : Option Record) (tee : TeeSink K) : List Act :=
  (record.map fun r => .delivered r (tee.atRisk r)).toList

/-- What one inner sink did between two states: its calls, and how it was left. -/
def segment (i : Nat) (before after : InnerSink K) : List Act :=
  ((HoldingSink.calls after.sink).drop (HoldingSink.calls before.sink).length).map
      (fun call => .flushed ⟨i, call.range.1, call.range.2⟩ call.found)
    ++ [.rested i (HoldingSink.found after.sink)]

/-- What every inner sink did. -/
def segments (before after : List (InnerSink K)) : List (List Act) :=
  (before.zip after).mapIdx fun i slots => segment i slots.1 slots.2

omit [HoldingSink K] in
/-- What is handed over is the record that is due, with its risk. -/
theorem mem_handed {record : Option Record} {tee : TeeSink K} {act : Act} :
    act ∈ handed record tee ↔ ∃ r ∈ record, act = .delivered r (tee.atRisk r) := by
  cases record <;> simp [handed]

namespace WatchedTee

/-- The tee in its next state, with what its inner sinks did on the way in some order. -/
def watch (record : Option Record) (tee : TeeSink K) (w : WatchedTee K) : WatchedTee K where
  tee := tee
  acts := w.acts
    ++ handed record w.tee
    ++ w.schedules.head.merge (segments w.tee.inners tee.inners)
  schedules := w.schedules.tail

/-- Run an operation of the tee and watch it. -/
def watching {α : Type} (record : Option Record) (program : Program SinkError (TeeSink K) α) :
    Program SinkError (WatchedTee K) α := fun w =>
  match program w.tee with
  | .ok a tee => .ok a (w.watch record tee)
  | .error e tee => .error e (w.watch record tee)

/-- Watched, an operation ends as it does. -/
@[simp] theorem wp_watching {α : Type} (record : Option Record)
    (program : Program SinkError (TeeSink K) α) {post : α → WatchedTee K → Prop}
    {fail : SinkError → WatchedTee K → Prop} {w : WatchedTee K} :
    wp (watching record program) post fail w
      = wp program (fun a tee => post a (w.watch record tee))
          (fun e tee => fail e (w.watch record tee)) w.tee := by
  simp only [wp, watching]
  cases program w.tee with
  | ok a tee => rfl
  | error e tee => rfl

instance [Sink K] : Sink (WatchedTee K) where
  nextExpectedOffset := watching none Sink.nextExpectedOffset
  furthestNextOffset := watching none Sink.furthestNextOffset
  write record := watching (some record) (Sink.write record)
  flush := watching none Sink.flush
  allowsCompactedSource w := Sink.allowsCompactedSource w.tee
  allowsOffsetHoles w := Sink.allowsOffsetHoles w.tee
  alignToSourceLowWatermark lowWatermark :=
    watching none (Sink.alignToSourceLowWatermark lowWatermark)

end WatchedTee

/--
What was last found stored behind an inner sink holds a record.

It is read back under the settings of the destination in the inner sink's slot.
-/
def DurablyHolds (sink : K) (acts : List Act) (inner : Nat) (record : Record) : Prop :=
  ∃ found ∈ (foundBy inner acts).getLast?, HoldingSink.Holds sink found (delivered acts) record

/--
Whatever the observer of a tee is told of, every inner sink durably holds by then.

That is every delivered record up to the end of the range, at the inner sink's opening head or
above.
-/
def TellsTruth (tee : TeeSink K) (acts : List Act) : Prop :=
  ∀ before event found, before ++ [.flushed event found] <+: acts →
    ∀ range ∈ ((tee.flushWiring.after (flushEvents before)).onFlushed event).2,
      ∀ i inner, tee.inners[i]? = some inner →
        ∀ record ∈ delivered before, record.sourceOffset ≤ range.2 →
          inner.head ≤ record.sourceOffset →
            DurablyHolds inner.sink (before ++ [.flushed event found]) i record

/-- Acts among which no delivery was risky. -/
def Harmless (acts : List Act) : Prop := ∀ record, .delivered record true ∉ acts

end MirrorV3
