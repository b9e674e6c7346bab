import MirrorV3.Core.NoDestination
import MirrorV3.Core.Tee
import MirrorV3.Fs.BlobSink
import MirrorV3.Kafka.Sink
import MirrorV3.Lib.Ranges

/-! How a tee tells one observer what its destinations made durable. -/

namespace MirrorV3

/-- A destination that may tell an observer of what it makes durable. -/
class FlushingSink (K : Type) where
  /-- Whether the destination ever calls an observer that is installed. -/
  supportsFlushObserver : K → Bool := fun _ => false
  /-- Install an observer that was not told of anything yet. -/
  setFlushObserver : K → K := id

/-- A blob destination tells of every object it wrote. -/
instance {σ : Type} : FlushingSink (BlobSink σ) where
  supportsFlushObserver _ := true
  setFlushObserver s := { s with flushObserver := some [] }

/-- A Kafka destination has every record as soon as it took it, and tells of none. -/
instance {β : Type} : FlushingSink (KafkaSink β) where

/-- A position in memory is never flushed. -/
instance : FlushingSink NoDestinationSink where

instance {K₁ K₂ : Type} [FlushingSink K₁] [FlushingSink K₂] : FlushingSink (K₁ ⊕ K₂) where
  supportsFlushObserver :=
    Sum.elim FlushingSink.supportsFlushObserver FlushingSink.supportsFlushObserver
  setFlushObserver := Sum.map FlushingSink.setFlushObserver FlushingSink.setFlushObserver

/-- A call an inner sink of a tee made to the observer it was given. -/
structure FlushEvent where
  /-- The index of the inner sink. -/
  inner : Nat
  from_ : Nat
  to_ : Nat
  deriving Repr, DecidableEq

/-- How far each of several sinks has flushed, and what the observer was told last. -/
structure MinFlushCoordinator where
  perSinkFlushedTo : List Nat
  lastFiredTo : Option Nat
  deriving Repr, DecidableEq

/-- A coordinator for sinks that have not flushed yet. -/
def MinFlushCoordinator.new (numSinks : Nat) : MinFlushCoordinator :=
  ⟨List.replicate numSinks 0, none⟩

/-- The least of some positions. -/
def leastOf (positions : List Nat) : Nat := positions.min?.getD 0

/-- Take note of a flush, and fire when the slowest sink is further than at the last fire. -/
def MinFlushCoordinator.note (sinkIndex to_ : Nat) (c : MinFlushCoordinator) :
    MinFlushCoordinator × Option (Nat × Nat) :=
  let perSink := c.perSinkFlushedTo.modify sinkIndex (max to_)
  let newMin := leastOf perSink
  match c.lastFiredTo with
  | some prev =>
    if prev < newMin then (⟨perSink, some newMin⟩, some (prev, newMin)) else (⟨perSink, prev⟩, none)
  | none =>
    -- The first fire has no position to start from but 0.
    if 0 < newMin then (⟨perSink, some newMin⟩, some (0, newMin)) else (⟨perSink, none⟩, none)

/-- What a tee does with the observer it is given. -/
inductive FlushWiring where
  /-- No inner sink ever flushes. -/
  | nobody
  /-- The only inner sink that flushes has the observer itself. -/
  | direct (inner : Nat)
  /-- Each of these inner sinks has a relay to one coordinator. -/
  | relayed (supporting : List Nat) (coordinator : MinFlushCoordinator)
  deriving Repr, DecidableEq

/-- What comes of a call of an inner sink, and the range the outer observer is told of, if any. -/
def FlushWiring.onFlushed (event : FlushEvent) : FlushWiring → FlushWiring × Option (Nat × Nat)
  | .nobody => (.nobody, none)
  | .direct inner =>
    (.direct inner, if event.inner = inner then some (event.from_, event.to_) else none)
  | .relayed supporting coordinator =>
    match supporting.idxOf? event.inner with
    | none => (.relayed supporting coordinator, none)
    | some sinkIndex =>
      -- Where the inner sink's own range started means nothing to the others.
      let noted := coordinator.note sinkIndex event.to_
      (.relayed supporting noted.1, noted.2)

/-- The wiring after some calls. -/
def FlushWiring.after (wiring : FlushWiring) (events : List FlushEvent) : FlushWiring :=
  events.foldl (fun wiring event => (wiring.onFlushed event).1) wiring

/-- The ranges the outer observer is told of by some calls. -/
def FlushWiring.announced (wiring : FlushWiring) : List FlushEvent → List (Nat × Nat)
  | [] => []
  | event :: events =>
    (wiring.onFlushed event).2.toList ++ (wiring.onFlushed event).1.announced events

namespace TeeSink

variable {K : Type} [FlushingSink K]

/-- The indices of the inner sinks that call an observer. -/
def supporting (s : TeeSink K) : List Nat :=
  s.inners.zipIdx.filterMap fun (inner, i) =>
    if FlushingSink.supportsFlushObserver inner.sink then some i else none

/-- The position an inner sink has, by its index. -/
def opening (s : TeeSink K) (inner : Nat) : Nat := (s.inners[inner]?.map (·.head)).getD 0

/-- Hand an observer on to the inner sinks that will call it. -/
def setFlushObserver (s : TeeSink K) : TeeSink K :=
  { s with inners := s.inners.map fun inner =>
      if FlushingSink.supportsFlushObserver inner.sink then
        { inner with sink := FlushingSink.setFlushObserver inner.sink }
      else inner }

/-- How the observer that was handed on is reached. -/
def flushWiring (s : TeeSink K) : FlushWiring :=
  match s.supporting with
  | [] => .nobody
  | [inner] => .direct inner
  | several => .relayed several (.new several.length)

/-- The catch-up event for what is durable and was not acknowledged when the mirror starts. -/
def syntheticFlush (s : TeeSink K) : Option Nat → List (Nat × Nat)
  | none => []
  | some committed => if committed < s.minHead then [(committed, s.minHead - 1)] else []

end TeeSink

/-- An inner sink is flush-capable when the destination in its slot is. -/
theorem mem_supporting {K : Type} [FlushingSink K] {tee : TeeSink K} {i : Nat}
    {inner : InnerSink K} (here : tee.inners[i]? = some inner) :
    i ∈ tee.supporting ↔ FlushingSink.supportsFlushObserver inner.sink = true := by
  constructor
  · intro capable
    obtain ⟨⟨slot, j⟩, mem, gives⟩ := List.mem_filterMap.mp capable
    simp only [Option.ite_none_right_eq_some, Option.some.injEq] at gives
    obtain ⟨supports, rfl⟩ := gives
    have same := List.mk_mem_zipIdx_iff_getElem?.mp mem
    rwa [Option.some.inj (here.symm.trans same)]
  · intro supports
    refine List.mem_filterMap.mpr ⟨(inner, i), List.mk_mem_zipIdx_iff_getElem?.mpr here, ?_⟩
    simp [supports]

end MirrorV3
