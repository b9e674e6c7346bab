import MirrorV3.Core.Traits

/-! The mirror loop: it resumes where the destination stands and refuses every other position. -/

namespace MirrorV3

open Effect

/-- The parties one run of the loop owns. -/
structure Mirror (S K N : Type) where
  source : S
  sink : K
  notifier : N

/-- How the task that runs the loop ends without a graceful stop. -/
inductive Halt where
  | failed (error : MirrorError)
  | panicked (message : String)
  deriving Repr, DecidableEq

/-- What the loop wakes up for, in the order its select prefers them. -/
inductive LoopEvent where
  | shutdown
  | heartbeat
  | poll
  deriving Repr, DecidableEq

/-- Where a run stands after the events it was given. -/
inductive Progress where
  /-- Still running, expecting this offset next. -/
  | running (expected : Nat)
  /-- Stopped gracefully. -/
  | finished
  deriving Repr, DecidableEq

namespace Mirror

variable {S K N : Type}

/-- The source as a part of the mirror. -/
def sourcePart : Part (Mirror S K N) S := ⟨source, fun source m => { m with source }⟩

/-- The destination as a part of the mirror. -/
def sinkPart : Part (Mirror S K N) K := ⟨sink, fun sink m => { m with sink }⟩

/-- The observer as a part of the mirror. -/
def notifierPart : Part (Mirror S K N) N := ⟨notifier, fun notifier m => { m with notifier }⟩

/-- Ask the source, ending the run on its error. -/
def onSource {α : Type} : Program SourceError S α → Program Halt (Mirror S K N) α :=
  focus sourcePart (fun e => .failed (.source e))

/-- Ask the destination, ending the run on its error. -/
def onSink {α : Type} : Program SinkError K α → Program Halt (Mirror S K N) α :=
  focus sinkPart (fun e => .failed (.sink e))

/-- Tell the observer, ending the run on its error. -/
def onNotifier {α : Type} : Program NotifyError N α → Program Halt (Mirror S K N) α :=
  focus notifierPart (fun e => .failed (.notify e))

variable [Source S] [Sink K] [Notifier N]

/-- Decide where to resume, and refuse a destination that the source cannot continue. -/
def bootstrap : Program Halt (Mirror S K N) Nat := do
  let sinkStart ← onSink Sink.nextExpectedOffset
  let lowWatermark ← onSource Source.lowWatermark
  let highWatermark ← onSource Source.highWatermark
  -- A tee resumes from its slowest inner sink, so the furthest one is asked for separately.
  let furthest ← onSink Sink.furthestNextOffset
  let sinkFurthest := furthest.getD sinkStart
  ensure (sinkFurthest ≤ highWatermark)
    (.failed (.sinkAheadOfSource sinkFurthest highWatermark))
  let mirror ← get
  let expected ←
    if sinkStart < lowWatermark then
      if Sink.allowsCompactedSource mirror.sink then do
        onSink (Sink.alignToSourceLowWatermark lowWatermark)
        pure lowWatermark
      else
        throw (.failed (.sourceCompactedBelowExpected sinkStart lowWatermark (lowWatermark - 1)))
    else
      pure sinkStart
  onSource (Source.seek expected)
  pure expected

/-- Hand one polled record to the destination and then to the observer. -/
def deliver (expected : Nat) (record : Record) : Program Halt (Mirror S K N) Nat := do
  ensure (expected ≤ record.sourceOffset)
    (.failed (.sourceWentBackwards expected record.sourceOffset))
  let mirror ← get
  ensure (record.sourceOffset ≤ expected ∨ Sink.allowsOffsetHoles mirror.sink = true)
    (.failed (.sourceGapAboveExpected expected record.sourceOffset))
  -- Across an accepted hole only the local tracker moves.
  let expected := record.sourceOffset
  onSink (Sink.write record)
  ensure (expected + 1 < 2 ^ 64) (.panicked "source offset overflowed u64")
  onNotifier (Notifier.onRecord record)
  pure (expected + 1)

/-- With no record to deliver, require the destination to be where the loop believes it is. -/
def verifyIdle (expected : Nat) : Program Halt (Mirror S K N) Nat := do
  let current ← onSink Sink.nextExpectedOffset
  ensure (current = expected) (.failed (.destinationDrift expected current))
  pure expected

/-- One answered poll. -/
def poll (expected : Nat) : Program Halt (Mirror S K N) Nat := do
  match ← onSource Source.pollOne with
  | some record => deliver expected record
  | none => verifyIdle expected

/-- The graceful stop: buffered batches become durable, then the observer drains. -/
def stop : Program Halt (Mirror S K N) Unit := do
  onSink Sink.flush
  onNotifier Notifier.shutdown

/-- The poll in flight is dropped when another event is served first. -/
def abandonPoll (mirror : Mirror S K N) : Mirror S K N :=
  { mirror with source := Source.abandonPoll mirror.source }

/-- Serve the events of a run, one after the other, until it stops or the events are used up. -/
def loop : List LoopEvent → Nat → Program Halt (Mirror S K N) Progress
  | [], expected => pure (.running expected)
  | .shutdown :: _, _ => do
    modify abandonPoll
    stop
    pure .finished
  | .heartbeat :: events, expected => do
    modify abandonPoll
    loop events expected
  | .poll :: events, expected => do
    let expected ← poll expected
    loop events expected

/-- A whole run: the startup checks and then the events. -/
def runMirrorWithNotifier (events : List LoopEvent) : Program Halt (Mirror S K N) Progress := do
  let expected ← bootstrap
  loop events expected

/--
What one event preserves, every run preserves.

The invariant ties the loop's tracker to the state of the three parties.
-/
theorem loop_rule {invariant : Nat → Mirror S K N → Prop} {stopped : Mirror S K N → Prop}
    {fail : Halt → Mirror S K N → Prop}
    (polls : ∀ expected m, invariant expected m → wp (poll expected) invariant fail m)
    (drops : ∀ expected m, invariant expected m → invariant expected (abandonPoll m))
    (stops : ∀ expected m, invariant expected m → wp stop (fun _ => stopped) fail m) :
    ∀ events expected m, invariant expected m →
      wp (loop events expected)
        (fun progress m' =>
          match progress with
          | .running expected => invariant expected m'
          | .finished => stopped m')
        fail m := by
  intro events
  induction events with
  | nil => intro expected m holds; simpa only [loop, wp_pure] using holds
  | cons event events ih =>
    intro expected m holds
    cases event with
    | shutdown =>
      -- A graceful stop serves no event after it.
      simp only [loop, wp_bind, wp_modify]
      exact stops expected _ (drops expected m holds)
    | heartbeat =>
      simp only [loop, wp_bind, wp_modify]
      exact ih expected _ (drops expected m holds)
    | poll =>
      simp only [loop, wp_bind]
      exact wp_mono (polls expected m holds) (fun next m' kept => ih next m' kept)
        (fun _ _ failed => failed)

end Mirror

end MirrorV3
