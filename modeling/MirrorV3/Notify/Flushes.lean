import MirrorV3.Core.RunLoop
import MirrorV3.Lib.Steps
import MirrorV3.Notify.Tasks

/-!
The dispatcher of flush notifications as the parties that share it: the mirror whose flushes it is told
of, the drainer of its channel, and the watch that may end the mirror's loop.
-/

namespace MirrorV3

/-- A message in the channel of a dispatcher. -/
inductive QueuedEvent where
  | flushed (upTo : Nat)
  | shutdown
  deriving Repr, DecidableEq

/-- Where the drainer of the channel stands. -/
inductive DrainerPc where
  /-- About to take the next message, or waiting for one. -/
  | receiving
  | dispatching (upTo : Nat)
  /-- About to leave the error of a dispatch behind. -/
  | stashing (error : NotifyError)
  /-- About to signal the error that it left. -/
  | signalling
  | exited
  deriving Repr, DecidableEq

/-- Why the task of a mirror ended. -/
inductive TaskError where
  | loop (halt : Halt)
  /-- The watch came upon the error of a dispatch first. -/
  | dispatch (error : NotifyError)
  /-- The drain at the end came upon it. -/
  | drain (error : NotifyError)
  deriving Repr, DecidableEq

/-- Where the task of the mirror stands. -/
inductive OwnerPc where
  /-- Its loop runs, and may flush at any moment. -/
  | running
  /-- The loop is over, or was dropped for the watch. -/
  | finished (result : Except TaskError Unit)
  /-- It waits for the drainer to end. -/
  | joining (result : Except TaskError Unit)
  | ended (result : Except TaskError Unit)
  deriving DecidableEq

/-- What the parties share, where each of them stands, and what has happened so far. -/
structure FlushDispatcher where
  channel : List QueuedEvent
  drainer : DrainerPc
  errorState : Option NotifyError
  /-- A signal of an error that nobody waited for. -/
  errorSignal : Bool
  watch : WatchPc
  owner : OwnerPc
  /-- The values the acknowledgements were given, in order. -/
  acks : List Nat
  /-- The last offsets of the flushes that were told of. -/
  told : List Nat
  /-- Those of the notifications whose dispatch was done. -/
  sent : List Nat
  failures : List NotifyError

/-- What happens next. -/
inductive DispatcherEvent where
  | onFlushed (upTo : Nat)
  /-- The loop of the mirror ends. -/
  | finish (result : Except Halt Unit)
  /-- The mirror goes on draining and stopping the dispatcher. -/
  | drainAndStop
  /-- The drainer goes on; a dispatch ends as the reply says. -/
  | drainer (reply : Except NotifyError Unit)
  | watch
  deriving DecidableEq

namespace FlushDispatcher

/-- A dispatcher that was just built, with a watch on it. -/
def start : FlushDispatcher where
  channel := []
  drainer := .receiving
  errorState := none
  errorSignal := false
  watch := .checking
  owner := .running
  acks := []
  told := []
  sent := []
  failures := []

/-- Put a message into the channel, unless its other end is gone. -/
def send (event : QueuedEvent) (s : FlushDispatcher) : FlushDispatcher :=
  if s.drainer = .exited then s else { s with channel := s.channel ++ [event] }

/-- A flush is told of; one that is suppressed goes no further. -/
def onFlushed (suppressed : Nat → Bool) (upTo : Nat) (s : FlushDispatcher) : FlushDispatcher :=
  let told := { s with told := s.told ++ [upTo] }
  if suppressed upTo then told else told.send (.flushed upTo)

/-- The end of the task: an error of the loop, or else one that the drainer left. -/
def combine (result : Except TaskError Unit) (left : Option NotifyError) : Except TaskError Unit :=
  match result, left with
  | .error e, _ => .error e
  | .ok (), some e => .error (.drain e)
  | .ok (), none => .ok ()

/-- The mirror goes on: it queues the marker, waits for the drainer, and takes its error. -/
def drainAndStop (s : FlushDispatcher) : Option FlushDispatcher :=
  match s.owner with
  | .finished result => some { s.send .shutdown with owner := .joining result }
  | .joining result =>
    if s.drainer = .exited then
      some { s with errorState := none, owner := .ended (combine result s.errorState) }
    else none
  | .running => none
  | .ended _ => none

/-- The drainer goes on. -/
def drainerStep (reply : Except NotifyError Unit) (s : FlushDispatcher) : Option FlushDispatcher :=
  match s.drainer with
  | .receiving =>
    match s.channel with
    | [] => none
    | .shutdown :: channel => some { s with channel, drainer := .exited }
    | .flushed upTo :: channel => some { s with channel, drainer := .dispatching upTo }
  | .dispatching upTo =>
    match reply with
    | .ok () =>
      some { s with
        drainer := .receiving
        sent := s.sent ++ [upTo]
        acks := s.acks ++ [upTo + 1] }
    | .error e => some { s with failures := s.failures ++ [e], drainer := .stashing e }
  | .stashing e => some { s with errorState := some e, drainer := .signalling }
  | .signalling =>
    let exited := { s with drainer := .exited }
    some (if s.watch = .waiting then { exited with watch := .checking }
      else { exited with errorSignal := true })
  | .exited => none

/-- The watch goes on, beside a loop that has not ended. -/
def watchStep (s : FlushDispatcher) : Option FlushDispatcher :=
  if s.owner = .running then
    match s.watch with
    | .checking =>
      match s.errorState with
      | some e =>
        some { s with errorState := none, watch := .fired e, owner := .finished (.error (.dispatch e)) }
      | none => some { s with watch := .listening }
    | .listening =>
      some (if s.errorSignal then { s with errorSignal := false, watch := .checking }
        else { s with watch := .waiting })
    | .absent => none
    | .waiting => none
    | .fired _ => none
  else none

/-- What an event does, if it can happen. -/
def step (suppressed : Nat → Bool) (s : FlushDispatcher) : DispatcherEvent → Option FlushDispatcher
  | .onFlushed upTo => if s.owner = .running then some (s.onFlushed suppressed upTo) else none
  | .finish result =>
    if s.owner = .running then some { s with owner := .finished (result.mapError .loop) } else none
  | .drainAndStop => s.drainAndStop
  | .drainer reply => s.drainerStep reply
  | .watch => s.watchStep

/-- Everything a step can do, and where it can be done. -/
inductive Move (suppressed : Nat → Bool) (s : FlushDispatcher) : FlushDispatcher → Prop where
  | suppress (upTo : Nat) (running : s.owner = .running) (below : suppressed upTo = true) :
      Move suppressed s { s with told := s.told ++ [upTo] }
  | queue (upTo : Nat) (running : s.owner = .running) (above : suppressed upTo = false)
      (open_ : s.drainer ≠ .exited) :
      Move suppressed s
        { s with told := s.told ++ [upTo], channel := s.channel ++ [.flushed upTo] }
  | drop (upTo : Nat) (running : s.owner = .running) (above : suppressed upTo = false)
      (closed : s.drainer = .exited) : Move suppressed s { s with told := s.told ++ [upTo] }
  | finish (result : Except TaskError Unit) (running : s.owner = .running) :
      Move suppressed s { s with owner := .finished result }
  | mark {result : Except TaskError Unit} (stands : s.owner = .finished result)
      (open_ : s.drainer ≠ .exited) :
      Move suppressed s { s with owner := .joining result, channel := s.channel ++ [.shutdown] }
  | skip {result : Except TaskError Unit} (stands : s.owner = .finished result)
      (closed : s.drainer = .exited) : Move suppressed s { s with owner := .joining result }
  | join {result : Except TaskError Unit} (stands : s.owner = .joining result)
      (closed : s.drainer = .exited) :
      Move suppressed s
        { s with errorState := none, owner := .ended (combine result s.errorState) }
  | exit {channel : List QueuedEvent} (stands : s.drainer = .receiving)
      (next : s.channel = .shutdown :: channel) :
      Move suppressed s { s with channel, drainer := .exited }
  | take {upTo : Nat} {channel : List QueuedEvent} (stands : s.drainer = .receiving)
      (next : s.channel = .flushed upTo :: channel) :
      Move suppressed s { s with channel, drainer := .dispatching upTo }
  | deliver {upTo : Nat} (stands : s.drainer = .dispatching upTo) :
      Move suppressed s
        { s with drainer := .receiving, sent := s.sent ++ [upTo], acks := s.acks ++ [upTo + 1] }
  | fail {upTo : Nat} (e : NotifyError) (stands : s.drainer = .dispatching upTo) :
      Move suppressed s { s with failures := s.failures ++ [e], drainer := .stashing e }
  | stash {e : NotifyError} (stands : s.drainer = .stashing e) :
      Move suppressed s { s with errorState := some e, drainer := .signalling }
  | signal (errorSignal : Bool) (watch : WatchPc) (stands : s.drainer = .signalling) :
      Move suppressed s { s with drainer := .exited, errorSignal, watch }
  | fire {e : NotifyError} (running : s.owner = .running) (stashed : s.errorState = some e) :
      Move suppressed s
        { s with errorState := none, watch := .fired e, owner := .finished (.error (.dispatch e)) }
  | watch (errorSignal : Bool) (watch : WatchPc) (running : s.owner = .running) :
      Move suppressed s { s with errorSignal, watch }

variable {suppressed : Nat → Bool} {s s' : FlushDispatcher}

/-- Being told of a flush is a move. -/
theorem move_of_onFlushed (upTo : Nat) (running : s.owner = .running) :
    Move suppressed s (s.onFlushed suppressed upTo) := by
  cases below : suppressed upTo with
  | true =>
    simp only [onFlushed, below, if_true]
    exact .suppress upTo running below
  | false =>
    simp only [onFlushed, below, Bool.false_eq_true, if_false, send]
    -- Nobody reads a message to a drainer that has ended.
    by_cases closed : s.drainer = .exited
    · rw [if_pos closed]
      exact .drop upTo running below closed
    · rw [if_neg closed]
      exact .queue upTo running below closed

/-- The end of the task goes on by a move. -/
theorem move_of_drainAndStop (taken : s.drainAndStop = some s') : Move suppressed s s' := by
  unfold drainAndStop at taken
  cases stands : s.owner with
  | finished result =>
    simp only [stands, Option.some.injEq] at taken
    subst taken
    -- A marker is left for a drainer that still reads.
    rw [send]
    -- The task is joined once the drainer has ended, and not before.
    by_cases closed : s.drainer = .exited
    · rw [if_pos closed]
      exact .skip stands closed
    · rw [if_neg closed]
      exact .mark stands closed
  | joining result =>
    simp only [stands] at taken
    by_cases closed : s.drainer = .exited
    · rw [if_pos closed] at taken
      cases taken
      exact .join stands closed
    · rw [if_neg closed] at taken
      cases taken
  | running | ended result =>
    simp only [stands] at taken
    cases taken

/-- The drainer goes on by a move. -/
theorem move_of_drainerStep {reply : Except NotifyError Unit}
    (taken : s.drainerStep reply = some s') : Move suppressed s s' := by
  unfold drainerStep at taken
  cases stands : s.drainer with
  | receiving =>
    simp only [stands] at taken
    -- A drainer with nothing to read waits.
    cases next : s.channel with
    | nil =>
      simp only [next] at taken
      cases taken
    | cons event channel =>
      simp only [next] at taken
      cases event with
      | flushed upTo =>
        cases taken
        exact .take stands next
      | shutdown =>
        cases taken
        exact .exit stands next
  | dispatching upTo =>
    simp only [stands] at taken
    cases reply with
    | ok done =>
      cases taken
      exact .deliver stands
    | error e =>
      cases taken
      exact .fail e stands
  | stashing e =>
    simp only [stands] at taken
    cases taken
    exact .stash stands
  | signalling =>
    simp only [stands] at taken
    -- A watch that waits is woken, and for another one the signal stays.
    by_cases waits : s.watch = .waiting
    · rw [if_pos waits] at taken
      cases taken
      exact .signal s.errorSignal .checking stands
    · rw [if_neg waits] at taken
      cases taken
      exact .signal true s.watch stands
  | exited =>
    simp only [stands] at taken
    cases taken

/-- The watch goes on by a move. -/
theorem move_of_watchStep (taken : s.watchStep = some s') : Move suppressed s s' := by
  unfold watchStep at taken
  -- The watch is a part of the task that runs the loop, and stops with it.
  by_cases running : s.owner = .running
  · rw [if_pos running] at taken
    cases stands : s.watch with
    | checking =>
      cases stashed : s.errorState with
      | some e =>
        simp only [stands, stashed] at taken
        cases taken
        exact .fire running stashed
      | none =>
        simp only [stands, stashed] at taken
        cases taken
        have move : Move suppressed s _ := .watch s.errorSignal .listening running
        rwa [stashed] at move
    | listening =>
      simp only [stands] at taken
      -- A signal from before it listened is not lost.
      by_cases left : s.errorSignal = true
      · rw [if_pos left] at taken
        cases taken
        exact .watch false .checking running
      · rw [if_neg left] at taken
        cases taken
        exact .watch s.errorSignal .waiting running
    | absent | waiting | fired e =>
      simp only [stands] at taken
      cases taken
  · rw [if_neg running] at taken
    cases taken

/-- Every step is one of these moves. -/
theorem move_of_step {event : DispatcherEvent} (taken : step suppressed s event = some s') :
    Move suppressed s s' := by
  cases event with
  | onFlushed upTo =>
    by_cases running : s.owner = .running
    · rw [step, if_pos running] at taken
      cases taken
      exact move_of_onFlushed upTo running
    · rw [step, if_neg running] at taken
      cases taken
  | finish result =>
    by_cases running : s.owner = .running
    · rw [step, if_pos running] at taken
      cases taken
      exact .finish _ running
    · rw [step, if_neg running] at taken
      cases taken
  | drainAndStop => exact move_of_drainAndStop taken
  | drainer reply => exact move_of_drainerStep taken
  | watch => exact move_of_watchStep taken

end FlushDispatcher

end MirrorV3
