import MirrorV3.Flush.Announced
import MirrorV3.Notify.Flushes

/-!
Flush notifications go out in the order of the flushes, and a graceful stop comes to an end and leaves
none of them behind.
-/

namespace MirrorV3

/-- The notification that the drainer dispatches. -/
def DrainerPc.flight : DrainerPc → Option Nat
  | .dispatching upTo => some upTo
  | _ => none

/-- Whether the drainer is about to say that a dispatch failed. -/
def DrainerPc.failing : DrainerPc → Bool
  | .stashing _ => true
  | .signalling => true
  | _ => false

/-- Whether the mirror has queued the marker behind its last flush. -/
def OwnerPc.closing : OwnerPc → Bool
  | .joining _ => true
  | .ended _ => true
  | _ => false

/-- Whether the task of the mirror is bound to end with an error. -/
def OwnerPc.failed : OwnerPc → Bool
  | .finished (.error _) => true
  | .joining (.error _) => true
  | .ended (.error _) => true
  | _ => false

/-- The flushes that a channel holds. -/
def flushesOf (channel : List QueuedEvent) : List Nat :=
  channel.filterMap fun event =>
    match event with
    | .flushed upTo => some upTo
    | .shutdown => none

/-- One more flush is the last of a channel. -/
theorem flushesOf_flushed (channel : List QueuedEvent) (upTo : Nat) :
    flushesOf (channel ++ [.flushed upTo]) = flushesOf channel ++ [upTo] := by
  simp [flushesOf]

/-- The marker is no flush. -/
theorem flushesOf_shutdown (channel : List QueuedEvent) :
    flushesOf (channel ++ [.shutdown]) = flushesOf channel := by
  simp [flushesOf]

namespace FlushDispatcher

variable {suppressed : Nat → Bool} {s s' : FlushDispatcher}

/-- Of the flushes told of those to notify. -/
def due (suppressed : Nat → Bool) (s : FlushDispatcher) : List Nat :=
  s.told.filter fun upTo => !suppressed upTo

/-- Every flush to notify is sent, in dispatch or in the channel, before the marker if there is one. -/
structure Flowing (suppressed : Nat → Bool) (s : FlushDispatcher) : Prop where
  unfailed : s.failures = []
  clear : s.errorState = none
  relaying : s.drainer.failing = false
  accounted : s.due suppressed = s.sent ++ s.drainer.flight.toList ++ flushesOf s.channel
  marked : s.channel = (flushesOf s.channel).map .flushed
    ∨ s.owner.closing = true ∧ s.channel = (flushesOf s.channel).map .flushed ++ [.shutdown]
  stopped : s.drainer = .exited → s.owner.closing = true ∧ s.channel = []

/-- One dispatch has failed, and nobody can end without an error of it. -/
inductive Broken (suppressed : Nat → Bool) (s : FlushDispatcher) : Prop where
  | stashing {upTo : Nat} {e : NotifyError} (lost : s.sent ++ [upTo] <+: s.due suppressed)
      (stands : s.drainer = .stashing e) (clear : s.errorState = none)
  /-- The error waits for whoever comes upon it first. -/
  | stashed {upTo : Nat} {e : NotifyError} (lost : s.sent ++ [upTo] <+: s.due suppressed)
      (stands : s.drainer = .signalling ∨ s.drainer = .exited) (error : s.errorState = some e)
      (unended : ∀ result, s.owner ≠ .ended result)
  | surfaced {upTo : Nat} (lost : s.sent ++ [upTo] <+: s.due suppressed)
      (stands : s.drainer = .signalling ∨ s.drainer = .exited) (failed : s.owner.failed = true)

/-- What has been sent stays the first of what there is to notify when more is told of. -/
theorem due_told (upTo : Nat) :
    s.due suppressed <+: due suppressed { s with told := s.told ++ [upTo] } := by
  rw [due, due, List.filter_append]
  exact List.prefix_append _ _

/-- The mirror waits for the drainer before it ends. -/
def Ends (s : FlushDispatcher) : Prop := ∀ result, s.owner = .ended result → s.drainer = .exited

/-- Nobody ends before the drainer. -/
theorem Ends.move (ends : Ends s) (move : Move suppressed s s') : Ends s' := by
  -- An open drainer means that nobody has ended yet.
  have never : s.drainer ≠ .exited → ∀ result, s.owner ≠ .ended result :=
    fun open_ result ended => open_ (ends result ended)
  cases move with
  | suppress | queue | drop | watch => exact ends
  | join _ closed => exact fun _ _ => closed
  | finish | mark | skip | fire =>
    intro result ended
    cases ended
  | exit | signal => exact fun _ _ => rfl
  | take stands | deliver stands | fail _ stands | stash stands =>
    intro result ended
    exact absurd ended (never (by rw [stands]; exact nofun) result)

/-- While no dispatch fails, flushes move from one place to the next in order. -/
theorem Flowing.move (flowing : Flowing suppressed s) (move : Move suppressed s s') :
    Flowing suppressed s' ∨ Broken suppressed s' := by
  obtain ⟨unfailed, clear, relaying, accounted, marked, stopped⟩ := flowing
  -- With the loop running, or over but not drained, only flushes are in the channel.
  have unmarked : s.owner.closing = false → s.channel = (flushesOf s.channel).map .flushed := by
    intro open_
    rcases marked with all | ⟨closing, -⟩
    · exact all
    · exact absurd (open_.symm.trans closing) Bool.false_ne_true
  -- The drainer ends for the marker only, and that is not there yet.
  have alive : s.owner.closing = false → s.drainer ≠ .exited := fun open_ exited =>
    Bool.false_ne_true (open_.symm.trans (stopped exited).1)
  cases move with
  -- A flush that is suppressed adds nothing to notify.
  | suppress upTo running below =>
    refine .inl ⟨unfailed, clear, relaying, ?_, marked, stopped⟩
    rw [due, List.filter_append, List.filter_cons_of_neg (by simp [below]), List.filter_nil,
      List.append_nil]
    exact accounted
  | queue upTo running above open_ =>
    have all := unmarked (by rw [running]; rfl)
    refine .inl ⟨unfailed, clear, relaying, ?_, .inl ?_, fun exited => absurd exited open_⟩
    · rw [due, List.filter_append, List.filter_cons_of_pos (by simp [above]), List.filter_nil]
      show s.due suppressed ++ [upTo] = _ ++ flushesOf (s.channel ++ [.flushed upTo])
      rw [accounted, flushesOf_flushed]
      simp only [List.append_assoc]
    · show s.channel ++ _ = (flushesOf (s.channel ++ _)).map _
      rw [flushesOf_flushed, List.map_append, ← all]
      rfl
  | drop upTo running above closed => exact absurd closed (alive (by rw [running]; rfl))
  | finish result running =>
    have open_ : s.owner.closing = false := by rw [running]; rfl
    exact .inl ⟨unfailed, clear, relaying, accounted, .inl (unmarked open_),
      fun exited => absurd exited (alive open_)⟩
  | mark stands open_ =>
    have all := unmarked (by rw [stands]; rfl)
    refine .inl ⟨unfailed, clear, relaying, ?_, .inr ⟨rfl, ?_⟩, fun exited => absurd exited open_⟩
    · rw [flushesOf_shutdown]
      exact accounted
    · show s.channel ++ _ = (flushesOf (s.channel ++ _)).map _ ++ _
      rw [flushesOf_shutdown, ← all]
  | skip stands closed => exact absurd closed (alive (by rw [stands]; rfl))
  | join stands closed =>
    have marked' : s.channel = (flushesOf s.channel).map .flushed := by
      rw [(stopped closed).2]
      rfl
    exact .inl ⟨unfailed, rfl, relaying, accounted, .inl marked', fun _ => ⟨rfl, (stopped closed).2⟩⟩
  | exit stands next =>
    rename_i channel
    -- The marker is the last message, so it is read when no flush is left.
    rw [next] at marked
    have last : s.owner.closing = true ∧ channel = [] ∧ flushesOf s.channel = [] := by
      cases left : flushesOf (.shutdown :: channel) with
      | nil =>
        rw [left] at marked
        rcases marked with never | ⟨closing, same⟩
        · cases never
        · rw [next, left]
          exact ⟨closing, (List.cons.inj same).2, rfl⟩
      | cons upTo others =>
        rw [left] at marked
        rcases marked with never | ⟨-, never⟩ <;> cases never
    obtain ⟨closing, rfl, none_⟩ := last
    rw [stands, none_] at accounted
    exact .inl ⟨unfailed, clear, rfl, accounted, .inl rfl, fun _ => ⟨closing, rfl⟩⟩
  | take stands next =>
    rename_i upTo channel
    -- The first flush of the channel is the one in hand now.
    have first : flushesOf s.channel = upTo :: flushesOf channel := by rw [next]; rfl
    rw [stands, first] at accounted
    rw [first, next] at marked
    refine .inl ⟨unfailed, clear, rfl, ?_, ?_, nofun⟩
    · show s.due suppressed = s.sent ++ [upTo] ++ flushesOf channel
      rw [accounted]
      simp [DrainerPc.flight]
    · rcases marked with all | ⟨closing, all⟩
      · exact .inl (List.cons.inj all).2
      · exact .inr ⟨closing, (List.cons.inj all).2⟩
  | deliver stands =>
    rename_i upTo
    rw [stands] at accounted
    refine .inl ⟨unfailed, clear, rfl, ?_, marked, nofun⟩
    show s.due suppressed = s.sent ++ [upTo] ++ [] ++ flushesOf s.channel
    rw [accounted, List.append_nil]
    rfl
  -- The flush in hand is lost, and it is the next one after those that were sent.
  | fail e stands =>
    rename_i upTo
    rw [stands] at accounted
    exact .inr (.stashing ⟨flushesOf s.channel, accounted.symm⟩ rfl clear)
  | stash stands | signal _ _ stands =>
    rw [stands] at relaying
    cases relaying
  | fire running stashed =>
    rw [clear] at stashed
    cases stashed
  | watch => exact .inl ⟨unfailed, clear, relaying, accounted, marked, stopped⟩

/-- After a failed dispatch nothing more is sent, and its error is not lost. -/
theorem Broken.move (broken : Broken suppressed s) (ends : Ends s) (move : Move suppressed s s') :
    Broken suppressed s' := by
  cases broken with
  | stashing lost stands clear =>
    -- The drainer keeps the error until it has left it behind.
    cases move with
    | suppress upTo | queue upTo | drop upTo =>
      exact .stashing (lost.trans (due_told upTo)) stands clear
    | finish | mark | skip | watch => exact .stashing lost stands clear
    | join _ closed =>
      rw [stands] at closed
      cases closed
    | exit other | take other | deliver other | fail _ other | signal _ _ other =>
      rw [stands] at other
      cases other
    | stash =>
      refine .stashed lost (.inl rfl) rfl fun result ended => ?_
      have exited := ends result ended
      rw [stands] at exited
      cases exited
    | fire _ stashed =>
      rw [clear] at stashed
      cases stashed
  -- The error is taken by the watch, or joined with the drainer.
  | stashed lost stands error unended =>
    cases move with
    | suppress upTo | queue upTo | drop upTo =>
      exact .stashed (lost.trans (due_told upTo)) stands error unended
    | finish | mark | skip =>
      refine .stashed lost stands error fun result ended => ?_
      cases ended
    | watch => exact .stashed lost stands error unended
    | join joins closed =>
      rename_i result
      refine .surfaced lost stands ?_
      -- Either the loop ended with an error before, or this one is what the task ends with.
      show OwnerPc.failed (.ended (combine result s.errorState)) = true
      rw [error]
      cases result <;> rfl
    | exit other | take other | deliver other | fail _ other | stash other =>
      rcases stands with same | same
      all_goals
        rw [same] at other
        cases other
    | signal => exact .stashed lost (.inr rfl) error unended
    | fire => exact .surfaced lost stands rfl
  -- From here on the task only ends with an error.
  | surfaced lost stands failed =>
    cases move with
    | suppress upTo running | queue upTo running | drop upTo running =>
      rw [running] at failed
      cases failed
    | finish result running | fire running =>
      rw [running] at failed
      cases failed
    | mark over_ | skip over_ =>
      rename_i result _
      rw [over_] at failed
      refine .surfaced lost stands ?_
      cases result with
      | ok done => cases failed
      | error e => rfl
    | join joins =>
      rename_i result _
      rw [joins] at failed
      refine .surfaced lost stands ?_
      cases result with
      | ok done => cases failed
      | error e => rfl
    | exit other | take other | deliver other | fail _ other | stash other =>
      rcases stands with same | same
      all_goals
        rw [same] at other
        cases other
    | signal => exact .surfaced lost (.inr rfl) failed
    | watch => exact .surfaced lost stands failed

/-- What is true of a dispatcher in every state that its parties come to. -/
structure Relays (suppressed : Nat → Bool) (s : FlushDispatcher) : Prop where
  ends : Ends s
  state : Flowing suppressed s ∨ Broken suppressed s
  acknowledged : s.acks = s.sent.map (· + 1)

/-- It is true at the start. -/
theorem relays_start : Relays suppressed start where
  ends := nofun
  state := .inl ⟨rfl, rfl, rfl, rfl, .inl rfl, nofun⟩
  acknowledged := rfl

/-- Every step keeps it. -/
theorem Relays.move (relays : Relays suppressed s) (move : Move suppressed s s') :
    Relays suppressed s' where
  ends := relays.ends.move move
  state := by
    rcases relays.state with flowing | broken
    · exact flowing.move move
    · exact .inr (broken.move relays.ends move)
  acknowledged := by
    have acknowledged := relays.acknowledged
    cases move with
    | deliver =>
      rename_i upTo stands
      show s.acks ++ [upTo + 1] = (s.sent ++ [upTo]).map _
      rw [acknowledged, List.map_append]
      rfl
    | _ => exact acknowledged

/-- Every run keeps it. -/
theorem relays_of_run {events : List DispatcherEvent}
    (ran : Steps.run (step suppressed) start events = some s) : Relays suppressed s :=
  Steps.run_rule (Relays suppressed) (fun _ _ _ taken relays => relays.move (move_of_step taken)) ran
    relays_start

/-- What was sent is the first of what there was to notify. -/
theorem Relays.sent_prefix (relays : Relays suppressed s) : s.sent <+: s.due suppressed := by
  -- Unless a dispatch failed, the rest of them is in hand or in the channel.
  rcases relays.state with flowing | broken
  · rw [flowing.accounted, List.append_assoc]
    exact List.prefix_append _ _
  · cases broken with
    | stashing lost | stashed lost | surfaced lost => exact (List.prefix_append _ _).trans lost

/-- The drainer of a mirror that waits for it is not left without the marker. -/
def Ending (s : FlushDispatcher) : Prop :=
  s.owner.closing = true → s.drainer = .exited ∨ .shutdown ∈ s.channel

/-- The marker stays in the channel until the drainer takes it and ends. -/
theorem Ending.move (ending : Ending s) (move : Move suppressed s s') : Ending s' := by
  -- A drainer that goes on has not ended, so the marker is still in the channel.
  have waits : s.drainer ≠ .exited → s.owner.closing = true → .shutdown ∈ s.channel :=
    fun open_ closing => (ending closing).resolve_left open_
  cases move with
  | suppress | drop | watch => exact ending
  | queue _ running | finish _ running | fire running =>
    intro closing
    first
    | cases closing
    | rw [running] at closing
      cases closing
  | mark => exact fun _ => .inr (List.mem_append_right _ (.head _))
  | skip _ closed | join _ closed => exact fun _ => .inl closed
  | exit | signal => exact fun _ => .inl rfl
  | take stands next =>
    intro closing
    -- The message that was taken was a flush, so the marker is among the rest.
    have mem := waits (by rw [stands]; exact nofun) closing
    rw [next] at mem
    exact .inr ((List.mem_cons.mp mem).resolve_left nofun)
  | deliver stands | fail _ stands | stash stands =>
    exact fun closing => .inr (waits (by rw [stands]; exact nofun) closing)

/-- How many steps a message of the channel asks for, at most. -/
def messageWork : QueuedEvent → Nat
  | .flushed _ => 4
  | .shutdown => 1

/-- How many steps are left, at most, once the loop of the mirror is over. -/
def toStop (s : FlushDispatcher) : Nat :=
  (s.channel.map messageWork).sum
    + (match s.drainer with
      | .dispatching _ => 3
      | .stashing _ => 2
      | .signalling => 1
      | .receiving => 0
      | .exited => 0)
    + match s.owner with
      | .finished _ => 3
      | .joining _ => 1
      | .running => 0
      | .ended _ => 0

/-- Once the loop is over it stays so, and every step brings the end of the task closer. -/
theorem over_move (halted : s.owner ≠ .running) (move : Move suppressed s s') :
    s'.owner ≠ .running ∧ s'.toStop < s.toStop := by
  cases move with
  | suppress _ running | queue _ running | drop _ running | finish _ running | fire running
  | watch _ _ running => exact absurd running halted
  -- The marker costs one step to read, and its owner has come two closer to the end.
  | mark stands =>
    refine ⟨nofun, ?_⟩
    simp only [toStop, stands, List.map_append, List.sum_append, List.map_cons, List.map_nil,
      List.sum_cons, List.sum_nil, messageWork]
    omega
  | skip stands | join stands => exact ⟨nofun, by simp [toStop, stands]⟩
  | exit stands next | take stands next =>
    exact ⟨halted, by simp [toStop, stands, next, messageWork]; try omega⟩
  | deliver stands | fail _ stands | stash stands | signal _ _ stands =>
    exact ⟨halted, by simp [toStop, stands]⟩

/--
An acknowledged flush never passes one that was not notified.

Notifications of what a tee announces go out in the order of the flushes, each once, and none goes out
after one that failed.
-/
theorem flush_acks_never_pass {K : Type} [FlushingSink K] {tee : TeeSink K}
    (history : FlushHistory tee) {events : List DispatcherEvent}
    (ran : Steps.run (step suppressed) start events = some s)
    (heard : s.told <+: history.announced.map (·.2)) :
    (∀ n ∈ s.acks, ∀ upTo ∈ s.told, upTo < n → suppressed upTo = false → upTo ∈ s.sent)
      ∧ s.acks.Pairwise (· < ·)
      ∧ s.sent <+: s.due suppressed := by
  have relays := relays_of_run ran
  have first := relays.sent_prefix
  -- The tee announces one position after the other, and the dispatcher leaves some of them out.
  have ordered : s.told.Pairwise (· < ·) := history.announced_increasing.sublist heard.sublist
  have due_ordered : (s.due suppressed).Pairwise (· < ·) := ordered.sublist List.filter_sublist
  refine ⟨fun n acked upTo told below above => ?_, ?_, first⟩
  · rw [relays.acknowledged] at acked
    obtain ⟨last, sent, rfl⟩ := List.mem_map.mp acked
    have listed : upTo ∈ s.due suppressed := List.mem_filter.mpr ⟨told, by simp [above]⟩
    -- What there is to notify is what was sent and then the rest.
    obtain ⟨rest, split⟩ := first
    rw [← split] at listed due_ordered
    rcases List.mem_append.mp listed with done | later
    · exact done
    · -- What was not sent comes after everything that was.
      have after := (List.pairwise_append.mp due_ordered).2.2 last sent upTo later
      omega
  · rw [relays.acknowledged, List.pairwise_map]
    exact (due_ordered.sublist first.sublist).imp fun less => by omega

/--
A mirror whose flushes are notified and that ends without an error has notified every one of them.

Whatever the drainer was dispatching, or the watch waiting for, when the loop ended: nothing failed,
and each flush that is not suppressed was dispatched, in order.
-/
theorem graceful_stop_relays {events : List DispatcherEvent}
    (ran : Steps.run (step suppressed) start events = some s) (ended : s.owner = .ended (.ok ())) :
    s.sent = s.due suppressed ∧ s.acks = (s.due suppressed).map (· + 1) ∧ s.failures = [] := by
  have relays := relays_of_run ran
  have exited := relays.ends _ ended
  rcases relays.state with flowing | broken
  · -- Nothing is in hand or in the channel, so all of it was sent.
    have accounted := flowing.accounted
    rw [exited, (flowing.stopped exited).2] at accounted
    have all : s.due suppressed = s.sent := by simpa [DrainerPc.flight, flushesOf] using accounted
    exact ⟨all.symm, by rw [all]; exact relays.acknowledged, flowing.unfailed⟩
  · -- A failed dispatch is the error of somebody.
    cases broken with
    | stashing lost stands =>
      rw [exited] at stands
      cases stands
    | stashed lost stands error unended => exact absurd ended (unended _)
    | surfaced lost stands failed =>
      rw [ended] at failed
      cases failed

/--
A mirror whose loop is over ends, whatever its drainer was doing and whichever way its dispatches go.

It has only so many steps left, in any order of them, and it can always take one until it has ended.
-/
theorem stop_completes {events later : List DispatcherEvent}
    (ran : Steps.run (step suppressed) start events = some s) (halted : s.owner ≠ .running)
    (went : Steps.run (step suppressed) s later = some s') :
    later.length ≤ s.toStop
      ∧ ((∀ event, step suppressed s' event = none) → ∃ result, s'.owner = .ended result) := by
  have bounded := Steps.length_le_of_decreases (fun t : FlushDispatcher => t.owner ≠ .running) toStop
    (fun _ _ _ taken halted => (over_move halted (move_of_step taken)).1)
    (fun _ _ _ taken halted => (over_move halted (move_of_step taken)).2) went halted
  refine ⟨by omega, fun stuck => ?_⟩
  have still : s'.owner ≠ .running := Steps.run_rule (fun t : FlushDispatcher => t.owner ≠ .running)
    (fun _ _ _ taken halted => (over_move halted (move_of_step taken)).1) went halted
  -- The marker is there from the moment the task is over, in this run and the one before.
  have ending : Ending s' := by
    refine Steps.run_rule Ending (fun _ _ _ taken ending => ending.move (move_of_step taken)) went ?_
    exact Steps.run_rule Ending (fun _ _ _ taken ending => ending.move (move_of_step taken)) ran nofun
  have drains := stuck (.drainer (.ok ()))
  have joins := stuck .drainAndStop
  cases stands : s'.owner with
  | running => exact absurd stands still
  | ended result => exact ⟨result, rfl⟩
  | finished result =>
    simp [step, drainAndStop, stands] at joins
  | joining result =>
    -- The drainer still has the marker to take, or has ended and can be joined.
    rcases ending (by rw [stands]; rfl) with exited | queued
    · simp [step, drainAndStop, stands, exited] at joins
    · cases drainer : s'.drainer with
      | receiving =>
        cases channel : s'.channel with
        | nil =>
          rw [channel] at queued
          cases queued
        | cons event rest => cases event <;> simp [step, drainerStep, drainer, channel] at drains
      | exited => simp [step, drainAndStop, stands, drainer] at joins
      | dispatching | stashing | signalling => simp [step, drainerStep, drainer] at drains

end FlushDispatcher

namespace RelaySample

open FlushDispatcher

/-- Flushes up to 3 happened before the consumer came. -/
def suppressed (upTo : Nat) : Bool :=
  decide (upTo < 4)

/-- The loop ends while the drainer dispatches one flush and the other is still in the channel. -/
def halting : List DispatcherEvent :=
  [.onFlushed 3, .onFlushed 7, .watch, .drainer (.ok ()), .onFlushed 9, .watch, .finish (.ok ())]

/-- Nothing fails from there on. -/
def draining : List DispatcherEvent :=
  [.drainAndStop, .drainer (.ok ()), .drainer (.ok ()), .drainer (.ok ()), .drainer (.ok ()),
    .drainAndStop]

/-- The only destination flushes three times. -/
def flushes : FlushHistory (Sample.blobsAt [0]) where
  committed := none
  base := (Sample.blobsAt [0]).opening
  raised _ := Nat.le_refl _
  events := [⟨0, 0, 3⟩, ⟨0, 4, 7⟩, ⟨0, 8, 9⟩]
  chained := by
    refine ⟨by decide, fun inner => ?_⟩
    match inner with
    | 0 => decide
    | _ + 1 => simp [rangesOf, Ranges.Chained]

/-- Two acknowledgements, in order, of the two flushes that are not suppressed. -/
theorem flush_acks_never_pass_halting :
    ∃ s, Steps.run (step suppressed) start (halting ++ draining) = some s ∧ s.acks = [8, 10]
      ∧ ∀ upTo ∈ s.told, upTo < 10 → suppressed upTo = false → upTo ∈ s.sent := by
  have reached : (Steps.run (step suppressed) start (halting ++ draining)).map
      (fun s => (s.acks, s.told)) = some ([8, 10], [3, 7, 9]) := by
    decide +kernel
  obtain ⟨s, ran, shown⟩ := Option.map_eq_some_iff.mp reached
  simp only [Prod.mk.injEq] at shown
  have heard : s.told <+: flushes.announced.map (·.2) := by
    rw [shown.2]
    decide
  have passed := (flush_acks_never_pass flushes ran heard).1
  exact ⟨s, ran, shown.1, passed 10 (by rw [shown.1]; exact .tail _ (.head _))⟩

/-- The mirror ends without an error, and what it was told of was sent. -/
theorem graceful_stop_relays_draining :
    ∃ s, Steps.run (step suppressed) start (halting ++ draining) = some s ∧ s.sent = [7, 9]
      ∧ s.sent = s.due suppressed := by
  have reached : (Steps.run (step suppressed) start (halting ++ draining)).map
      (fun s => (decide (s.owner = .ended (.ok ())), s.sent)) = some (true, [7, 9]) := by
    decide +kernel
  obtain ⟨s, ran, shown⟩ := Option.map_eq_some_iff.mp reached
  simp only [Prod.mk.injEq, decide_eq_true_eq] at shown
  exact ⟨s, ran, shown.2, (graceful_stop_relays ran shown.1).1⟩

/-- Of the steps that a halted mirror has left none is left when it has ended. -/
theorem stop_completes_draining :
    ∃ s s', Steps.run (step suppressed) start halting = some s
      ∧ Steps.run (step suppressed) s draining = some s' ∧ draining.length ≤ s.toStop := by
  have reached : (Steps.run (step suppressed) start halting).map
      (fun s => (decide (s.owner = .running), (Steps.run (step suppressed) s draining).isSome))
        = some (false, true) := by
    decide +kernel
  obtain ⟨s, ran, shown⟩ := Option.map_eq_some_iff.mp reached
  simp only [Prod.mk.injEq, decide_eq_false_iff_not] at shown
  obtain ⟨s', went⟩ := Option.isSome_iff_exists.mp shown.2
  exact ⟨s, s', ran, went, (stop_completes ran shown.1 went).1⟩

end RelaySample

end MirrorV3
