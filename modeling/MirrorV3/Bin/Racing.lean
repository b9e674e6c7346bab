import MirrorV3.Core.RunLoop
import MirrorV3.Core.Tee
import MirrorV3.Notify.Acks

/-!
The loop of a mirror beside the tasks of its notifier: each goes on when it can, and the loop is dropped
when the watch fires first.
-/

namespace MirrorV3

open Effect

namespace Mirror

variable {S K N : Type} [Source S] [Sink K]

/-- Put a polled record into the view, unless the loop or a destination refuses its place. -/
def accept (expected : Nat) (record : Record) : Program Halt (Mirror S (TeeSink K) N) Unit := do
  ensure (expected ≤ record.sourceOffset)
    (.failed (.sourceWentBackwards expected record.sourceOffset))
  let mirror ← get
  ensure (record.sourceOffset ≤ expected ∨ Sink.allowsOffsetHoles mirror.sink = true)
    (.failed (.sourceGapAboveExpected expected record.sourceOffset))
  onSink (modify (TeeSink.applyToCache record))

/-- Write a record that is in the view to the destinations that are behind it. -/
def fanOut (record : Record) : Program Halt (Mirror S (TeeSink K) N) Unit := do
  onSink do
    focus TeeSink.innersPart id (forAll (InnerSink.write record))
    modify (TeeSink.advanceResumeCursor record.sourceOffset)
  ensure (record.sourceOffset + 1 < 2 ^ 64) (.panicked "source offset overflowed u64")

/-- One answered poll, up to the view. -/
def read (expected : Nat) : Program Halt (Mirror S (TeeSink K) N) (Option Record) := do
  match ← onSource Source.pollOne with
  | some record => do
    accept expected record
    pure (some record)
  | none => do
    let _ ← verifyIdle expected
    pure none

omit [Source S] in
/-- A delivery puts the record into the view, then fans it out, and then tells the notifier. -/
theorem deliver_eq [Notifier N] (expected : Nat) (record : Record) :
    (deliver expected record : Program Halt (Mirror S (TeeSink K) N) Nat) = (do
      accept expected record
      fanOut record
      onNotifier (Notifier.onRecord record)
      pure (record.sourceOffset + 1)) := by
  -- The write of a tee begins with the view and goes on with the destinations.
  have write : onSink (Sink.write record) = (do
      onSink (modify (TeeSink.applyToCache record))
      onSink do
        focus TeeSink.innersPart id (forAll (InnerSink.write record))
        modify (TeeSink.advanceResumeCursor record.sourceOffset) :
          Program Halt (Mirror S (TeeSink K) N) Unit) := rfl
  simp only [deliver, accept, fanOut, write, bind_assoc]

/-- A poll of the loop reads first, and delivers what it read in these parts. -/
theorem poll_eq [Notifier N] (expected : Nat) :
    (poll expected : Program Halt (Mirror S (TeeSink K) N) Nat) = (do
      match ← read expected with
      | some record => do
        fanOut record
        onNotifier (Notifier.onRecord record)
        pure (record.sourceOffset + 1)
      | none => pure expected) := by
  rw [poll, read, bind_assoc]
  refine bind_congr fun polled => ?_
  cases polled with
  | none => simp only [verifyIdle, bind_assoc, pure_bind]
  | some record => simp only [deliver_eq, bind_assoc, pure_bind]

end Mirror

namespace Tasks

variable {settings : NotifySettings} {s s' : Tasks}

/-- A move hands nothing over, or one record to a notifier that waits for it. -/
theorem handed_of_move (move : Move settings s s') : s'.handed = s.handed
    ∨ ∃ record, s.loop = .idle ∧ s'.loop = .noted record ∧ s'.handed = s.handed ++ [record] := by
  have afterwards : ∀ stopping result (t : Tasks), (afterDrain stopping result t).handed = t.handed :=
    fun _ _ _ => rfl
  cases move with
  | hand record stands => exact .inr ⟨record, stands, rfl, rfl⟩
  | shutdown =>
    rcases notifyOne_eq { s with shuttingDown := true, loop := .draining true .locking } with
      ⟨-, same⟩ | ⟨-, same⟩
    all_goals
      rw [same]
      exact .inl rfl
  | append =>
    rename_i record key stands
    obtain ⟨loop, timer, newData, same, -, -⟩ := append_eq settings record key s
    rw [same]
    exact .inl rfl
  | drainSurface | drainNothing | drainDeliver | drainFail => exact .inl (afterwards _ _ _)
  | _ => exact .inl rfl

/-- The timer leaves the loop where it stands. -/
theorem loop_of_timerStep {reply : Except NotifyError Unit}
    (taken : timerStep settings reply s = some s') : s'.loop = s.loop := by
  unfold timerStep at taken
  repeat' split at taken
  all_goals
    cases taken
  all_goals rfl

/-- The watch leaves the loop where it stands, or drops it. -/
theorem loop_of_watchStep (taken : watchStep s = some s') :
    s'.loop = s.loop ∨ s'.loop = .dropped := by
  unfold watchStep at taken
  repeat' split at taken
  all_goals
    cases taken
  all_goals first
    | exact .inl rfl
    | exact .inr rfl

/-- Only the loop itself hands a record over, when it has one. -/
theorem handed_of_step {event : NotifyEvent} (taken : step settings s event = some s') :
    s'.handed = s.handed ∨ ∃ record, event = .onRecord record ∧ s'.handed = s.handed ++ [record] := by
  rcases handed_of_move (move_of_step taken) with same | ⟨record, idle, noted, handed⟩
  · exact .inl same
  -- No other event takes an idle loop to a record.
  have never : ∀ loop : LoopPc, loop = .idle ∨ loop = .dropped → s'.loop ≠ loop := by
    rintro loop (rfl | rfl) other
    all_goals
      rw [noted] at other
      cases other
  cases event with
  | onRecord other =>
    rw [step, if_pos idle] at taken
    cases taken
    exact .inr ⟨other, rfl, rfl⟩
  | shutdown =>
    rw [step, if_pos idle] at taken
    cases taken
    rcases notifyOne_eq { s with shuttingDown := true, loop := .draining true .locking } with
      ⟨-, same⟩ | ⟨-, same⟩
    all_goals
      rw [same]
      exact .inl rfl
  | leave =>
    rw [step, if_pos idle] at taken
    cases taken
    exact .inl rfl
  | loop reply =>
    rw [step, loopStep, idle] at taken
    cases taken
  | timer reply => exact absurd ((loop_of_timerStep taken).trans idle) (never _ (.inl rfl))
  | watch =>
    rcases loop_of_watchStep taken with same | dropped
    · exact absurd (same.trans idle) (never _ (.inl rfl))
    · exact absurd dropped (never _ (.inr rfl))
  | abort =>
    simp only [step, idle] at taken
    cases taken
  | tick ms =>
    cases taken
    exact .inl rfl

end Tasks

/-- Where the loop of a mirror stands. -/
inductive Stage where
  /-- About to decide where to resume. -/
  | starting
  /-- Waiting for what comes next, or for the notifier to be done with the record before. -/
  | polling (expected : Nat)
  /-- The record is in the view and not yet at every destination. -/
  | writing (record : Record)
  /-- Asked to stop, with the destinations not yet flushed. -/
  | flushing
  /-- Waiting for the notifier to drain. -/
  | draining
  /-- Ended by something else than its notifier. -/
  | failed (halt : Halt)
  deriving DecidableEq

/-- A mirror, where its loop stands, and the tasks that share its notifier. -/
structure Racing (S K : Type) where
  mirror : Mirror S (TeeSink K) NoOpNotifier
  stage : Stage
  tasks : Tasks

/-- What happens next. -/
inductive RacingEvent where
  /-- The loop goes on with what it stands at. -/
  | goOn
  | heartbeat
  /-- The loop takes notice of the shutdown signal. -/
  | stop
  /-- The loop goes on inside its notifier; a dispatch ends as the reply says. -/
  | inNotifier (reply : Except NotifyError Unit)
  | timer (reply : Except NotifyError Unit)
  | watch
  /-- The abort of the timer takes effect. -/
  | abort
  | tick (ms : Nat)

namespace Stage

variable {S K : Type} [Source S] [Sink K]

/-- What the loop does by itself from where it stands, and where it stands then. -/
def work : Stage → Option (Program Halt (Mirror S (TeeSink K) NoOpNotifier) Stage)
  | .starting => some do return .polling (← Mirror.bootstrap)
  | .polling expected => some do
    match ← Mirror.read expected with
    | some record => pure (.writing record)
    | none => pure (.polling expected)
  | .writing record => some do
    Mirror.fanOut record
    pure (.polling (record.sourceOffset + 1))
  | .flushing => some do
    Mirror.onSink Sink.flush
    pure .draining
  | .draining => none
  | .failed _ => none

/-- What the notifier is told once that is done. -/
def call : Stage → Option NotifyEvent
  | .writing record => some (.onRecord record)
  | .flushing => some .shutdown
  | _ => none

end Stage

namespace Racing

variable {S K : Type} [Source S] [Sink K]

/-- A mirror that is about to start, with its notifier and perhaps a watch on it just built. -/
def start (source : S) (tee : TeeSink K) (watched : Bool) (now : Nat) : Racing S K where
  mirror := ⟨source, tee, ⟨⟩⟩
  stage := .starting
  tasks := .start watched now

/-- The tasks after something happened to them, if it could. -/
def tell (settings : NotifySettings) (s : Racing S K) (event : NotifyEvent) :
    Option (Racing S K) :=
  (s.tasks.step settings event).map fun tasks => { s with tasks }

/-- The loop goes on outside its notifier. -/
def goOn (settings : NotifySettings) (s : Racing S K) : Option (Racing S K) :=
  if s.tasks.loop = .idle then
    s.stage.work.bind fun program =>
      match program s.mirror with
      | .ok stage mirror =>
        match s.stage.call with
        | some event => { s with mirror, stage }.tell settings event
        | none => some { s with mirror, stage }
      | .error halt mirror => { s with mirror, stage := .failed halt }.tell settings .leave
  else none

/-- The loop serves an event other than a poll, and drops the poll in flight. -/
def interrupt (next : Nat → Stage) (s : Racing S K) : Option (Racing S K) :=
  match s.stage with
  | .polling expected =>
    if s.tasks.loop = .idle then
      some { s with mirror := Mirror.abandonPoll s.mirror, stage := next expected }
    else none
  | _ => none

/-- What an event does, if it can happen. -/
def step (settings : NotifySettings) (s : Racing S K) : RacingEvent → Option (Racing S K)
  | .goOn => s.goOn settings
  | .heartbeat => s.interrupt .polling
  | .stop => s.interrupt fun _ => .flushing
  | .inNotifier reply => s.tell settings (.loop reply)
  | .timer reply => s.tell settings (.timer reply)
  | .watch => s.tell settings .watch
  | .abort => s.tell settings .abort
  | .tick ms => s.tell settings (.tick ms)

/-- The steps of a mirror, each with what it moves. -/
inductive Move (settings : NotifySettings) (s : Racing S K) : Racing S K → Prop
  | work {program : Program Halt (Mirror S (TeeSink K) NoOpNotifier) Stage} {stage : Stage}
      {mirror : Mirror S (TeeSink K) NoOpNotifier} (idle : s.tasks.loop = .idle)
      (works : s.stage.work = some program) (ran : program s.mirror = .ok stage mirror)
      (silent : s.stage.call = none) : Move settings s { s with mirror, stage }
  | call {program : Program Halt (Mirror S (TeeSink K) NoOpNotifier) Stage} {stage : Stage}
      {mirror : Mirror S (TeeSink K) NoOpNotifier} {event : NotifyEvent} {tasks : Tasks}
      (idle : s.tasks.loop = .idle) (works : s.stage.work = some program)
      (ran : program s.mirror = .ok stage mirror) (calls : s.stage.call = some event)
      (told : s.tasks.step settings event = some tasks) : Move settings s ⟨mirror, stage, tasks⟩
  | fail {program : Program Halt (Mirror S (TeeSink K) NoOpNotifier) Stage} {halt : Halt}
      {mirror : Mirror S (TeeSink K) NoOpNotifier} {tasks : Tasks} (idle : s.tasks.loop = .idle)
      (works : s.stage.work = some program) (ran : program s.mirror = .error halt mirror)
      (left : s.tasks.step settings .leave = some tasks) :
      Move settings s ⟨mirror, .failed halt, tasks⟩
  | interrupt {expected : Nat} (stage : Stage) (idle : s.tasks.loop = .idle)
      (stands : s.stage = .polling expected) (next : stage = .polling expected ∨ stage = .flushing) :
      Move settings s { s with mirror := Mirror.abandonPoll s.mirror, stage }
  | inside {event : NotifyEvent} {tasks : Tasks} (told : s.tasks.step settings event = some tasks)
      (handed : tasks.handed = s.tasks.handed) : Move settings s { s with tasks }

variable {settings : NotifySettings} {s s' : Racing S K}

omit [Source S] [Sink K] in
/-- What happens to the tasks happens to nothing else. -/
theorem tell_eq_some {event : NotifyEvent} :
    s.tell settings event = some s'
      ↔ ∃ tasks, s.tasks.step settings event = some tasks ∧ s' = { s with tasks } := by
  rw [tell, Option.map_eq_some_iff]
  exact exists_congr fun tasks => and_congr_right fun _ => eq_comm

/-- Every step is one of these moves. -/
theorem move_of_step {event : RacingEvent} (taken : s.step settings event = some s') :
    Move settings s s' := by
  -- The tasks go on without a record of the loop.
  have inside : ∀ event : NotifyEvent, (∀ record, event ≠ .onRecord record) →
      s.tell settings event = some s' → Move settings s s' := by
    intro event other taken
    obtain ⟨tasks, told, rfl⟩ := tell_eq_some.mp taken
    refine .inside told ?_
    rcases Tasks.handed_of_step told with same | ⟨record, handing, -⟩
    · exact same
    · exact absurd handing (other record)
  have interrupted : ∀ next : Nat → Stage,
      (∀ expected, next expected = .polling expected ∨ next expected = .flushing) →
      s.interrupt next = some s' → Move settings s s' := by
    intro next either taken
    cases stands : s.stage with
    | polling expected =>
      simp only [interrupt, stands] at taken
      split at taken
      · rename_i idle
        cases taken
        exact .interrupt (next expected) idle stands (either expected)
      · cases taken
    | _ =>
      simp only [interrupt, stands] at taken
      cases taken
  cases event with
  | goOn =>
    by_cases idle : s.tasks.loop = .idle
    · simp only [step, goOn, if_pos idle] at taken
      obtain ⟨program, works, taken⟩ := Option.bind_eq_some_iff.mp taken
      cases ran : program s.mirror with
      | ok stage mirror =>
        simp only [ran] at taken
        cases calls : s.stage.call with
        | some event =>
          simp only [calls] at taken
          obtain ⟨tasks, told, rfl⟩ := tell_eq_some.mp taken
          exact .call idle works ran calls told
        | none =>
          simp only [calls] at taken
          cases taken
          exact .work idle works ran calls
      | error halt mirror =>
        simp only [ran] at taken
        obtain ⟨tasks, left, rfl⟩ := tell_eq_some.mp taken
        exact .fail idle works ran left
    · simp only [step, goOn, if_neg idle] at taken
      cases taken
  | heartbeat => exact interrupted .polling (fun _ => .inl rfl) taken
  | stop => exact interrupted (fun _ => .flushing) (fun _ => .inr rfl) taken
  | inNotifier reply => exact inside (.loop reply) (fun _ same => by cases same) taken
  | timer reply => exact inside (.timer reply) (fun _ same => by cases same) taken
  | watch => exact inside .watch (fun _ same => by cases same) taken
  | abort => exact inside .abort (fun _ same => by cases same) taken
  | tick ms => exact inside (.tick ms) (fun _ same => by cases same) taken

/-- The tasks of a mirror only ever go on as tasks do. -/
theorem Move.tasks (move : Move settings s s') :
    s'.tasks = s.tasks ∨ ∃ event, s.tasks.step settings event = some s'.tasks := by
  cases move with
  | work | interrupt => exact .inl rfl
  | call _ _ _ _ told => exact .inr ⟨_, told⟩
  | fail _ _ _ left => exact .inr ⟨_, left⟩
  | inside told => exact .inr ⟨_, told⟩

/-- What a notifier's batches are held to holds whatever mirror the notifier belongs to. -/
theorem orderly_of_run {source : S} {tee : TeeSink K} {watched : Bool} {now : Nat}
    {events : List RacingEvent}
    (ran : Steps.run (step settings) (start source tee watched now) events = some s) :
    Tasks.Sound settings s.tasks ∧ Tasks.Orderly settings s.tasks := by
  refine Steps.run_rule (fun t : Racing S K => Tasks.Sound settings t.tasks
    ∧ Tasks.Orderly settings t.tasks) ?_ ran ⟨Tasks.sound_start watched now,
      Tasks.orderly_start watched now⟩
  intro t event t' taken kept
  obtain ⟨sound, orderly⟩ := kept
  rcases (move_of_step taken).tasks with same | ⟨event, told⟩
  · rw [same]
    exact ⟨sound, orderly⟩
  · exact ⟨sound.step told, orderly.step sound told⟩

end Racing

end MirrorV3
