import MirrorV3.Bin.Reread
import MirrorV3.Notify.Stopped

/-! A mirror that notifies and was stopped gracefully has told of everything that it read. -/

namespace MirrorV3

open Effect

/-- Whether the loop was asked to stop. -/
def Stage.stops : Stage → Bool
  | .flushing => true
  | .draining => true
  | _ => false

namespace Racing

variable {K : Type} [Sink K] {start : CacheBinding} {source : LogSource} {tee : TeeSink K}
  {settings : NotifySettings} {s s' : Racing LogSource K}

/-- A loop that was asked to stop has handed over everything that it read. -/
def HandedAll (source : LogSource) (tee : TeeSink K) (s : Racing LogSource K) : Prop :=
  s.stage.stops = true → ∃ first, Resumes source tee first
    ∧ LogSource.SameLog source s.mirror.source
    ∧ s.tasks.handed = source.log.between first s.mirror.source.position

/-- A loop that was not asked to stop is not held to anything. -/
theorem HandedAll.of_not (running : s.stage.stops = false) : HandedAll source tee s :=
  fun stops => absurd (running.symm.trans stops) Bool.false_ne_true

/-- The stop comes between two polls, with nothing read that was not handed over. -/
theorem HandedAll.move (fed : Fed start source tee s) (handed : HandedAll source tee s)
    (move : Move settings s s') : HandedAll source tee s' := by
  cases move with
  | work idle works ran silent =>
    rename_i program stage mirror
    -- What the loop does without a word to its notifier takes it to a poll or a write.
    have runs : wp program (fun stage _ => stage.stops = false) (fun _ _ => True) s.mirror := by
      cases stands : s.stage with
      | starting =>
        rw [stands] at works
        cases works
        simp only [wp_bind, wp_pure]
        exact wp_any (fun _ _ => rfl) (fun _ _ => trivial)
      | polling expected =>
        rw [stands] at works
        cases works
        simp only [wp_bind]
        refine wp_any ?_ (fun _ _ => trivial)
        intro polled m
        cases polled <;> rfl
      | writing record | flushing =>
        rw [stands] at silent
        cases silent
      | draining | failed halt =>
        rw [stands] at works
        cases works
    have goes := wp_of_ok runs ran
    exact .of_not goes
  -- A call of the notifier is made with a record, or when the loop stops.
  | call idle works ran calls told =>
    rename_i program stage mirror event tasks
    cases stands : s.stage with
    | writing record =>
      rw [stands] at works
      cases works
      have runs : wp (do
          Mirror.fanOut record
          pure (.polling (record.sourceOffset + 1)) :
            Program Halt (Mirror LogSource (TeeSink K) NoOpNotifier) Stage)
          (fun stage _ => stage.stops = false) (fun _ _ => True) s.mirror := by
        simp only [wp_bind, wp_pure]
        exact wp_any (fun _ _ => rfl) (fun _ _ => trivial)
      have goes := wp_of_ok runs ran
      exact .of_not goes
    | flushing =>
      rw [stands] at works calls
      cases works
      cases calls
      obtain ⟨first, resumes, sameLog, all⟩ := handed (by rw [stands]; rfl)
      -- Asking the notifier to stop hands it no record.
      have same : tasks.handed = s.tasks.handed := by
        rcases Tasks.handed_of_step told with same | ⟨record, never, -⟩
        · exact same
        · cases never
      -- The flush is the destinations' affair, and the source stays where it is.
      have flushed : wp (do
          Mirror.onSink Sink.flush
          pure .draining : Program Halt (Mirror LogSource (TeeSink K) NoOpNotifier) Stage)
          (fun _ m => m.source = s.mirror.source) (fun _ _ => True) s.mirror := by
        simp only [Mirror.onSink, wp_bind, wp_focus, wp_pure]
        exact wp_any (fun _ _ => rfl) (fun _ _ => trivial)
      have stays := wp_of_ok flushed ran
      intro _
      refine ⟨first, resumes, ?_, ?_⟩
      · rw [stays]
        exact sameLog
      · rw [same, all, stays]
    | starting | polling expected | draining | failed halt =>
      rw [stands] at calls
      cases calls
  | fail => exact .of_not rfl
  | interrupt stage idle stands next =>
    rcases next with rfl | rfl
    · exact .of_not rfl
    · -- The loop stops where it polls, and there it has handed over all it read.
      unfold Fed at fed
      rw [stands] at fed
      obtain ⟨first, resumes, reading, all⟩ := fed
      intro _
      refine ⟨first, resumes, reading.sameLog, ?_⟩
      -- Dropping a poll that has not answered drops nothing of a log.
      show s.tasks.handed = source.log.between first s.mirror.source.position
      rw [reading.position, all]
  | inside told same =>
    intro stops
    obtain ⟨first, resumes, sameLog, all⟩ := handed stops
    exact ⟨first, resumes, sameLog, same.trans all⟩

/-- What a stop leaves of the notifier's batches holds whatever mirror the notifier belongs to. -/
theorem emptied_of_run {watched : Bool} {now : Nat} {events : List RacingEvent}
    (ran : Steps.run (step settings) (.start source tee watched now) events = some s) :
    Tasks.Emptied settings s.tasks := by
  have kept : (Tasks.Sound settings s.tasks ∧ Tasks.Orderly settings s.tasks)
      ∧ Tasks.Emptied settings s.tasks := by
    refine Steps.run_rule (fun t : Racing LogSource K => (Tasks.Sound settings t.tasks
      ∧ Tasks.Orderly settings t.tasks) ∧ Tasks.Emptied settings t.tasks) ?_ ran
      ⟨⟨Tasks.sound_start watched now, Tasks.orderly_start watched now⟩, .of_not rfl⟩
    intro t event t' taken kept
    obtain ⟨⟨sound, orderly⟩, emptied⟩ := kept
    -- A step of the mirror leaves the notifier alone, or is one of the steps of its tasks.
    rcases (move_of_step taken).tasks with same | ⟨event, told⟩
    · rw [same]
      exact ⟨⟨sound, orderly⟩, emptied⟩
    · exact ⟨⟨sound.step told, orderly.step sound told⟩,
        Tasks.emptied_step sound orderly emptied told⟩
  exact kept.2

/-- In every run the loop has handed over everything it read when it is asked to stop. -/
theorem handedAll_of_run (cached : tee.cache = some start) {watched : Bool} {now : Nat}
    {events : List RacingEvent}
    (ran : Steps.run (step settings) (.start source tee watched now) events = some s) :
    HandedAll source tee s := by
  have kept : Fed start source tee s ∧ HandedAll source tee s := by
    refine Steps.run_rule (fun t => Fed start source tee t ∧ HandedAll source tee t) ?_ ran
      ⟨⟨rfl, rfl⟩, .of_not rfl⟩
    intro t event t' taken kept
    obtain ⟨fed, handed⟩ := kept
    have move := move_of_step taken
    exact ⟨fed.move cached move, handed.move fed move⟩
  exact kept.2

/--
A mirror that was stopped gracefully and ends without an error has told of everything that it read.

Wherever it resumed, and whatever its timer was waiting for, dispatching or failing when the stop
came: each record it read that is not suppressed and has a text key is in exactly one batch whose
dispatch succeeded, in order, and the last acknowledgement is one past the last of these records.
-/
theorem graceful_stop_notifies (cached : tee.cache = some start) {watched : Bool} {now : Nat}
    {events : List RacingEvent}
    (ran : Steps.run (step settings) (.start source tee watched now) events = some s)
    (drained : s.stage = .draining) (ended : s.tasks.loop = .ended (.ok ())) :
    ∃ first, Resumes source tee first
      ∧ s.tasks.sent.flatMap (·.records)
        = (source.log.between first s.mirror.source.position).filter settings.Tells
      ∧ s.tasks.acks.getLast?
        = ((source.log.between first s.mirror.source.position).filter settings.Tells).getLast?.map
            (·.sourceOffset + 1) := by
  -- What was read was handed over, and of that nothing is left in the notifier.
  obtain ⟨first, resumes, -, all⟩ := handedAll_of_run cached ran (by rw [drained]; rfl)
  obtain ⟨-, orderly⟩ := orderly_of_run ran
  have cleared := emptied_of_run ran (by rw [ended]; rfl)
  -- Records come in the order of the log, so the last batch ends with the last record.
  have ordered : Tasks.InOffsetOrder s.tasks.handed := by
    rw [all]
    exact source.log.increasing.sublist List.filter_sublist
  refine ⟨first, resumes, by rw [← all]; exact cleared.delivered, ?_⟩
  rw [← all]
  exact orderly.last_ack cleared ordered

end Racing

namespace StoppingSample

open NotifySample RereadSample

/-- The stop comes while the timer dispatches, which ends well after it. -/
def stopped : List RacingEvent :=
  dispatched ++ [.stop, .goOn, .timer (.ok ()), .inNotifier (.ok ()), .inNotifier (.ok ()),
    .inNotifier (.ok ()), .abort, .inNotifier (.ok ())]

/-- The record was told of, and is acknowledged when the mirror ends. -/
theorem graceful_stop_notifies_dispatching :
    ∃ s first, Steps.run (Racing.step settings) (.start source tee true 0) stopped = some s
      ∧ s.tasks.acks = [4]
      ∧ s.tasks.sent.flatMap (·.records)
        = (source.log.between first s.mirror.source.position).filter settings.Tells := by
  have ended : (Steps.run (Racing.step settings) (.start source tee true 0) stopped).map
      (fun s => (decide (s.stage = .draining), decide (s.tasks.loop = .ended (.ok ())), s.tasks.acks))
        = some (true, true, [4]) := by
    decide +kernel
  obtain ⟨s, ran, shown⟩ := Option.map_eq_some_iff.mp ended
  simp only [Prod.mk.injEq, decide_eq_true_eq] at shown
  obtain ⟨first, -, sent, -⟩ :=
    Racing.graceful_stop_notifies rfl ran shown.1 shown.2.1
  exact ⟨s, first, ran, shown.2.2, sent⟩

end StoppingSample

end MirrorV3
