import MirrorV3.Notify.Tasks

/-! A buffered notification is never stranded: the timer is on its way to it, or will be woken for it. -/

namespace MirrorV3

/-- Whether the timer is past its wait and has not taken the buffer since. -/
def TimerPc.due : TimerPc → Bool
  | .woken => true
  | .measuring => true
  | .sleeping _ _ => true
  | .locking => true
  | .taking => true
  | _ => false

/-- Whether the loop is on its way to a stop. -/
def LoopPc.stops : LoopPc → Bool
  | .joining _ => true
  | .draining stopping _ => stopping
  | _ => false

namespace Tasks

variable {settings : NotifySettings} {s s' : Tasks}

/-- The record that is about to be appended is one to tell of. -/
def Keyed (settings : NotifySettings) (s : Tasks) : Prop :=
  ∀ record key, s.loop = .appending record key → settings.Tells record ∧ record.utf8Key = some key

/-- Only a record to tell of comes to be appended. -/
theorem Keyed.move (keyed : Keyed settings s) (move : Move settings s s') : Keyed settings s' := by
  have afterwards : ∀ stopping result (s : Tasks), Keyed settings (afterDrain stopping result s) := by
    intro stopping result s record key stands
    rcases afterDrain_eq stopping result s with ⟨-, joins⟩ | ⟨-, -, idle⟩ | ⟨e, -, -, ended⟩
    · rw [joins] at stands
      cases stands
    · rw [idle] at stands
      cases stands
    · rw [ended] at stands
      cases stands
  cases move with
  | tell stands tells known =>
    intro record key appends
    cases appends
    exact ⟨tells, known⟩
  | append stands =>
    rename_i told text
    obtain ⟨loop, timer, newData, same, loops, -⟩ := append_eq settings told text s
    intro record key appends
    rw [same] at appends
    obtain rfl : loop = .appending record key := appends
    rcases loops with never | never <;> cases never
  | drainSurface | drainNothing | drainDeliver | drainFail => exact afterwards _ _ _
  | shutdown =>
    intro record key appends
    unfold notifyOne at appends
    split at appends <;> cases appends
  | hand | leave | surface | skip | lock | drainCheck | drainTake | joinFail | joinSurface | join
  | fire =>
    intro record key appends
    cases appends
  | _ => exact keyed

/-- What is pending is what the buffer was filled with. -/
def Collected (s : Tasks) : Prop := s.buffer.Collects s.pending

/-- Records are appended and taken with the buffer. -/
theorem Collected.move (collected : Collected s) (keyed : Keyed settings s)
    (move : Move settings s s') : Collected s' := by
  have afterwards : ∀ stopping result (s : Tasks), Collected s →
      Collected (afterDrain stopping result s) := by
    intro stopping result s collected
    rcases afterDrain_eq stopping result s with ⟨-, same⟩ | ⟨-, -, same⟩ | ⟨e, -, -, same⟩
    all_goals
      rw [same]
      exact collected
  cases move with
  | append stands =>
    rename_i record key
    obtain ⟨loop, timer, newData, same, -, -⟩ := append_eq settings record key s
    rw [same]
    exact Buffer.Collects.append collected (keyed record key stands).2 s.now
  | drainTake => exact Buffer.collects_empty
  | timerTake => exact Buffer.collects_empty
  | drainSurface | drainNothing | drainDeliver | drainFail => exact afterwards _ _ _ collected
  | shutdown =>
    rcases notifyOne_eq { s with shuttingDown := true, loop := .draining true .locking } with
      ⟨-, same⟩ | ⟨-, same⟩
    all_goals
      rw [same]
      exact collected
  | _ => exact collected

/-- Nothing has gone wrong so far, and no stop has begun. -/
structure Running (s : Tasks) : Prop where
  unfailed : s.failures = []
  open_ : s.shuttingDown = false

/-- The timer ends only after a dispatch failed or a stop began, and the stop has been announced. -/
structure Lives (s : Tasks) : Prop where
  finished : s.timer.finished = true → s.failures ≠ [] ∨ s.shuttingDown = true
  stashing : ∀ e, s.timer = .stashing e → s.failures ≠ []
  stops : s.loop.stops = true → s.shuttingDown = true

/-- After a drain the loop is on its way to a stop only if it was before. -/
theorem Lives.afterDrain {stopping : Bool} (lives : Lives s)
    (stops : stopping = true → s.shuttingDown = true) (result : Except NotifyError Unit) :
    Lives (afterDrain stopping result s) := by
  rcases afterDrain_eq stopping result s with ⟨told, same⟩ | ⟨-, -, same⟩ | ⟨e, -, -, same⟩
  · rw [same]
    exact ⟨lives.finished, lives.stashing, fun _ => stops told⟩
  · rw [same]
    exact ⟨lives.finished, lives.stashing, fun never => absurd never Bool.false_ne_true⟩
  · rw [same]
    exact ⟨lives.finished, lives.stashing, fun never => absurd never Bool.false_ne_true⟩

/-- The timer keeps living as long as nothing fails and no stop begins. -/
theorem Lives.move (lives : Lives s) (move : Move settings s s') : Lives s' := by
  have stopping : ∀ {drain : DrainPc} {stopping : Bool}, s.loop = .draining stopping drain →
      stopping = true → s.shuttingDown = true := by
    intro drain stopping stands told
    exact lives.stops (by rw [stands]; exact told)
  cases move with
  | tick | watch => exact ⟨lives.finished, lives.stashing, lives.stops⟩
  | hand | leave | surface | skip | tell | joinFail | joinSurface | join | fire =>
    -- The loop goes on outside a stop, or ends.
    exact ⟨lives.finished, lives.stashing, fun never => absurd never Bool.false_ne_true⟩
  | shutdown =>
    rcases notifyOne_eq { s with shuttingDown := true, loop := .draining true .locking } with
      ⟨-, same⟩ | ⟨-, same⟩
    · rw [same]
      exact ⟨fun _ => .inr rfl, nofun, fun _ => rfl⟩
    · rw [same]
      exact ⟨fun _ => .inr rfl, lives.stashing, fun _ => rfl⟩
  | append stands =>
    rename_i record key
    obtain ⟨loop, timer, newData, same, loops, wakes⟩ := append_eq settings record key s
    rw [same]
    have outside : LoopPc.stops loop = true → s.shuttingDown = true := by
      intro stops
      rcases loops with rfl | rfl <;> cases stops
    rcases wakes with ⟨-, rfl, -⟩ | ⟨-, rfl, -⟩ | ⟨-, rfl, -⟩
    · exact ⟨lives.finished, lives.stashing, outside⟩
    · exact ⟨nofun, nofun, outside⟩
    · exact ⟨lives.finished, lives.stashing, outside⟩
  | lock stands | drainCheck stands | drainTake stands =>
    exact ⟨lives.finished, lives.stashing, stopping stands⟩
  | drainSurface stands =>
    have kept : Lives { s with errorState := none } := ⟨lives.finished, lives.stashing, lives.stops⟩
    exact kept.afterDrain (stopping stands) _
  | drainNothing stands => exact lives.afterDrain (stopping stands) _
  | drainDeliver stands =>
    rename_i flight
    have kept : Lives (s.deliver flight) := ⟨lives.finished, lives.stashing, lives.stops⟩
    exact kept.afterDrain (stopping stands) _
  | drainFail e stands =>
    have kept : Lives { s with failures := s.failures ++ [e] } :=
      ⟨fun _ => .inl (by simp), fun _ _ => by simp, lives.stops⟩
    exact kept.afterDrain (stopping stands) _
  | exit stands stops =>
    exact ⟨fun _ => .inr stops, nofun, lives.stops⟩
  | permit | wait | wake | measure | rest | rise | timerLock | timerNothing | timerTake
  | timerDeliver =>
    -- The timer goes on.
    exact ⟨fun never => absurd never Bool.false_ne_true, nofun, lives.stops⟩
  | timerFail e stands =>
    exact ⟨fun never => absurd never Bool.false_ne_true, fun _ _ => by simp, lives.stops⟩
  | stash signal watch stands =>
    exact ⟨fun _ => .inl (lives.stashing _ stands), nofun, lives.stops⟩
  | abort stands running =>
    have told : s.shuttingDown = true := lives.stops (by rw [stands]; rfl)
    exact ⟨fun _ => .inr told, nofun, lives.stops⟩

/-- Someone will take the buffer if there is anything in it: the timer, now or after its permit. -/
def Wakes (s : Tasks) : Prop :=
  s.buffer.isEmpty = false → s.timer.finished = true ∨ (∃ e, s.timer = .stashing e)
    ∨ s.newData = true ∨ s.timer.due = true

/-- An empty buffer asks for nothing. -/
theorem Wakes.of_empty (empty : s.buffer.isEmpty = true) : Wakes s := by
  intro filled
  rw [empty] at filled
  cases filled

/-- A wake-up is sent for every buffer that begins to fill, and is not lost. -/
theorem Wakes.move (wakes : Wakes s) (collected : Collected s) (move : Move settings s s') :
    Wakes s' := by
  have afterwards : ∀ stopping result (s : Tasks), Wakes s → Wakes (afterDrain stopping result s) := by
    intro stopping result s wakes
    rcases afterDrain_eq stopping result s with ⟨-, same⟩ | ⟨-, -, same⟩ | ⟨e, -, -, same⟩
    all_goals
      rw [same]
      exact wakes
  cases move with
  | append stands =>
    rename_i record key
    obtain ⟨loop, timer, newData, same, -, wake⟩ := append_eq settings record key s
    rw [same]
    intro _
    rcases wake with ⟨filled, rfl, rfl⟩ | ⟨-, rfl, -⟩ | ⟨-, -, rfl⟩
    · exact wakes filled
    · exact .inr (.inr (.inr rfl))
    · exact .inr (.inr (.inl rfl))
  | drainTake => exact .of_empty rfl
  | timerTake => exact .of_empty rfl
  | drainSurface | drainNothing | drainDeliver | drainFail => exact afterwards _ _ _ wakes
  | shutdown =>
    rcases notifyOne_eq { s with shuttingDown := true, loop := .draining true .locking } with
      ⟨-, same⟩ | ⟨-, same⟩
    · rw [same]
      exact fun _ => .inr (.inr (.inr rfl))
    · rw [same]
      exact fun _ => .inr (.inr (.inl rfl))
  | permit | wake | measure | rise | timerLock => exact fun _ => .inr (.inr (.inr rfl))
  | wait stands left =>
    -- Without a permit the timer only waits for an empty buffer.
    intro filled
    rcases wakes filled with stopped | ⟨e, stashing⟩ | permit | due
    · rw [stands] at stopped
      cases stopped
    · rw [stands] at stashing
      cases stashing
    · rw [left] at permit
      cases permit
    · rw [stands] at due
      cases due
  | rest stands came =>
    refine .of_empty (collected.isEmpty_iff.mpr ?_)
    have started := collected.started
    rw [came] at started
    simpa using started.symm
  | timerNothing stands empty => exact .of_empty empty
  | timerDeliver stands =>
    intro filled
    rcases wakes filled with stopped | ⟨e, stashing⟩ | permit | due
    · rw [stands] at stopped
      cases stopped
    · rw [stands] at stashing
      cases stashing
    · exact .inr (.inr (.inl permit))
    · rw [stands] at due
      cases due
  | timerFail e stands => exact fun _ => .inr (.inl ⟨e, rfl⟩)
  | exit | stash | abort => exact fun _ => .inl rfl
  | _ => exact wakes

/-- A timer that sleeps was not asked to sleep past the wait of the first record, unless not at all. -/
structure Sleeps (settings : NotifySettings) (s : Tasks) : Prop where
  came : ∀ first, s.buffer.firstAt = some first → first ≤ s.now
  bounded : ∀ began wakesAt, s.timer = .sleeping began wakesAt →
    began ≤ s.now ∧ wakesAt ≤ began + settings.maxTime
      ∧ ∀ first, s.buffer.firstAt = some first →
        wakesAt ≤ first + settings.maxTime ∨ wakesAt = began

/-- The wait is measured from the first record, and a record that comes during a sleep is later. -/
theorem Sleeps.move (sleeps : Sleeps settings s) (move : Move settings s s') :
    Sleeps settings s' := by
  have afterwards : ∀ stopping result (s : Tasks), Sleeps settings s →
      Sleeps settings (afterDrain stopping result s) := by
    intro stopping result s sleeps
    rcases afterDrain_eq stopping result s with ⟨-, same⟩ | ⟨-, -, same⟩ | ⟨e, -, -, same⟩
    all_goals
      rw [same]
      exact ⟨sleeps.came, sleeps.bounded⟩
  cases move with
  | tick ms =>
    refine ⟨fun first came => ?_, fun began wakesAt stands => ?_⟩
    · have before := sleeps.came first came
      exact Nat.le_trans before (Nat.le_add_right s.now ms)
    · obtain ⟨started, most, wait⟩ := sleeps.bounded began wakesAt stands
      exact ⟨Nat.le_trans started (Nat.le_add_right s.now ms), most, wait⟩
  | append stands =>
    rename_i record key
    obtain ⟨loop, timer, newData, same, -, wake⟩ := append_eq settings record key s
    rw [same]
    -- The first record is the one it was, or the one that comes now.
    have firstAt : ∀ first, some (s.buffer.firstAt.getD s.now) = some first →
        s.buffer.firstAt = some first ∨ first = s.now := by
      intro first is
      cases old : s.buffer.firstAt with
      | none =>
        rw [old] at is
        exact .inr (Option.some.inj is).symm
      | some first' =>
        rw [old] at is
        exact .inl is
    refine ⟨fun first came => ?_, fun began wakesAt stands => ?_⟩
    · rcases firstAt first came with old | rfl
      · exact sleeps.came first old
      · exact Nat.le_refl s.now
    · have slept : s.timer = .sleeping began wakesAt := by
        rcases wake with ⟨-, rfl, -⟩ | ⟨-, rfl, -⟩ | ⟨-, rfl, -⟩
        · exact stands
        · cases stands
        · exact stands
      obtain ⟨started, most, wait⟩ := sleeps.bounded began wakesAt slept
      refine ⟨started, most, fun first came => ?_⟩
      rcases firstAt first came with old | rfl
      · exact wait first old
      · exact .inl (by omega)
  | measure stands came =>
    rename_i first
    refine ⟨sleeps.came, fun began wakesAt slept => ?_⟩
    obtain ⟨rfl, rfl⟩ := TimerPc.sleeping.inj slept
    have before := sleeps.came first came
    refine ⟨Nat.le_refl _, by omega, fun first' came' => ?_⟩
    obtain rfl := Option.some.inj (came.symm.trans came')
    omega
  | drainTake => exact ⟨nofun, fun began wakesAt stands => ⟨(sleeps.bounded began wakesAt stands).1,
      (sleeps.bounded began wakesAt stands).2.1, nofun⟩⟩
  | timerTake => exact ⟨nofun, nofun⟩
  | drainSurface | drainNothing | drainDeliver | drainFail =>
    exact afterwards _ _ _ ⟨sleeps.came, sleeps.bounded⟩
  | shutdown =>
    rcases notifyOne_eq { s with shuttingDown := true, loop := .draining true .locking } with
      ⟨-, same⟩ | ⟨-, same⟩
    · rw [same]
      exact ⟨sleeps.came, nofun⟩
    · rw [same]
      exact ⟨sleeps.came, sleeps.bounded⟩
  | permit | wait | exit | wake | rest | rise | timerLock | timerNothing | timerDeliver | timerFail
  | stash | abort => exact ⟨sleeps.came, nofun⟩
  | _ => exact ⟨sleeps.came, sleeps.bounded⟩

/-- Until the buffer is drained, a timer past its wait does not wait again. -/
theorem due_move (collected : Collected s) (lives : Lives s) (due : s.timer.due = true)
    (move : Move settings s s') (running : Running s') (filled : s'.buffer.isEmpty = false) :
    s'.timer.due = true := by
  have afterwards : ∀ stopping result (s : Tasks), s.timer.due = true →
      (afterDrain stopping result s).timer.due = true := by
    intro stopping result s due
    rcases afterDrain_eq stopping result s with ⟨-, same⟩ | ⟨-, -, same⟩ | ⟨e, -, -, same⟩
    all_goals
      rw [same]
      exact due
  cases move with
  | append stands =>
    rename_i record key
    obtain ⟨loop, timer, newData, same, -, wake⟩ := append_eq settings record key s
    rw [same]
    rcases wake with ⟨-, rfl, -⟩ | ⟨-, rfl, -⟩ | ⟨-, rfl, -⟩
    · exact due
    · rfl
    · exact due
  | drainSurface | drainNothing | drainDeliver | drainFail => exact afterwards _ _ _ due
  | shutdown =>
    rcases notifyOne_eq { s with shuttingDown := true, loop := .draining true .locking } with
      ⟨-, same⟩ | ⟨-, same⟩
    · rw [same]
      rfl
    · rw [same]
      exact due
  | wake | measure | rise | timerLock => rfl
  | permit stands | wait stands | timerDeliver stands | timerFail e stands | stash signal watch stands =>
    -- Here the timer was not past its wait, or had taken the buffer.
    rw [stands] at due
    cases due
  | exit stands stops => exact absurd (running.open_.symm.trans stops) Bool.false_ne_true
  | rest stands came =>
    have started := collected.started
    rw [came] at started
    have nothing : s.pending = [] := by simpa using started.symm
    exact absurd (filled.symm.trans (collected.isEmpty_iff.mpr nothing)) Bool.false_ne_true
  | timerNothing stands empty => exact absurd (filled.symm.trans empty) Bool.false_ne_true
  | timerTake => cases filled
  | abort stands alive =>
    have told : s.shuttingDown = true := lives.stops (by rw [stands]; rfl)
    exact absurd (running.open_.symm.trans told) Bool.false_ne_true
  | _ => exact due

/-- What is true of every state that the tasks come to. -/
structure Sound (settings : NotifySettings) (s : Tasks) : Prop where
  keyed : Keyed settings s
  collected : Collected s
  lives : Lives s
  wakes : Wakes s
  sleeps : Sleeps settings s

/-- It is true at the start. -/
theorem sound_start (watched : Bool) (now : Nat) : Sound settings (start watched now) where
  keyed := nofun
  collected := Buffer.collects_empty
  lives := ⟨nofun, nofun, nofun⟩
  wakes := .of_empty rfl
  sleeps := ⟨nofun, nofun⟩

/-- Every step keeps it. -/
theorem Sound.step {event : NotifyEvent} (sound : Sound settings s)
    (taken : step settings s event = some s') : Sound settings s' := by
  have move := move_of_step taken
  exact {
    keyed := sound.keyed.move move
    collected := sound.collected.move sound.keyed move
    lives := sound.lives.move move
    wakes := sound.wakes.move sound.collected move
    sleeps := sound.sleeps.move move }

/-- Every run keeps it. -/
theorem sound_of_run {watched : Bool} {now : Nat} {events : List NotifyEvent}
    (ran : Steps.run (Tasks.step settings) (start watched now) events = some s) :
    Sound settings s :=
  Steps.run_rule (Sound settings) (fun _ _ _ taken sound => sound.step taken) ran
    (sound_start watched now)

/--
A buffered notification is attended to: by a timer past its wait, or by a permit that wakes it.

A timer past its wait does not wait again before the buffer is drained, and when it sleeps for a buffer
it wakes up at the latest when the first record has waited its time, or does not sleep at all.
-/
theorem buffered_attended {watched : Bool} {now : Nat} {events : List NotifyEvent}
    (ran : Steps.run (Tasks.step settings) (start watched now) events = some s) :
    (Running s → s.buffer.isEmpty = false → s.newData = true ∨ s.timer.due = true)
      ∧ (∀ later s', Steps.run (Tasks.step settings) s later = some s' →
        Steps.Throughout (Tasks.step settings)
          (fun t => Running t ∧ t.buffer.isEmpty = false) s later →
        s.timer.due = true → s'.timer.due = true)
      ∧ ∀ began wakesAt first, s.timer = .sleeping began wakesAt → s.buffer.firstAt = some first →
        wakesAt ≤ first + settings.maxTime ∨ wakesAt = began := by
  have sound := sound_of_run ran
  refine ⟨fun running filled => ?_, fun later s' reached through due => ?_, ?_⟩
  · rcases sound.wakes filled with stopped | ⟨e, stashing⟩ | permit | due
    · rcases sound.lives.finished stopped with failed | stops
      · exact absurd running.unfailed failed
      · exact absurd (running.open_.symm.trans stops) Bool.false_ne_true
    · exact absurd running.unfailed (sound.lives.stashing e stashing)
    · exact .inl permit
    · exact .inr due
  · -- Step by step the timer stays past its wait.
    have kept := Steps.run_rule_throughout _ (fun t => Sound settings t ∧ t.timer.due = true)
      (fun t event t' taken _ kind' ⟨sound, due⟩ =>
        ⟨sound.step taken, due_move sound.collected sound.lives due (move_of_step taken) kind'.1 kind'.2⟩)
      reached through ⟨sound, due⟩
    exact kept.2
  · intro began wakesAt first slept came
    exact (sound.sleeps.bounded began wakesAt slept).2.2 first came

end Tasks

namespace NotifySample

open Tasks

/-- Batches of a hundred records or ten milliseconds, and nothing suppressed. -/
def settings : NotifySettings := ⟨0, 100, 10, fun _ => false⟩

/-- A record with a key. -/
def keyed (offset : Nat) : Record where
  topic := "t"
  partition := 0
  sourceOffset := offset
  timestampMs := none
  timestampType := .notAvailable
  key := some [107]
  value := none
  headers := []

/-- A first record waits its time and is dispatched for long, and a second one comes meanwhile. -/
def slowDispatch : List NotifyEvent :=
  [.timer (.ok ()), .onRecord (keyed 0), .loop (.ok ()), .loop (.ok ()),
    .timer (.ok ()), .timer (.ok ()), .tick 10, .timer (.ok ()), .timer (.ok ()), .timer (.ok ()),
    .onRecord (keyed 1), .loop (.ok ()), .loop (.ok ()), .tick 100, .timer (.ok ()),
    .timer (.ok ()), .timer (.ok ()), .timer (.ok ())]

/-- After that the timer is past its wait for a buffer that filled a hundred milliseconds ago. -/
theorem slowDispatch_ends :
    ∃ s, Steps.run (step settings) (start true 0) slowDispatch = some s ∧ Tasks.Running s
      ∧ s.buffer.isEmpty = false ∧ s.timer = .sleeping 110 110 ∧ s.buffer.firstAt = some 10 := by
  have ended : (Steps.run (step settings) (start true 0) slowDispatch).map
      (fun s => (s.failures, s.shuttingDown, s.buffer.isEmpty, s.timer, s.buffer.firstAt))
        = some ([], false, false, .sleeping 110 110, some 10) := by
    decide
  obtain ⟨s, ran, shown⟩ := Option.map_eq_some_iff.mp ended
  simp only [Prod.mk.injEq] at shown
  obtain ⟨unfailed, opened, filled, slept, came⟩ := shown
  exact ⟨s, ran, ⟨unfailed, opened⟩, filled, slept, came⟩

/-- The timer attends to that buffer, and wakes up at once. -/
theorem buffered_attended_late :
    ∃ s, Steps.run (step settings) (start true 0) slowDispatch = some s
      ∧ (s.newData = true ∨ s.timer.due = true)
      ∧ (110 ≤ 10 + settings.maxTime ∨ (110 : Nat) = 110) := by
  obtain ⟨s, ran, running, filled, slept, came⟩ := slowDispatch_ends
  have attended := buffered_attended ran
  exact ⟨s, ran, attended.1 running filled, attended.2.2 110 110 10 slept came⟩

/--
A timer that was busy comes late to the next buffer.

It does not sleep for it, but the wait of the first record was over long before.
-/
theorem late_for_second :
    ∃ s, Steps.run (step settings) (start true 0) slowDispatch = some s ∧ Tasks.Running s
      ∧ s.buffer.isEmpty = false
      ∧ ∃ began wakesAt first, s.timer = .sleeping began wakesAt ∧ s.buffer.firstAt = some first
        ∧ ¬ wakesAt ≤ first + settings.maxTime := by
  obtain ⟨s, ran, running, filled, slept, came⟩ := slowDispatch_ends
  exact ⟨s, ran, running, filled, 110, 110, 10, slept, came, by decide⟩

end NotifySample

end MirrorV3
