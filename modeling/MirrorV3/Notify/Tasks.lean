import MirrorV3.Core.Traits
import MirrorV3.Lib.Steps
import MirrorV3.Notify.Buffer

/-!
The notifier of a mirror as the tasks that share it: the loop that hands it records, its timer, and the
watch that may end the loop.
-/

namespace MirrorV3

/-- How a notifier is set up. -/
structure NotifySettings where
  partition : Int32
  /-- How many records are told of at once. -/
  maxRecords : Nat
  /-- How long the first record of a batch waits, in milliseconds. -/
  maxTime : Nat
  /-- The offsets that the cache of the mirror suppresses. -/
  suppressed : Nat → Bool

/-- A batch that was taken, and the records it was made of. -/
structure Flight where
  batch : DrainedBatch
  records : List Record
  deriving Repr, DecidableEq

/-- Where a drain by the loop stands. -/
inductive DrainPc where
  /-- Waiting for the dispatch lock. -/
  | locking
  /-- Holding it, about to look for an error of the timer. -/
  | checking
  | taking
  | dispatching (flight : Flight)
  deriving Repr, DecidableEq

/-- Where the loop stands. -/
inductive LoopPc where
  /-- Outside the notifier. -/
  | idle
  /-- A record was handed over. -/
  | noted (record : Record)
  /-- The record is one to tell of. -/
  | appending (record : Record) (key : String)
  /-- In a drain, on the way to a stop or for a full batch. -/
  | draining (stopping : Bool) (drain : DrainPc)
  /-- The timer was aborted and is waited for. -/
  | joining (drained : Except NotifyError Unit)
  | ended (result : Except NotifyError Unit)
  /-- Dropped with the notifier, wherever it stood. -/
  | dropped
  deriving DecidableEq

/-- Where the timer stands. -/
inductive TimerPc where
  /-- About to wait for new data. -/
  | arriving
  | waiting
  /-- Notified, or with a permit taken. -/
  | woken
  /-- About to look when the first record came. -/
  | measuring
  | sleeping (began wakesAt : Nat)
  | locking
  | taking
  | dispatching (flight : Flight)
  /-- About to leave the error of a dispatch behind. -/
  | stashing (error : NotifyError)
  | exited
  | aborted
  deriving Repr, DecidableEq

/-- Where the watch for a terminal error stands. -/
inductive WatchPc where
  /-- Nobody watches. -/
  | absent
  | checking
  /-- About to wait for the signal. -/
  | listening
  | waiting
  | fired (error : NotifyError)
  deriving Repr, DecidableEq

/-- What the tasks share, where each of them stands, and what has happened so far. -/
structure Tasks where
  buffer : Buffer
  /-- A wake-up that nobody waited for. -/
  newData : Bool
  shuttingDown : Bool
  errorState : Option NotifyError
  /-- A signal of an error that nobody waited for. -/
  errorSignal : Bool
  loop : LoopPc
  timer : TimerPc
  watch : WatchPc
  /-- The process's clock, in milliseconds. -/
  now : Nat
  /-- The values the acknowledgements were given, in order. -/
  acks : List Nat
  /-- The records that were handed over. -/
  handed : List Record
  /-- The records that the buffer holds. -/
  pending : List Record
  /-- The batches that were taken, and those whose dispatch was done. -/
  taken : List Flight
  sent : List Flight
  failures : List NotifyError

/-- What happens next. -/
inductive NotifyEvent where
  | onRecord (record : Record)
  | shutdown
  /-- The loop ends for a reason of its own. -/
  | leave
  /-- The loop, the timer or the watch goes on; a dispatch ends as the reply says. -/
  | loop (reply : Except NotifyError Unit)
  | timer (reply : Except NotifyError Unit)
  | watch
  /-- The abort of the timer takes effect. -/
  | abort
  | tick (ms : Nat)

/-- Whether the loop holds the dispatch lock. -/
def LoopPc.locks : LoopPc → Bool
  | .draining _ .checking => true
  | .draining _ .taking => true
  | .draining _ (.dispatching _) => true
  | _ => false

/-- Whether the timer holds the dispatch lock. -/
def TimerPc.locks : TimerPc → Bool
  | .taking => true
  | .dispatching _ => true
  | .stashing _ => true
  | _ => false

/-- Whether the loop has come to an end. -/
def LoopPc.finished : LoopPc → Bool
  | .ended _ => true
  | .dropped => true
  | _ => false

/-- Whether the timer has come to an end. -/
def TimerPc.finished : TimerPc → Bool
  | .exited => true
  | .aborted => true
  | _ => false

/-- A record that is told of: it is not suppressed and has a key that is text. -/
def NotifySettings.Tells (settings : NotifySettings) (record : Record) : Prop :=
  settings.suppressed record.sourceOffset = false ∧ record.utf8Key.isSome = true

namespace Tasks

/-- A notifier that was just built, and perhaps a watch on it. -/
def start (watched : Bool) (now : Nat) : Tasks where
  buffer := .empty
  newData := false
  shuttingDown := false
  errorState := none
  errorSignal := false
  loop := .idle
  timer := .arriving
  watch := if watched then .checking else .absent
  now := now
  acks := []
  handed := []
  pending := []
  taken := []
  sent := []
  failures := []

/-- Whether the dispatch lock is held. -/
def locked (s : Tasks) : Bool := s.loop.locks || s.timer.locks

/-- Wake the timer if it waits, and else leave one permit for it. -/
def notifyOne (s : Tasks) : Tasks :=
  if s.timer = .waiting then { s with timer := .woken } else { s with newData := true }

/-- A batch was delivered: acknowledge the records through its last. -/
def deliver (flight : Flight) (s : Tasks) : Tasks :=
  { s with
    sent := s.sent ++ [flight]
    acks := s.acks ++ [flight.batch.highOffset + 1] }

/-- Hand the result of a drain on: to the stop, or to the loop. -/
def afterDrain (stopping : Bool) (result : Except NotifyError Unit) (s : Tasks) : Tasks :=
  { s with
    loop :=
      if stopping then .joining result
      else
        match result with
        | .ok () => .idle
        | .error e => .ended (.error e) }

/-- The loop takes note of a record that is one to tell of. -/
def append (settings : NotifySettings) (record : Record) (key : String) (s : Tasks) : Tasks :=
  let buffer := s.buffer.append key record.sourceOffset s.now
  let appended := { s with
    buffer
    pending := s.pending ++ [record]
    loop := if settings.maxRecords ≤ buffer.seenRecords then .draining false .locking else .idle }
  -- The timer is woken when the buffer was empty.
  if s.buffer.isEmpty then appended.notifyOne else appended

/-- A drain by the loop goes on. -/
def drainStep (settings : NotifySettings) (reply : Except NotifyError Unit) (stopping : Bool)
    (s : Tasks) : DrainPc → Option Tasks
  | .locking => if s.locked then none else some { s with loop := .draining stopping .checking }
  | .checking =>
    match s.errorState with
    | some e => some (afterDrain stopping (.error e) { s with errorState := none })
    | none => some { s with loop := .draining stopping .taking }
  | .taking =>
    match s.buffer.take settings.partition with
    | (none, _) => some (afterDrain stopping (.ok ()) s)
    | (some batch, buffer) =>
      some { s with
        buffer
        pending := []
        taken := s.taken ++ [⟨batch, s.pending⟩]
        loop := .draining stopping (.dispatching ⟨batch, s.pending⟩) }
  | .dispatching flight =>
    match reply with
    | .ok () => some (afterDrain stopping (.ok ()) (s.deliver flight))
    | .error e => some (afterDrain stopping (.error e) { s with failures := s.failures ++ [e] })

/-- The loop goes on. -/
def loopStep (settings : NotifySettings) (reply : Except NotifyError Unit) (s : Tasks) :
    Option Tasks :=
  match s.loop with
  | .noted record =>
    match s.errorState with
    | some e => some { s with errorState := none, loop := .ended (.error e) }
    | none =>
      if settings.suppressed record.sourceOffset then some { s with loop := .idle }
      else
        match record.utf8Key with
        | none => some { s with loop := .idle }
        | some key => some { s with loop := .appending record key }
  | .appending record key => some (s.append settings record key)
  | .draining stopping drain => drainStep settings reply stopping s drain
  | .joining drained =>
    if s.timer.finished then
      match drained, s.errorState with
      | .error e, _ => some { s with loop := .ended (.error e) }
      | .ok (), some e => some { s with errorState := none, loop := .ended (.error e) }
      | .ok (), none => some { s with loop := .ended (.ok ()) }
    else none
  | .idle => none
  | .ended _ => none
  | .dropped => none

/-- The timer goes on. -/
def timerStep (settings : NotifySettings) (reply : Except NotifyError Unit) (s : Tasks) :
    Option Tasks :=
  match s.timer with
  | .arriving =>
    some (if s.newData then { s with newData := false, timer := .woken }
      else { s with timer := .waiting })
  | .waiting => none
  | .woken => some { s with timer := if s.shuttingDown then .exited else .measuring }
  | .measuring =>
    match s.buffer.firstAt with
    | some first =>
      some { s with timer := .sleeping s.now (s.now + (settings.maxTime - (s.now - first))) }
    | none => some { s with timer := .arriving }
  | .sleeping _ wakesAt =>
    if s.now < wakesAt then none
    else some { s with timer := if s.shuttingDown then .exited else .locking }
  | .locking => if s.locked then none else some { s with timer := .taking }
  | .taking =>
    match s.buffer.take settings.partition with
    | (none, _) => some { s with timer := .arriving }
    | (some batch, buffer) =>
      some { s with
        buffer
        pending := []
        taken := s.taken ++ [⟨batch, s.pending⟩]
        timer := .dispatching ⟨batch, s.pending⟩ }
  | .dispatching flight =>
    match reply with
    | .ok () => some { s.deliver flight with timer := .arriving }
    | .error e => some { s with failures := s.failures ++ [e], timer := .stashing e }
  | .stashing e =>
    let stashed := { s with errorState := some e, timer := .exited }
    some (if s.watch = .waiting then { stashed with watch := .checking }
      else { stashed with errorSignal := true })
  | .exited => none
  | .aborted => none

/-- The watch goes on, beside a loop that has not ended. -/
def watchStep (s : Tasks) : Option Tasks :=
  if s.loop.finished then none
  else
    match s.watch with
    | .checking =>
      match s.errorState with
      | some e => some { s with errorState := none, watch := .fired e, loop := .dropped }
      | none => some { s with watch := .listening }
    | .listening =>
      some (if s.errorSignal then { s with errorSignal := false, watch := .checking }
        else { s with watch := .waiting })
    | .absent => none
    | .waiting => none
    | .fired _ => none

/-- What an event does, if it can happen. -/
def step (settings : NotifySettings) (s : Tasks) : NotifyEvent → Option Tasks
  | .onRecord record =>
    if s.loop = .idle then some { s with loop := .noted record, handed := s.handed ++ [record] }
    else none
  | .shutdown =>
    if s.loop = .idle then
      some (notifyOne { s with shuttingDown := true, loop := .draining true .locking })
    else none
  | .leave => if s.loop = .idle then some { s with loop := .dropped } else none
  | .loop reply => loopStep settings reply s
  | .timer reply => timerStep settings reply s
  | .watch => watchStep s
  | .abort =>
    match s.loop with
    | .joining _ => if s.timer.finished then none else some { s with timer := .aborted }
    | _ => none
  | .tick ms => some { s with now := s.now + ms }

/-- A wake-up goes to the timer if it waits, and is kept if it does not. -/
theorem notifyOne_eq (s : Tasks) :
    (s.timer = .waiting ∧ s.notifyOne = { s with timer := .woken })
      ∨ (s.timer ≠ .waiting ∧ s.notifyOne = { s with newData := true }) := by
  by_cases waits : s.timer = .waiting
  · exact .inl ⟨waits, if_pos waits⟩
  · exact .inr ⟨waits, if_neg waits⟩

/-- An append fills the buffer, wakes the timer for an empty one, and may begin a drain. -/
theorem append_eq (settings : NotifySettings) (record : Record) (key : String) (s : Tasks) :
    ∃ loop timer newData, s.append settings record key = { s with
        buffer := s.buffer.append key record.sourceOffset s.now
        pending := s.pending ++ [record]
        loop, timer, newData }
      ∧ (loop = .idle ∨ loop = .draining false .locking)
      ∧ ((s.buffer.isEmpty = false ∧ timer = s.timer ∧ newData = s.newData)
        ∨ (s.timer = .waiting ∧ timer = .woken ∧ newData = s.newData)
        ∨ (s.timer ≠ .waiting ∧ timer = s.timer ∧ newData = true)) := by
  have loops : ∀ loop, loop = (if settings.maxRecords
      ≤ (s.buffer.append key record.sourceOffset s.now).seenRecords
        then LoopPc.draining false .locking else .idle) →
      loop = .idle ∨ loop = .draining false .locking := by
    intro loop is
    by_cases full : settings.maxRecords
      ≤ (s.buffer.append key record.sourceOffset s.now).seenRecords
    · rw [if_pos full] at is
      exact .inr is
    · rw [if_neg full] at is
      exact .inl is
  cases empty : s.buffer.isEmpty with
  | false =>
    refine ⟨_, s.timer, s.newData, ?_, loops _ rfl, .inl ⟨rfl, rfl, rfl⟩⟩
    simp only [append, empty, Bool.false_eq_true, if_false]
  | true =>
    simp only [append, empty, if_true]
    by_cases waits : s.timer = .waiting
    · refine ⟨_, .woken, s.newData, ?_, loops _ rfl, .inr (.inl ⟨waits, rfl, rfl⟩)⟩
      rw [notifyOne, if_pos (by exact waits)]
    · refine ⟨_, s.timer, true, ?_, loops _ rfl, .inr (.inr ⟨waits, rfl, rfl⟩)⟩
      rw [notifyOne, if_neg (by exact waits)]

/-- A drain hands its result to the stop, or to the loop. -/
theorem afterDrain_eq (stopping : Bool) (result : Except NotifyError Unit) (s : Tasks) :
    (stopping = true ∧ afterDrain stopping result s = { s with loop := .joining result })
      ∨ (stopping = false ∧ result = .ok () ∧ afterDrain stopping result s = { s with loop := .idle })
      ∨ ∃ e, stopping = false ∧ result = .error e
        ∧ afterDrain stopping result s = { s with loop := .ended (.error e) } := by
  cases stopping with
  | true => exact .inl ⟨rfl, rfl⟩
  | false =>
    cases result with
    | ok done => exact .inr (.inl ⟨rfl, rfl, rfl⟩)
    | error e => exact .inr (.inr ⟨e, rfl, rfl, rfl⟩)

/-- Everything a step can do, and where it can be done. -/
inductive Move (settings : NotifySettings) : Tasks → Tasks → Prop where
  | tick {s : Tasks} (ms : Nat) : Move settings s { s with now := s.now + ms }
  | hand {s : Tasks} (record : Record) (stands : s.loop = .idle) :
      Move settings s { s with loop := .noted record, handed := s.handed ++ [record] }
  | shutdown {s : Tasks} (stands : s.loop = .idle) :
      Move settings s (notifyOne { s with shuttingDown := true, loop := .draining true .locking })
  | leave {s : Tasks} (stands : s.loop = .idle) : Move settings s { s with loop := .dropped }
  | surface {s : Tasks} {record : Record} {e : NotifyError} (stands : s.loop = .noted record)
      (stashed : s.errorState = some e) :
      Move settings s { s with errorState := none, loop := .ended (.error e) }
  | skip {s : Tasks} {record : Record} (stands : s.loop = .noted record)
      (skips : ¬ settings.Tells record) : Move settings s { s with loop := .idle }
  | tell {s : Tasks} {record : Record} {key : String} (stands : s.loop = .noted record)
      (tells : settings.Tells record) (keyed : record.utf8Key = some key) :
      Move settings s { s with loop := .appending record key }
  | append {s : Tasks} {record : Record} {key : String} (stands : s.loop = .appending record key) :
      Move settings s (s.append settings record key)
  | lock {s : Tasks} {stopping : Bool} (stands : s.loop = .draining stopping .locking)
      (unlocked : s.timer.locks = false) :
      Move settings s { s with loop := .draining stopping .checking }
  | drainSurface {s : Tasks} {stopping : Bool} {e : NotifyError}
      (stands : s.loop = .draining stopping .checking) (stashed : s.errorState = some e) :
      Move settings s (afterDrain stopping (.error e) { s with errorState := none })
  | drainCheck {s : Tasks} {stopping : Bool} (stands : s.loop = .draining stopping .checking)
      (clear : s.errorState = none) : Move settings s { s with loop := .draining stopping .taking }
  | drainNothing {s : Tasks} {stopping : Bool} (stands : s.loop = .draining stopping .taking)
      (empty : s.buffer.isEmpty = true) : Move settings s (afterDrain stopping (.ok ()) s)
  | drainTake {s : Tasks} {stopping : Bool} {batch : DrainedBatch}
      (stands : s.loop = .draining stopping .taking)
      (takes : s.buffer.take settings.partition = (some batch, .empty)) :
      Move settings s { s with
        buffer := .empty
        pending := []
        taken := s.taken ++ [⟨batch, s.pending⟩]
        loop := .draining stopping (.dispatching ⟨batch, s.pending⟩) }
  | drainDeliver {s : Tasks} {stopping : Bool} {flight : Flight}
      (stands : s.loop = .draining stopping (.dispatching flight)) :
      Move settings s (afterDrain stopping (.ok ()) (s.deliver flight))
  | drainFail {s : Tasks} {stopping : Bool} {flight : Flight} (e : NotifyError)
      (stands : s.loop = .draining stopping (.dispatching flight)) :
      Move settings s (afterDrain stopping (.error e) { s with failures := s.failures ++ [e] })
  | joinFail {s : Tasks} {e : NotifyError} (stands : s.loop = .joining (.error e))
      (stopped : s.timer.finished = true) : Move settings s { s with loop := .ended (.error e) }
  | joinSurface {s : Tasks} {e : NotifyError} (stands : s.loop = .joining (.ok ()))
      (stopped : s.timer.finished = true) (stashed : s.errorState = some e) :
      Move settings s { s with errorState := none, loop := .ended (.error e) }
  | join {s : Tasks} (stands : s.loop = .joining (.ok ())) (stopped : s.timer.finished = true)
      (clear : s.errorState = none) : Move settings s { s with loop := .ended (.ok ()) }
  | permit {s : Tasks} (stands : s.timer = .arriving) (left : s.newData = true) :
      Move settings s { s with newData := false, timer := .woken }
  | wait {s : Tasks} (stands : s.timer = .arriving) (left : s.newData = false) :
      Move settings s { s with timer := .waiting }
  | exit {s : Tasks} (stands : s.timer = .woken ∨ ∃ began wakesAt, s.timer = .sleeping began wakesAt)
      (stops : s.shuttingDown = true) : Move settings s { s with timer := .exited }
  | wake {s : Tasks} (stands : s.timer = .woken) : Move settings s { s with timer := .measuring }
  | measure {s : Tasks} {first : Nat} (stands : s.timer = .measuring)
      (came : s.buffer.firstAt = some first) :
      Move settings s { s with
        timer := .sleeping s.now (s.now + (settings.maxTime - (s.now - first))) }
  | rest {s : Tasks} (stands : s.timer = .measuring) (came : s.buffer.firstAt = none) :
      Move settings s { s with timer := .arriving }
  | rise {s : Tasks} {began wakesAt : Nat} (stands : s.timer = .sleeping began wakesAt)
      (due : wakesAt ≤ s.now) : Move settings s { s with timer := .locking }
  | timerLock {s : Tasks} (stands : s.timer = .locking) (unlocked : s.loop.locks = false) :
      Move settings s { s with timer := .taking }
  | timerNothing {s : Tasks} (stands : s.timer = .taking) (empty : s.buffer.isEmpty = true) :
      Move settings s { s with timer := .arriving }
  | timerTake {s : Tasks} {batch : DrainedBatch} (stands : s.timer = .taking)
      (takes : s.buffer.take settings.partition = (some batch, .empty)) :
      Move settings s { s with
        buffer := .empty
        pending := []
        taken := s.taken ++ [⟨batch, s.pending⟩]
        timer := .dispatching ⟨batch, s.pending⟩ }
  | timerDeliver {s : Tasks} {flight : Flight} (stands : s.timer = .dispatching flight) :
      Move settings s { s.deliver flight with timer := .arriving }
  | timerFail {s : Tasks} {flight : Flight} (e : NotifyError)
      (stands : s.timer = .dispatching flight) :
      Move settings s { s with failures := s.failures ++ [e], timer := .stashing e }
  | stash {s : Tasks} {e : NotifyError} (signal : Bool) (watch : WatchPc)
      (stands : s.timer = .stashing e) :
      Move settings s { s with errorState := some e, timer := .exited, errorSignal := signal, watch }
  | abort {s : Tasks} {drained : Except NotifyError Unit} (stands : s.loop = .joining drained)
      (running : s.timer.finished = false) : Move settings s { s with timer := .aborted }
  | fire {s : Tasks} {e : NotifyError} (running : s.loop.finished = false)
      (stashed : s.errorState = some e) :
      Move settings s { s with errorState := none, watch := .fired e, loop := .dropped }
  | watch {s : Tasks} (signal : Bool) (watch : WatchPc) :
      Move settings s { s with errorSignal := signal, watch }

variable {settings : NotifySettings} {reply : Except NotifyError Unit} {s s' : Tasks}

/-- A drain by the loop goes on by a move. -/
theorem move_of_drainStep {stopping : Bool} {drain : DrainPc}
    (stands : s.loop = .draining stopping drain)
    (taken : drainStep settings reply stopping s drain = some s') : Move settings s s' := by
  cases drain with
  | locking =>
    by_cases held : s.locked = true
    · rw [drainStep, if_pos held] at taken
      cases taken
    · rw [drainStep, if_neg held] at taken
      cases taken
      have free : s.timer.locks = false := by
        rw [locked, stands] at held
        simpa [LoopPc.locks] using held
      exact .lock stands free
  | checking =>
    cases stashed : s.errorState with
    | some e =>
      simp only [drainStep, stashed] at taken
      cases taken
      exact .drainSurface stands stashed
    | none =>
      simp only [drainStep, stashed] at taken
      cases taken
      have move : Move settings s _ := .drainCheck stands stashed
      rwa [stashed] at move
  | taking =>
    by_cases empty : s.buffer.isEmpty = true
    · simp only [drainStep, Buffer.take, if_pos empty] at taken
      cases taken
      exact .drainNothing stands empty
    · have takes : s.buffer.take settings.partition
          = (some ⟨[(toString settings.partition, s.buffer.maxOffset)], s.buffer.keys⟩, .empty) := by
        rw [Buffer.take, if_neg empty]
      simp only [drainStep, takes] at taken
      cases taken
      exact .drainTake stands takes
  | dispatching flight =>
    cases reply with
    | ok done =>
      cases taken
      exact .drainDeliver stands
    | error e =>
      cases taken
      exact .drainFail e stands

/-- The loop goes on by a move. -/
theorem move_of_loopStep (taken : loopStep settings reply s = some s') : Move settings s s' := by
  cases stands : s.loop with
  | idle => simp [loopStep, stands] at taken
  | noted record =>
    cases stashed : s.errorState with
    | some e =>
      simp only [loopStep, stands, stashed] at taken
      cases taken
      exact .surface stands stashed
    | none =>
      simp only [loopStep, stands, stashed] at taken
      by_cases suppressed : settings.suppressed record.sourceOffset = true
      · rw [if_pos suppressed] at taken
        cases taken
        have move : Move settings s _ :=
          .skip stands fun tells => Bool.false_ne_true (tells.1.symm.trans suppressed)
        rwa [stashed] at move
      · rw [if_neg suppressed] at taken
        cases keyed : record.utf8Key with
        | none =>
          simp only [keyed] at taken
          cases taken
          have move : Move settings s _ := .skip stands fun tells => by
            have text := tells.2
            rw [keyed] at text
            cases text
          rwa [stashed] at move
        | some key =>
          simp only [keyed] at taken
          cases taken
          have move : Move settings s _ :=
            .tell stands ⟨eq_false_of_ne_true suppressed, by rw [keyed]; rfl⟩ keyed
          rwa [stashed] at move
  | appending record key =>
    simp only [loopStep, stands] at taken
    cases taken
    exact .append stands
  | draining stopping drain =>
    simp only [loopStep, stands] at taken
    exact move_of_drainStep stands taken
  | joining drained =>
    by_cases stopped : s.timer.finished = true
    · simp only [loopStep, stands, if_pos stopped] at taken
      cases drained with
      | error e =>
        cases taken
        exact .joinFail stands stopped
      | ok done =>
        cases stashed : s.errorState with
        | some e =>
          simp only [stashed] at taken
          cases taken
          exact .joinSurface stands stopped stashed
        | none =>
          simp only [stashed] at taken
          cases taken
          have move : Move settings s _ := .join stands stopped stashed
          rwa [stashed] at move
    · simp only [loopStep, stands, if_neg stopped] at taken
      cases taken
  | ended result => simp [loopStep, stands] at taken
  | dropped => simp [loopStep, stands] at taken

/-- The timer goes on by a move. -/
theorem move_of_timerStep (taken : timerStep settings reply s = some s') : Move settings s s' := by
  cases stands : s.timer with
  | arriving =>
    by_cases left : s.newData = true
    · simp only [timerStep, stands, if_pos left] at taken
      cases taken
      exact .permit stands left
    · simp only [timerStep, stands, if_neg left] at taken
      cases taken
      exact .wait stands (eq_false_of_ne_true left)
  | waiting => simp [timerStep, stands] at taken
  | woken =>
    by_cases stops : s.shuttingDown = true
    · simp only [timerStep, stands, if_pos stops] at taken
      cases taken
      exact .exit (.inl stands) stops
    · simp only [timerStep, stands, if_neg stops] at taken
      cases taken
      exact .wake stands
  | measuring =>
    cases came : s.buffer.firstAt with
    | some first =>
      simp only [timerStep, stands, came] at taken
      cases taken
      exact .measure stands came
    | none =>
      simp only [timerStep, stands, came] at taken
      cases taken
      exact .rest stands came
  | sleeping began wakesAt =>
    by_cases early : s.now < wakesAt
    · simp only [timerStep, stands, if_pos early] at taken
      cases taken
    · by_cases stops : s.shuttingDown = true
      · simp only [timerStep, stands, if_neg early, if_pos stops] at taken
        cases taken
        exact .exit (.inr ⟨began, wakesAt, stands⟩) stops
      · simp only [timerStep, stands, if_neg early, if_neg stops] at taken
        cases taken
        exact .rise stands (Nat.not_lt.mp early)
  | locking =>
    by_cases held : s.locked = true
    · simp only [timerStep, stands, if_pos held] at taken
      cases taken
    · simp only [timerStep, stands, if_neg held] at taken
      cases taken
      have free : s.loop.locks = false := by
        rw [locked, stands] at held
        simpa [TimerPc.locks] using held
      exact .timerLock stands free
  | taking =>
    by_cases empty : s.buffer.isEmpty = true
    · simp only [timerStep, stands, Buffer.take, if_pos empty] at taken
      cases taken
      exact .timerNothing stands empty
    · have takes : s.buffer.take settings.partition
          = (some ⟨[(toString settings.partition, s.buffer.maxOffset)], s.buffer.keys⟩, .empty) := by
        rw [Buffer.take, if_neg empty]
      simp only [timerStep, stands, takes] at taken
      cases taken
      exact .timerTake stands takes
  | dispatching flight =>
    simp only [timerStep, stands] at taken
    cases reply with
    | ok done =>
      cases taken
      exact .timerDeliver stands
    | error e =>
      cases taken
      exact .timerFail e stands
  | stashing e =>
    by_cases waits : s.watch = .waiting
    · simp only [timerStep, stands, if_pos waits] at taken
      cases taken
      exact .stash s.errorSignal .checking stands
    · simp only [timerStep, stands, if_neg waits] at taken
      cases taken
      exact .stash true s.watch stands
  | exited => simp [timerStep, stands] at taken
  | aborted => simp [timerStep, stands] at taken

/-- The watch goes on by a move. -/
theorem move_of_watchStep (taken : watchStep s = some s') : Move settings s s' := by
  by_cases stopped : s.loop.finished = true
  · rw [watchStep, if_pos stopped] at taken
    cases taken
  · rw [watchStep, if_neg stopped] at taken
    cases stands : s.watch with
    | checking =>
      cases stashed : s.errorState with
      | some e =>
        simp only [stands, stashed] at taken
        cases taken
        exact .fire (eq_false_of_ne_true stopped) stashed
      | none =>
        simp only [stands, stashed] at taken
        cases taken
        have move : Move settings s _ := .watch s.errorSignal .listening
        rwa [stashed] at move
    | listening =>
      by_cases left : s.errorSignal = true
      · simp only [stands, if_pos left] at taken
        cases taken
        exact .watch false .checking
      · simp only [stands, if_neg left] at taken
        cases taken
        exact .watch s.errorSignal .waiting
    | absent => simp [stands] at taken
    | waiting => simp [stands] at taken
    | fired e => simp [stands] at taken

/-- Every step is one of these moves. -/
theorem move_of_step {event : NotifyEvent} (taken : step settings s event = some s') :
    Move settings s s' := by
  cases event with
  | onRecord record =>
    by_cases stands : s.loop = .idle
    · rw [step, if_pos stands] at taken
      cases taken
      exact .hand record stands
    · rw [step, if_neg stands] at taken
      cases taken
  | shutdown =>
    by_cases stands : s.loop = .idle
    · rw [step, if_pos stands] at taken
      cases taken
      exact .shutdown stands
    · rw [step, if_neg stands] at taken
      cases taken
  | leave =>
    by_cases stands : s.loop = .idle
    · rw [step, if_pos stands] at taken
      cases taken
      exact .leave stands
    · rw [step, if_neg stands] at taken
      cases taken
  | loop reply => exact move_of_loopStep taken
  | timer reply => exact move_of_timerStep taken
  | watch => exact move_of_watchStep taken
  | abort =>
    cases stands : s.loop with
    | joining drained =>
      by_cases stopped : s.timer.finished = true
      · simp only [step, stands, if_pos stopped] at taken
        cases taken
      · simp only [step, stands, if_neg stopped] at taken
        cases taken
        have move : Move settings s _ := .abort stands (eq_false_of_ne_true stopped)
        rwa [stands] at move
    | _ => simp [step, stands] at taken
  | tick ms =>
    cases taken
    exact .tick ms

end Tasks

end MirrorV3
