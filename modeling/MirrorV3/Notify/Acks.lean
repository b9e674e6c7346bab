import MirrorV3.Notify.Attended

/-! An acknowledgement of a notifier never passes a record that was not delivered. -/

namespace MirrorV3

instance (settings : NotifySettings) : DecidablePred settings.Tells := fun record =>
  inferInstanceAs (Decidable (settings.suppressed record.sourceOffset = false
    ∧ record.utf8Key.isSome = true))

/-- The record that was handed over and is on its way into the buffer. -/
def LoopPc.coming : LoopPc → List Record
  | .noted record => [record]
  | .appending record _ => [record]
  | _ => []

/-- The batch that the loop dispatches. -/
def LoopPc.flight : LoopPc → Option Flight
  | .draining _ (.dispatching flight) => some flight
  | _ => none

/-- The batch that the timer dispatches. -/
def TimerPc.flight : TimerPc → Option Flight
  | .dispatching flight => some flight
  | _ => none

/-- Whether the loop will take no batch any more. -/
def LoopPc.closing : LoopPc → Bool
  | .joining _ => true
  | .ended _ => true
  | .dropped => true
  | _ => false

namespace Tasks

variable {settings : NotifySettings} {s s' : Tasks}

/-- The records that were taken for a batch or are in the buffer. -/
def gathered (s : Tasks) : List Record := s.taken.flatMap (·.records) ++ s.pending

/-- Of the records handed over those to tell of are gathered, the one on its way apart. -/
structure Gathers (settings : NotifySettings) (s : Tasks) : Prop where
  all : s.loop.finished = false →
    s.handed.filter settings.Tells = s.gathered ++ s.loop.coming.filter settings.Tells
  first : s.gathered <+: s.handed.filter settings.Tells

/-- While the loop has not ended, all that was handed over is gathered or on its way. -/
theorem Gathers.of_all
    (all : s.handed.filter settings.Tells = s.gathered ++ s.loop.coming.filter settings.Tells) :
    Gathers settings s := ⟨fun _ => all, all ▸ List.prefix_append _ _⟩

/-- A loop that has ended hands nothing over. -/
theorem Gathers.of_finished (stopped : s.loop.finished = true)
    (first : s.gathered <+: s.handed.filter settings.Tells) : Gathers settings s :=
  ⟨fun running => absurd (running.symm.trans stopped) Bool.false_ne_true, first⟩

/-- Taking a batch moves records from the buffer to it. -/
theorem gathered_take (flights : List Flight) (batch : DrainedBatch) (records : List Record) :
    (flights ++ [Flight.mk batch records]).flatMap (·.records) ++ []
      = flights.flatMap (·.records) ++ records := by
  simp

/-- Every step gathers what it hands over. -/
theorem Gathers.move (gathers : Gathers settings s) (keyed : Keyed settings s)
    (move : Move settings s s') : Gathers settings s' := by
  -- The end of a drain gathers nothing, and gives up on what is coming only with an error.
  have afterwards : ∀ {drain : DrainPc} {stopping : Bool} (result : Except NotifyError Unit)
      (t : Tasks), s.loop = .draining stopping drain → t.gathered = s.gathered → t.handed = s.handed →
      Gathers settings (afterDrain stopping result t) := by
    intro drain stopping result t stands same handed
    have all := gathers.all (by rw [stands]; rfl)
    rw [stands, ← same, ← handed] at all
    rcases afterDrain_eq stopping result t with ⟨-, eq⟩ | ⟨-, -, eq⟩ | ⟨e, -, -, eq⟩
    · rw [eq]
      exact .of_all all
    · rw [eq]
      exact .of_all all
    · rw [eq]
      exact .of_finished rfl (all ▸ List.prefix_append _ _)
  cases move with
  | hand record stands =>
    have all := gathers.all (by rw [stands]; rfl)
    rw [stands] at all
    refine .of_all ?_
    show (s.handed ++ [record]).filter settings.Tells = s.gathered ++ [record].filter settings.Tells
    rw [List.filter_append, all]
    simp [LoopPc.coming]
  | shutdown stands =>
    have all := gathers.all (by rw [stands]; rfl)
    rw [stands] at all
    rcases notifyOne_eq { s with shuttingDown := true, loop := .draining true .locking } with
      ⟨-, same⟩ | ⟨-, same⟩
    all_goals
      rw [same]
      exact .of_all all
  | skip stands skips =>
    rename_i record
    have all := gathers.all (by rw [stands]; rfl)
    rw [stands] at all
    have nothing : [record].filter settings.Tells = [] := by simpa using skips
    exact .of_all (by rw [all, LoopPc.coming, nothing]; rfl)
  | tell stands =>
    have all := gathers.all (by rw [stands]; rfl)
    rw [stands] at all
    exact .of_all all
  -- A record that is told of goes from what is coming to what is pending.
  | append stands =>
    rename_i record key
    have all := gathers.all (by rw [stands]; rfl)
    rw [stands] at all
    obtain ⟨loop, timer, newData, same, loops, -⟩ := append_eq settings record key s
    have nothing : loop.coming = [] := by
      rcases loops with rfl | rfl <;> rfl
    have told : [record].filter settings.Tells = [record] := by
      simpa using (keyed record key stands).1
    rw [same]
    refine .of_all ?_
    show s.handed.filter settings.Tells
      = s.taken.flatMap (·.records) ++ (s.pending ++ [record]) ++ loop.coming.filter settings.Tells
    rw [all, nothing, LoopPc.coming, told]
    simp [gathered]
  | lock stands | drainCheck stands =>
    have all := gathers.all (by rw [stands]; rfl)
    rw [stands] at all
    exact .of_all all
  -- A batch that is taken holds what was pending, so nothing is gathered or lost.
  | drainTake stands =>
    have all := gathers.all (by rw [stands]; rfl)
    rw [stands] at all
    refine .of_all ?_
    rw [gathered, gathered_take]
    exact all
  | timerTake stands =>
    refine ⟨fun running => ?_, ?_⟩
    · rw [gathered, gathered_take]
      exact gathers.all running
    · rw [gathered, gathered_take]
      exact gathers.first
  | drainSurface stands | drainNothing stands | drainDeliver stands | drainFail e stands =>
    exact afterwards _ _ stands rfl rfl
  | leave | surface | joinFail | joinSurface | join | fire => exact .of_finished rfl gathers.first
  | _ => exact ⟨gathers.all, gathers.first⟩

/-- Every batch that was taken tells of its records. -/
def Drained (s : Tasks) : Prop := ∀ flight ∈ s.taken, Buffer.Drains flight.records flight.batch

/-- A taken buffer tells of the records it collected. -/
theorem drains_of_take {partition : Int32} {batch : DrainedBatch} {buffer : Buffer}
    (collected : Collected s) (takes : s.buffer.take partition = (some batch, buffer)) :
    Buffer.Drains s.pending batch := by
  rcases collected.take partition with ⟨none_, -, -⟩ | ⟨batch', some_, -, drains, -⟩
  · rw [takes] at none_
    cases none_
  · rw [takes] at some_
    obtain rfl := Option.some.inj some_
    exact drains

/-- Every step that takes a batch takes one that tells of its records. -/
theorem Drained.move (drained : Drained s) (collected : Collected s) (move : Move settings s s') :
    Drained s' := by
  have afterwards : ∀ stopping result (t : Tasks), Drained t →
      Drained (afterDrain stopping result t) := by
    intro stopping result t drained
    rcases afterDrain_eq stopping result t with ⟨-, eq⟩ | ⟨-, -, eq⟩ | ⟨e, -, -, eq⟩
    all_goals
      rw [eq]
      exact drained
  -- A batch is only made by taking the buffer, which has collected what is pending.
  have taking : ∀ {batch : DrainedBatch}, s.buffer.take settings.partition = (some batch, .empty) →
      ∀ flight ∈ s.taken ++ [⟨batch, s.pending⟩], Buffer.Drains flight.records flight.batch := by
    intro batch takes flight mem
    rcases List.mem_append.mp mem with earlier | new
    · exact drained flight earlier
    · obtain rfl := List.mem_singleton.mp new
      exact drains_of_take collected takes
  cases move with
  | append =>
    rename_i record key stands
    obtain ⟨loop, timer, newData, same, -, -⟩ := append_eq settings record key s
    rw [same]
    exact drained
  | shutdown =>
    rcases notifyOne_eq { s with shuttingDown := true, loop := .draining true .locking } with
      ⟨-, same⟩ | ⟨-, same⟩
    all_goals
      rw [same]
      exact drained
  | drainTake stands takes => exact taking takes
  | timerTake stands takes => exact taking takes
  | drainSurface | drainNothing | drainDeliver | drainFail => exact afterwards _ _ _ drained
  | _ => exact drained

/-- The two parties never hold the dispatch lock at once, and who dispatches has emptied the buffer. -/
structure Excludes (s : Tasks) : Prop where
  lock : s.loop.locks = true → s.timer.locks = false
  emptied : ∀ flight, s.loop.flight = some flight → s.buffer.isEmpty = true

/-- The lock is taken when nobody holds it. -/
theorem Excludes.move (excludes : Excludes s) (move : Move settings s s') : Excludes s' := by
  have afterwards : ∀ stopping result (t : Tasks), Excludes (afterDrain stopping result t) := by
    intro stopping result t
    rcases afterDrain_eq stopping result t with ⟨-, eq⟩ | ⟨-, -, eq⟩ | ⟨e, -, -, eq⟩
    all_goals
      rw [eq]
      exact ⟨nofun, nofun⟩
  -- A timer that lets go of the lock, or never had it, leaves it to the loop.
  have released : ∀ timer : TimerPc, timer.locks = false → ∀ t : Tasks, t.loop = s.loop →
      t.buffer = s.buffer → t.timer = timer → Excludes t := by
    intro timer free t loop buffer stands
    refine ⟨fun _ => stands ▸ free, fun flight held => ?_⟩
    rw [buffer]
    exact excludes.emptied flight (loop ▸ held)
  -- A loop that waits for the lock does not hold it.
  have outside : ∀ loop : LoopPc, loop.locks = false → loop.flight = none → ∀ t : Tasks,
      t.loop = loop → Excludes t := by
    intro loop free grounded t stands
    refine ⟨fun held => ?_, fun flight held => ?_⟩
    · rw [stands, free] at held
      cases held
    · rw [stands, grounded] at held
      cases held
  cases move with
  | tick | watch => exact ⟨excludes.lock, excludes.emptied⟩
  | hand | leave | surface | skip | tell | joinFail | joinSurface | join | fire =>
    exact outside _ rfl rfl _ rfl
  | shutdown =>
    rcases notifyOne_eq { s with shuttingDown := true, loop := .draining true .locking } with
      ⟨-, same⟩ | ⟨-, same⟩
    all_goals
      rw [same]
      exact outside _ rfl rfl _ rfl
  | append =>
    rename_i record key stands
    obtain ⟨loop, timer, newData, same, loops, -⟩ := append_eq settings record key s
    rw [same]
    rcases loops with rfl | rfl
    · exact outside _ rfl rfl _ rfl
    · exact outside _ rfl rfl _ rfl
  | lock stands unlocked => exact ⟨fun _ => unlocked, nofun⟩
  | drainCheck stands => exact ⟨fun _ => excludes.lock (by rw [stands]; rfl), nofun⟩
  | drainTake stands => exact ⟨fun _ => excludes.lock (by rw [stands]; rfl), fun _ _ => rfl⟩
  | drainSurface | drainNothing | drainDeliver | drainFail => exact afterwards _ _ _
  | permit | wait | exit | wake | measure | rest | rise | timerNothing | timerDeliver | stash | abort =>
    exact released _ rfl _ rfl rfl rfl
  | timerLock stands unlocked =>
    refine ⟨fun held => ?_, excludes.emptied⟩
    exact absurd (unlocked.symm.trans held) Bool.false_ne_true
  | timerTake stands =>
    refine ⟨fun held => ?_, fun _ _ => rfl⟩
    have free := excludes.lock held
    rw [stands] at free
    cases free
  | timerFail e stands =>
    refine ⟨fun held => ?_, excludes.emptied⟩
    have free := excludes.lock held
    rw [stands] at free
    cases free

/-- So far every batch was delivered, or is being dispatched. -/
structure Healthy (s : Tasks) : Prop where
  clear : s.errorState = none
  unstashed : ∀ e, s.timer ≠ .stashing e
  accounted : s.taken = s.sent ++ s.loop.flight.toList ++ s.timer.flight.toList

/-- One batch was lost, and no other will be taken after it. -/
inductive Halted (s : Tasks) : Prop where
  /-- The timer is about to leave its error behind, under the lock. -/
  | stashing {lost : Flight} {e : NotifyError} (accounted : s.taken = s.sent ++ [lost])
      (stands : s.timer = .stashing e) (outside : s.loop.locks = false) (clear : s.errorState = none)
  /-- The timer has ended, and the loop will come upon its error before it takes anything. -/
  | stashed {lost : Flight} {e : NotifyError} (accounted : s.taken = s.sent ++ [lost])
      (stopped : s.timer.finished = true) (error : s.errorState = some e)
      (grounded : s.loop.flight = none)
      (ahead : ∀ stopping, s.loop ≠ .draining stopping .taking)
  /-- The timer has ended, and so has the loop. -/
  | gone {lost : Flight} (accounted : s.taken = s.sent ++ [lost]) (stopped : s.timer.finished = true)
      (closing : s.loop.closing = true)
  /-- The loop has ended, and left the timer nothing to take. -/
  | left {lost : Flight} (accounted : s.taken = s.sent ++ [lost]) (closing : s.loop.closing = true)
      (empty : s.buffer.isEmpty = true) (grounded : s.timer.flight = none)
      (unstashed : ∀ e, s.timer ≠ .stashing e)

/-- Who holds the lock is the only one to dispatch. -/
theorem Excludes.timer_grounded (excludes : Excludes s) (held : s.loop.locks = true) :
    s.timer.flight = none := by
  have free := excludes.lock held
  cases stands : s.timer with
  | dispatching flight =>
    rw [stands] at free
    cases free
  | _ => rfl

/-- Who holds the lock is the only one to dispatch. -/
theorem Excludes.loop_grounded (excludes : Excludes s) (held : s.timer.locks = true) :
    s.loop.locks = false ∧ s.loop.flight = none := by
  have free : s.loop.locks = false := by
    cases locks : s.loop.locks with
    | false => rfl
    | true =>
      have free := excludes.lock locks
      exact absurd (free.symm.trans held) Bool.false_ne_true
  refine ⟨free, ?_⟩
  cases stands : s.loop with
  | draining stopping drain =>
    cases drain with
    | dispatching flight =>
      rw [stands] at free
      cases free
    | _ => rfl
  | _ => rfl

/-- Who dispatches has nothing to take, and waits for no lock. -/
theorem Healthy.move (healthy : Healthy s) (excludes : Excludes s) (move : Move settings s s') :
    Healthy s' ∨ Halted s' := by
  have clear := healthy.clear
  have accounted := healthy.accounted
  -- A drain that ends without a batch of its own leaves the accounts as they are.
  have afterwards : ∀ stopping result (t : Tasks), t.errorState = none → t.timer = s.timer →
      t.taken = t.sent ++ s.timer.flight.toList → Healthy (afterDrain stopping result t) := by
    intro stopping result t clear timer accounted
    rcases afterDrain_eq stopping result t with ⟨-, eq⟩ | ⟨-, -, eq⟩ | ⟨e, -, -, eq⟩
    all_goals
      rw [eq]
      refine ⟨clear, fun e stands => healthy.unstashed e (timer.symm.trans stands), ?_⟩
      rw [accounted, ← timer]
      simp [LoopPc.flight]
  -- A loop that dispatches nothing before and after a step.
  have goes : ∀ t : Tasks, s.loop.flight = none → t.loop.flight = none → t.errorState = none →
      t.timer = s.timer → t.taken = s.taken → t.sent = s.sent → Healthy t := by
    intro t grounded stays clear timer taken sent
    refine ⟨clear, fun e stands => healthy.unstashed e (timer.symm.trans stands), ?_⟩
    rw [taken, sent, timer, stays, accounted, grounded]
  -- A timer that dispatches nothing before and after a step.
  have rests : ∀ t : Tasks, s.timer.flight = none → t.timer.flight = none →
      (∀ e, t.timer ≠ .stashing e) → t.errorState = none → t.loop = s.loop → t.taken = s.taken →
      t.sent = s.sent → Healthy t := by
    intro t grounded stays unstashed clear loop taken sent
    refine ⟨clear, unstashed, ?_⟩
    rw [taken, sent, loop, stays, accounted, grounded]
  cases move with
  | tick | watch => exact .inl ⟨clear, healthy.unstashed, accounted⟩
  | hand record stands | leave stands | skip stands | tell stands | lock stands | drainCheck stands
  | joinFail stands | join stands =>
    exact .inl (goes _ (by rw [stands]; rfl) rfl clear rfl rfl rfl)
  | surface _ stashed | drainSurface _ stashed | joinSurface _ _ stashed | fire _ stashed =>
    rw [clear] at stashed
    cases stashed
  | shutdown stands =>
    have grounded : s.loop.flight = none := by rw [stands]; rfl
    rcases notifyOne_eq { s with shuttingDown := true, loop := .draining true .locking } with
      ⟨waits, same⟩ | ⟨-, same⟩
    · rw [same]
      refine .inl ⟨clear, nofun, ?_⟩
      have waits : s.timer = .waiting := waits
      rw [grounded, waits] at accounted
      exact accounted
    · rw [same]
      exact .inl (goes _ grounded rfl clear rfl rfl rfl)
  | append stands =>
    rename_i record key
    have grounded : s.loop.flight = none := by rw [stands]; rfl
    obtain ⟨loop, timer, newData, same, loops, wakes⟩ := append_eq settings record key s
    have stays : loop.flight = none := by
      rcases loops with rfl | rfl <;> rfl
    rw [same]
    rcases wakes with ⟨-, rfl, -⟩ | ⟨waits, rfl, -⟩ | ⟨-, rfl, -⟩
    · exact .inl (goes _ grounded stays clear rfl rfl rfl)
    · refine .inl ⟨clear, nofun, ?_⟩
      rw [grounded, waits] at accounted
      show s.taken = s.sent ++ loop.flight.toList ++ _
      rw [stays]
      exact accounted
    · exact .inl (goes _ grounded stays clear rfl rfl rfl)
  | drainNothing stands =>
    refine .inl (afterwards _ _ _ clear rfl ?_)
    rw [accounted, stands]
    simp [LoopPc.flight]
  | drainTake stands =>
    -- The loop holds the lock, so the timer dispatches nothing.
    have grounded := excludes.timer_grounded (by rw [stands]; rfl)
    rw [stands, grounded] at accounted
    refine .inl ⟨clear, healthy.unstashed, ?_⟩
    show s.taken ++ _ = s.sent ++ [_] ++ s.timer.flight.toList
    rw [grounded, accounted]
    simp [LoopPc.flight]
  | drainDeliver stands =>
    rename_i stopping flight
    have grounded := excludes.timer_grounded (by rw [stands]; rfl)
    refine .inl (afterwards _ _ (s.deliver flight) clear rfl ?_)
    show s.taken = s.sent ++ [flight] ++ s.timer.flight.toList
    rw [accounted, stands]
    rfl
  | drainFail e stands =>
    rename_i stopping flight
    have grounded := excludes.timer_grounded (by rw [stands]; rfl)
    have emptied := excludes.emptied flight (by rw [stands]; rfl)
    have lost : s.taken = s.sent ++ [flight] := by
      rw [accounted, stands, grounded]
      simp [LoopPc.flight]
    refine .inr ?_
    rcases afterDrain_eq stopping (.error e) { s with failures := s.failures ++ [e] } with
      ⟨-, eq⟩ | ⟨-, never, -⟩ | ⟨e, -, -, eq⟩
    · rw [eq]
      exact .left lost rfl emptied grounded healthy.unstashed
    · cases never
    · rw [eq]
      exact .left lost rfl emptied grounded healthy.unstashed
  | permit stands | wait stands | wake stands | measure stands | rest stands | rise stands
  | timerLock stands | timerNothing stands =>
    exact .inl (rests _ (by rw [stands]; rfl) rfl nofun clear rfl rfl rfl)
  | exit stands =>
    have grounded : s.timer.flight = none := by
      rcases stands with woken | ⟨began, wakesAt, slept⟩
      · rw [woken]
        rfl
      · rw [slept]
        rfl
    exact .inl (rests _ grounded rfl nofun clear rfl rfl rfl)
  | timerTake stands =>
    obtain ⟨-, grounded⟩ := excludes.loop_grounded (by rw [stands]; rfl)
    rw [stands, grounded] at accounted
    refine .inl ⟨clear, nofun, ?_⟩
    show s.taken ++ _ = s.sent ++ s.loop.flight.toList ++ [_]
    rw [grounded, accounted]
    simp [TimerPc.flight]
  | timerDeliver stands =>
    rename_i flight
    obtain ⟨-, grounded⟩ := excludes.loop_grounded (by rw [stands]; rfl)
    rw [stands, grounded] at accounted
    refine .inl ⟨clear, nofun, ?_⟩
    show s.taken = s.sent ++ [flight] ++ s.loop.flight.toList ++ []
    rw [grounded, accounted]
    simp [TimerPc.flight]
  | timerFail e stands =>
    rename_i flight
    obtain ⟨outside, grounded⟩ := excludes.loop_grounded (by rw [stands]; rfl)
    have lost : s.taken = s.sent ++ [flight] := by
      rw [accounted, stands, grounded]
      simp [TimerPc.flight]
    exact .inr (.stashing lost rfl outside clear)
  | stash signal watch stands => exact absurd stands (healthy.unstashed _)
  | abort stands running =>
    have grounded : s.loop.flight = none := by rw [stands]; rfl
    cases dispatches : s.timer.flight with
    | none => exact .inl (rests _ dispatches rfl nofun clear rfl rfl rfl)
    | some flight =>
      have lost : s.taken = s.sent ++ [flight] := by
        rw [accounted, grounded, dispatches]
        simp
      exact .inr (.gone lost rfl (by rw [stands]; rfl))

/-- A loop that does not hold the lock dispatches nothing and takes nothing. -/
theorem outside_spec (outside : s.loop.locks = false) :
    s.loop.flight = none ∧ ∀ stopping, s.loop ≠ .draining stopping .taking := by
  refine ⟨?_, fun stopping stands => ?_⟩
  · cases stands : s.loop with
    | draining stopping drain =>
      cases drain with
      | dispatching flight =>
        rw [stands] at outside
        cases outside
      | _ => rfl
    | _ => rfl
  · rw [stands] at outside
    cases outside

/-- The error that the timer is about to leave behind is left, or the loop has stopped before. -/
theorem Halted.move_stashing {lost : Flight} {e : NotifyError} (accounted : s.taken = s.sent ++ [lost])
    (stands : s.timer = .stashing e) (outside : s.loop.locks = false) (clear : s.errorState = none)
    (move : Move settings s s') : Halted s' := by
  -- The timer holds the lock, and nothing is left for anybody to come upon.
  have held : s.timer.locks = true := by rw [stands]; rfl
  cases move with
  | tick | watch => exact .stashing accounted stands outside clear
  | hand | leave | skip | tell => exact .stashing accounted stands rfl clear
  | shutdown =>
    rcases notifyOne_eq { s with shuttingDown := true, loop := .draining true .locking } with
      ⟨waits, -⟩ | ⟨-, same⟩
    · rw [show s.timer = .waiting from waits] at stands
      cases stands
    · rw [same]
      exact .stashing accounted stands rfl clear
  | append =>
    rename_i record key _
    obtain ⟨loop, timer, newData, same, loops, wakes⟩ := append_eq settings record key s
    have stays : loop.locks = false := by
      rcases loops with rfl | rfl <;> rfl
    rw [same]
    rcases wakes with ⟨-, rfl, -⟩ | ⟨waits, -, -⟩ | ⟨-, rfl, -⟩
    · exact .stashing accounted stands stays clear
    · rw [waits] at stands
      cases stands
    · exact .stashing accounted stands stays clear
  | surface _ stashed | drainSurface _ stashed | joinSurface _ _ stashed | fire _ stashed =>
    rw [clear] at stashed
    cases stashed
  | lock _ unlocked => exact absurd (held.symm.trans unlocked) Bool.false_ne_true.symm
  | drainCheck inside | drainNothing inside | drainTake inside | drainDeliver inside
  | drainFail e inside =>
    rw [inside] at outside
    cases outside
  | joinFail _ stopped | join _ stopped =>
    rw [stands] at stopped
    cases stopped
  | stash signal watch =>
    obtain ⟨grounded, ahead⟩ := outside_spec outside
    exact .stashed accounted rfl rfl grounded ahead
  | abort joins => exact .gone accounted rfl (by rw [joins]; rfl)
  | permit other | wait other | wake other | measure other | rest other | rise other
  | timerLock other | timerNothing other | timerTake other | timerDeliver other
  | timerFail e other =>
    rw [stands] at other
    cases other
  | exit other =>
    rw [stands] at other
    rcases other with never | ⟨began, wakesAt, never⟩ <;> cases never

/-- A timer that has ended does nothing more. -/
theorem finished_stays (stopped : s.timer.finished = true) (move : Move settings s s') :
    s'.timer = s.timer := by
  -- Only the timer itself, a wake-up and an abort move the timer, and it takes no more steps.
  have afterwards : ∀ stopping result (t : Tasks), t.timer = s.timer →
      (afterDrain stopping result t).timer = s.timer := fun _ _ _ same => same
  cases move with
  | append stands =>
    rename_i record key
    obtain ⟨loop, timer, newData, same, -, wakes⟩ := append_eq settings record key s
    rw [same]
    rcases wakes with ⟨-, rfl, -⟩ | ⟨waits, -, -⟩ | ⟨-, rfl, -⟩
    · rfl
    · rw [waits] at stopped
      cases stopped
    · rfl
  | shutdown =>
    rcases notifyOne_eq { s with shuttingDown := true, loop := .draining true .locking } with
      ⟨waits, -⟩ | ⟨-, same⟩
    · rw [show s.timer = .waiting from waits] at stopped
      cases stopped
    · rw [same]
  | permit stands | wait stands | wake stands | measure stands | rest stands | rise stands
  | timerLock stands | timerNothing stands | timerTake stands | timerDeliver stands
  | timerFail e stands | stash signal watch stands =>
    rw [stands] at stopped
    cases stopped
  | exit stands =>
    rcases stands with stands | ⟨began, wakesAt, stands⟩
    all_goals
      rw [stands] at stopped
      cases stopped
  | abort stands running =>
    rw [stopped] at running
    cases running
  | drainSurface | drainNothing | drainDeliver | drainFail => exact afterwards _ _ _ rfl
  | _ => rfl

/-- The loop comes upon the error of the timer before it takes anything. -/
theorem Halted.move_stashed {lost : Flight} {e : NotifyError} (accounted : s.taken = s.sent ++ [lost])
    (stopped : s.timer.finished = true) (error : s.errorState = some e) (grounded : s.loop.flight = none)
    (ahead : ∀ stopping, s.loop ≠ .draining stopping .taking) (move : Move settings s s') :
    Halted s' := by
  -- The stashed error is the reason: no drain begins, and the timer is over.
  have stopped' : s'.timer.finished = true := by rw [finished_stays stopped move]; exact stopped
  have taking : ∀ {stopping : Bool}, s.loop ≠ .draining stopping .taking := fun stands =>
    ahead _ stands
  cases move with
  | tick | watch => exact .stashed accounted stopped' error grounded ahead
  | hand | leave | skip | tell | lock => exact .stashed accounted stopped' error rfl nofun
  | shutdown =>
    rcases notifyOne_eq { s with shuttingDown := true, loop := .draining true .locking } with
      ⟨-, same⟩ | ⟨-, same⟩
    all_goals
      rw [same] at stopped' ⊢
      exact .stashed accounted stopped' error rfl nofun
  | append =>
    rename_i record key _
    obtain ⟨loop, timer, newData, same, loops, -⟩ := append_eq settings record key s
    rw [same] at stopped' ⊢
    rcases loops with rfl | rfl
    · exact .stashed accounted stopped' error rfl nofun
    · exact .stashed accounted stopped' error rfl nofun
  | surface | joinFail | joinSurface | fire => exact .gone accounted stopped' rfl
  -- The drain that surfaces the error ends the loop, or is the last one of a stop.
  | drainSurface =>
    rename_i stopping e _ _
    rcases afterDrain_eq stopping (.error e) { s with errorState := none } with
      ⟨-, eq⟩ | ⟨-, never, -⟩ | ⟨e, -, -, eq⟩
    · rw [eq]
      exact .gone accounted stopped rfl
    · cases never
    · rw [eq]
      exact .gone accounted stopped rfl
  | drainCheck _ clear | join _ _ clear =>
    rw [error] at clear
    cases clear
  | drainNothing stands | drainTake stands => exact absurd stands taking
  | drainDeliver stands | drainFail e stands =>
    rw [stands] at grounded
    cases grounded
  | abort _ running => exact absurd (stopped.symm.trans running) Bool.false_ne_true.symm
  | permit | wait | wake | measure | rest | rise | timerLock | timerNothing | timerTake
  | timerDeliver | timerFail => cases stopped'
  | exit => exact .stashed accounted stopped' error grounded ahead
  | stash signal watch stands =>
    rw [stands] at stopped
    cases stopped

/-- A loop that takes no batch any more only ends. -/
theorem closing_stays (closing : s.loop.closing = true) (move : Move settings s s') :
    s'.loop.closing = true := by
  have never : ∀ loop : LoopPc, loop.closing = false → s.loop ≠ loop := by
    intro loop runs stands
    rw [stands, runs] at closing
    cases closing
  cases move with
  | hand _ stands | leave stands | skip stands | tell stands | shutdown stands | surface stands
  | append stands | lock stands | drainSurface stands | drainCheck stands | drainNothing stands
  | drainTake stands | drainDeliver stands | drainFail _ stands => exact absurd stands (never _ rfl)
  | joinFail | joinSurface | join | fire => rfl
  | _ => exact closing

/-- With both at their end nothing is taken or delivered. -/
theorem Halted.move_gone {lost : Flight} (accounted : s.taken = s.sent ++ [lost])
    (stopped : s.timer.finished = true) (closing : s.loop.closing = true) (move : Move settings s s') :
    Halted s' := by
  have stopped' : s'.timer.finished = true := by rw [finished_stays stopped move]; exact stopped
  have closing' := closing_stays closing move
  have never : ∀ loop : LoopPc, loop.closing = false → s.loop ≠ loop := by
    intro loop runs stands
    rw [stands, runs] at closing
    cases closing
  cases move with
  | append stands | shutdown stands | drainSurface stands | drainNothing stands | drainTake stands
  | drainDeliver stands | drainFail _ stands => exact absurd stands (never _ rfl)
  | timerTake | timerDeliver => cases stopped'
  | _ => exact .gone accounted stopped' closing'

/-- The timer finds the buffer empty, as the loop left it. -/
theorem Halted.move_left {lost : Flight} (accounted : s.taken = s.sent ++ [lost])
    (closing : s.loop.closing = true) (empty : s.buffer.isEmpty = true)
    (grounded : s.timer.flight = none) (unstashed : ∀ e, s.timer ≠ .stashing e)
    (move : Move settings s s') : Halted s' := by
  have closing' := closing_stays closing move
  have never : ∀ loop : LoopPc, loop.closing = false → s.loop ≠ loop := by
    intro loop runs stands
    rw [stands, runs] at closing
    cases closing
  cases move with
  | append stands | shutdown stands | drainSurface stands | drainNothing stands | drainTake stands
  | drainDeliver stands | drainFail _ stands => exact absurd stands (never _ rfl)
  | timerTake stands takes =>
    rw [Buffer.take, if_pos empty] at takes
    cases takes
  | timerDeliver stands | timerFail e stands =>
    rw [stands] at grounded
    cases grounded
  | stash signal watch stands => exact absurd stands (unstashed _)
  | permit | wait | exit | wake | measure | rest | rise | timerLock | timerNothing | abort =>
    refine .left accounted closing' empty rfl ?_
    intro e stashing
    cases stashing
  | _ => exact .left accounted closing' empty grounded unstashed

/-- Once a batch was lost no other is taken. -/
theorem Halted.move (halted : Halted s) (move : Move settings s s') : Halted s' := by
  cases halted with
  | stashing accounted stands outside clear => exact .move_stashing accounted stands outside clear move
  | stashed accounted stopped error grounded ahead =>
    exact .move_stashed accounted stopped error grounded ahead move
  | gone accounted stopped closing => exact .move_gone accounted stopped closing move
  | left accounted closing empty grounded unstashed =>
    exact .move_left accounted closing empty grounded unstashed move

/-- Every batch that was delivered is acknowledged, through its last record. -/
def Acknowledged (s : Tasks) : Prop := s.acks = s.sent.map fun flight => flight.batch.highOffset + 1

/-- A delivery is acknowledged in the step that it ends in. -/
theorem Acknowledged.move (acknowledged : Acknowledged s) (move : Move settings s s') :
    Acknowledged s' := by
  have afterwards : ∀ stopping result (t : Tasks), Acknowledged t →
      Acknowledged (afterDrain stopping result t) := by
    intro stopping result t acknowledged
    rcases afterDrain_eq stopping result t with ⟨-, eq⟩ | ⟨-, -, eq⟩ | ⟨e, -, -, eq⟩
    all_goals
      rw [eq]
      exact acknowledged
  -- Only a delivery adds to what was sent, and it acknowledges the highest offset at once.
  have delivers : ∀ flight, Acknowledged (s.deliver flight) := by
    intro flight
    show s.acks ++ [flight.batch.highOffset + 1] = (s.sent ++ [flight]).map _
    rw [acknowledged, List.map_append]
    rfl
  cases move with
  | append =>
    rename_i record key stands
    obtain ⟨loop, timer, newData, same, -, -⟩ := append_eq settings record key s
    rw [same]
    exact acknowledged
  | shutdown =>
    rcases notifyOne_eq { s with shuttingDown := true, loop := .draining true .locking } with
      ⟨-, same⟩ | ⟨-, same⟩
    all_goals
      rw [same]
      exact acknowledged
  | drainDeliver => exact afterwards _ _ _ (delivers _)
  | timerDeliver => exact delivers _
  | drainSurface | drainNothing | drainFail => exact afterwards _ _ _ acknowledged
  | _ => exact acknowledged

/-- What is true of the batches in every state that the tasks come to. -/
structure Orderly (settings : NotifySettings) (s : Tasks) : Prop where
  gathers : Gathers settings s
  drained : Drained s
  excludes : Excludes s
  told : Healthy s ∨ Halted s
  acknowledged : Acknowledged s

/-- It is true at the start. -/
theorem orderly_start (watched : Bool) (now : Nat) : Orderly settings (start watched now) where
  gathers := .of_all rfl
  drained := nofun
  excludes := ⟨nofun, nofun⟩
  told := .inl ⟨rfl, nofun, rfl⟩
  acknowledged := rfl

/-- Every step keeps it. -/
theorem Orderly.step {event : NotifyEvent} (sound : Sound settings s) (orderly : Orderly settings s)
    (taken : step settings s event = some s') : Orderly settings s' := by
  have move := move_of_step taken
  have told : Healthy s' ∨ Halted s' := by
    rcases orderly.told with healthy | halted
    · exact healthy.move orderly.excludes move
    · exact .inr (halted.move move)
  exact {
    gathers := orderly.gathers.move sound.keyed move
    drained := orderly.drained.move sound.collected move
    excludes := orderly.excludes.move move
    told
    acknowledged := orderly.acknowledged.move move }

/-- Every run keeps it. -/
theorem orderly_of_run {watched : Bool} {now : Nat} {events : List NotifyEvent}
    (ran : Steps.run (Tasks.step settings) (start watched now) events = some s) :
    Orderly settings s := by
  have both := Steps.run_rule (fun t => Sound settings t ∧ Orderly settings t)
    (fun _ _ _ taken ⟨sound, orderly⟩ => ⟨sound.step taken, orderly.step sound taken⟩) ran
    ⟨sound_start watched now, orderly_start watched now⟩
  exact both.2

/-- The delivered batches are the first of those that were taken. -/
theorem Orderly.sent_prefix (orderly : Orderly settings s) : s.sent <+: s.taken := by
  rcases orderly.told with ⟨-, -, accounted⟩ | halted
  · rw [accounted, List.append_assoc]
    exact List.prefix_append _ _
  · cases halted with
    | stashing accounted | stashed accounted | gone accounted | left accounted =>
      rw [accounted]
      exact List.prefix_append _ _

/-- A batch is being dispatched, by the loop or by the timer. -/
def Dispatches (s : Tasks) (flight : Flight) : Prop :=
  s.loop.flight = some flight ∨ s.timer.flight = some flight

/-- A batch that is being dispatched is one that was taken. -/
theorem Orderly.taken_of_dispatches (orderly : Orderly settings s) {flight : Flight}
    (dispatches : Dispatches s flight) : flight ∈ s.taken := by
  -- Neither a loop that is closing nor a timer that is over has a batch in its hands.
  have closed : s.loop.closing = true → s.loop.flight = none := by
    intro closing
    cases stands : s.loop with
    | draining stopping drain =>
      rw [stands] at closing
      cases closing
    | _ => rfl
  have stopped : s.timer.finished = true → s.timer.flight = none := by
    intro finished
    cases stands : s.timer with
    | dispatching flight =>
      rw [stands] at finished
      cases finished
    | _ => rfl
  have never : s.loop.flight = none → s.timer.flight = none → flight ∈ s.taken := by
    intro grounded rests
    rcases dispatches with loop | timer
    · rw [grounded] at loop
      cases loop
    · rw [rests] at timer
      cases timer
  rcases orderly.told with ⟨-, -, accounted⟩ | halted
  · rw [accounted]
    rcases dispatches with loop | timer
    · simp [loop]
    · simp [timer]
  · -- After a loss nobody dispatches.
    cases halted with
    | stashing accounted stands outside clear =>
      exact never (outside_spec outside).1 (by rw [stands]; rfl)
    | stashed accounted finished error grounded ahead => exact never grounded (stopped finished)
    | gone accounted finished closing => exact never (closed closing) (stopped finished)
    | left accounted closing empty grounded unstashed => exact never (closed closing) grounded

/-- Every record of a batch was handed over, and is one to tell of. -/
theorem Orderly.handed_of_taken (orderly : Orderly settings s) {flight : Flight}
    (taken : flight ∈ s.taken) {record : Record} (mem : record ∈ flight.records) :
    record ∈ s.handed ∧ settings.Tells record := by
  have gathered : record ∈ s.gathered :=
    List.mem_append_left _ (List.mem_flatMap.mpr ⟨flight, taken, mem⟩)
  have handed := List.mem_filter.mp (orderly.gathers.first.subset gathered)
  exact ⟨handed.1, of_decide_eq_true handed.2⟩

/-- Records come in the order of their offsets. -/
def InOffsetOrder (records : List Record) : Prop :=
  records.Pairwise fun record later => record.sourceOffset < later.sourceOffset

/-- One of the records of a batch is its last, and none is later. -/
theorem drains_highest {flight : Flight} (drains : Buffer.Drains flight.records flight.batch) :
    (∃ record ∈ flight.records, record.sourceOffset = flight.batch.highOffset)
      ∧ ∀ record ∈ flight.records, record.sourceOffset ≤ flight.batch.highOffset := by
  obtain ⟨mem, above⟩ := List.max?_eq_some_iff.mp drains.highest.symm
  refine ⟨List.mem_map.mp mem, fun record mem => ?_⟩
  exact above _ (List.mem_map_of_mem mem)

/-- What the delivered batches told of comes before everything else to tell of. -/
theorem Orderly.told_split (orderly : Orderly settings s) :
    ∃ rest, s.handed.filter settings.Tells = s.sent.flatMap (·.records) ++ rest := by
  obtain ⟨later, first⟩ := orderly.gathers.first
  obtain ⟨untold, taken⟩ := orderly.sent_prefix
  refine ⟨untold.flatMap (·.records) ++ s.pending ++ later, ?_⟩
  rw [← first, gathered, ← taken, List.flatMap_append]
  simp only [List.append_assoc]

/-- The acknowledgements of batches whose records come in order come in order too. -/
theorem acks_increase {flights : List Flight}
    (drains : ∀ flight ∈ flights, Buffer.Drains flight.records flight.batch)
    (ordered : InOffsetOrder (flights.flatMap (·.records))) :
    (flights.map fun flight => flight.batch.highOffset + 1).Pairwise (· < ·) := by
  induction flights with
  | nil => exact .nil
  | cons flight flights ih =>
    rw [List.flatMap_cons, InOffsetOrder, List.pairwise_append] at ordered
    obtain ⟨-, later, across⟩ := ordered
    rw [List.map_cons, List.pairwise_cons]
    refine ⟨fun n acked => ?_, ih (fun other mem => drains other (.tail _ mem)) later⟩
    obtain ⟨other, mem, rfl⟩ := List.mem_map.mp acked
    -- The last record of this batch comes before the last of any other.
    obtain ⟨⟨last, inside, last_eq⟩, -⟩ := drains_highest (drains flight (.head _))
    obtain ⟨⟨last', inside', last_eq'⟩, -⟩ := drains_highest (drains other (.tail _ mem))
    have before := across last inside last' (List.mem_flatMap.mpr ⟨other, mem, inside'⟩)
    omega

/-- What is below an acknowledgement and is to be told of was delivered. -/
theorem Orderly.sent_of_acked (orderly : Orderly settings s) (ordered : InOffsetOrder s.handed)
    {n : Nat} (acked : n ∈ s.acks) {record : Record} (handed : record ∈ s.handed)
    (before : record.sourceOffset < n) (tells : settings.Tells record) :
    ∃ flight ∈ s.sent, record ∈ flight.records := by
  have told : InOffsetOrder (s.handed.filter settings.Tells) := ordered.sublist List.filter_sublist
  obtain ⟨rest, split⟩ := orderly.told_split
  rw [split, InOffsetOrder, List.pairwise_append] at told
  rw [orderly.acknowledged] at acked
  obtain ⟨flight, mem, rfl⟩ := List.mem_map.mp acked
  have listed : record ∈ s.sent.flatMap (·.records) ++ rest := by
    rw [← split]
    exact List.mem_filter.mpr ⟨handed, decide_eq_true tells⟩
  rcases List.mem_append.mp listed with delivered | later
  · exact List.mem_flatMap.mp delivered
  · -- What was not delivered comes after the last record of the acknowledged batch.
    have drains := orderly.drained flight (orderly.sent_prefix.subset mem)
    obtain ⟨⟨last, inside, last_eq⟩, -⟩ := drains_highest drains
    have after := told.2.2 last (List.mem_flatMap.mpr ⟨flight, mem, inside⟩) record later
    omega

/-- An acknowledgement is one past a record that was handed over. -/
theorem Orderly.handed_of_acked (orderly : Orderly settings s) {n : Nat} (acked : n ∈ s.acks) :
    ∃ record ∈ s.handed, record.sourceOffset + 1 = n := by
  rw [orderly.acknowledged] at acked
  obtain ⟨flight, mem, rfl⟩ := List.mem_map.mp acked
  have taken := orderly.sent_prefix.subset mem
  obtain ⟨⟨last, inside, highest⟩, -⟩ := drains_highest (orderly.drained flight taken)
  exact ⟨last, (orderly.handed_of_taken taken inside).1, by rw [highest]⟩

/--
An acknowledgement never passes a record that was not delivered.

Acknowledgements increase, no record is in two batches, and each batch tells of its records.
-/
theorem acks_never_pass {watched : Bool} {now : Nat} {events : List NotifyEvent}
    (ran : Steps.run (Tasks.step settings) (start watched now) events = some s)
    (ordered : InOffsetOrder s.handed) :
    (∀ n ∈ s.acks, ∀ record ∈ s.handed, record.sourceOffset < n → settings.Tells record →
        ∃ flight ∈ s.sent, record ∈ flight.records)
      ∧ s.acks.Pairwise (· < ·)
      ∧ InOffsetOrder (s.taken.flatMap (·.records))
      ∧ (∀ flight ∈ s.taken, Buffer.Drains flight.records flight.batch)
      ∧ s.sent <+: s.taken := by
  have orderly := orderly_of_run ran
  have told : InOffsetOrder (s.handed.filter settings.Tells) := ordered.sublist List.filter_sublist
  obtain ⟨rest, split⟩ := orderly.told_split
  have taken_ordered : InOffsetOrder (s.taken.flatMap (·.records)) := by
    have first : s.taken.flatMap (·.records) <+: s.handed.filter settings.Tells :=
      (List.prefix_append _ _).trans orderly.gathers.first
    exact told.sublist first.sublist
  rw [split, InOffsetOrder, List.pairwise_append] at told
  refine ⟨fun n acked record handed before tells => ?_, ?_, taken_ordered, orderly.drained,
    orderly.sent_prefix⟩
  · exact orderly.sent_of_acked ordered acked handed before tells
  · rw [orderly.acknowledged]
    exact acks_increase (fun flight mem => orderly.drained flight (orderly.sent_prefix.subset mem))
      told.1

end Tasks

namespace NotifySample

open Tasks

/-- Two records, each dispatched by the timer after its wait, and a third one whose dispatch fails. -/
def lostDispatch : List NotifyEvent :=
  let timed (offset : Nat) (reply : Except NotifyError Unit) : List NotifyEvent :=
    [.timer (.ok ()), .onRecord (keyed offset), .loop (.ok ()), .loop (.ok ()),
      .timer (.ok ()), .timer (.ok ()), .tick 10, .timer (.ok ()), .timer (.ok ()), .timer (.ok ()),
      .timer reply]
  timed 3 (.ok ()) ++ timed 5 (.ok ()) ++ timed 6 (.error (.transport "refused"))

/-- The two deliveries are acknowledged, and the record that was lost is past both. -/
theorem acks_never_pass_lost :
    ∃ s, Steps.run (step settings) (start true 0) lostDispatch = some s
      ∧ s.acks = [4, 6]
      ∧ (∀ n ∈ s.acks, ∀ record ∈ s.handed, record.sourceOffset < n → settings.Tells record →
          ∃ flight ∈ s.sent, record ∈ flight.records)
      ∧ InOffsetOrder (s.taken.flatMap (·.records)) := by
  have ended : (Steps.run (step settings) (start true 0) lostDispatch).map
      (fun s => (s.acks, s.handed)) = some ([4, 6], [keyed 3, keyed 5, keyed 6]) := by
    decide
  obtain ⟨s, ran, shown⟩ := Option.map_eq_some_iff.mp ended
  obtain ⟨acked, handed⟩ := Prod.mk.inj shown
  have ordered : InOffsetOrder s.handed := by
    rw [handed, InOffsetOrder]
    decide
  have passed := acks_never_pass ran ordered
  exact ⟨s, ran, acked, passed.1, passed.2.2.1⟩

end NotifySample

end MirrorV3
