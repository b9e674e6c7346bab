import Mathlib.Data.List.Induction
import MirrorV3.Notify.Acks

/-! A notifier that was stopped without an error has nothing left of what it was handed. -/

namespace MirrorV3

/-- Whether the drain of a stop is over, and ended without an error. -/
def LoopPc.emptied : LoopPc → Bool
  | .joining (.ok ()) => true
  | .ended (.ok ()) => true
  | _ => false

namespace Tasks

variable {settings : NotifySettings} {s s' : Tasks}

/-- Everything to tell of is delivered, and the timer has nothing to say. -/
structure Cleared (settings : NotifySettings) (s : Tasks) : Prop where
  delivered : s.sent.flatMap (·.records) = s.handed.filter settings.Tells
  empty : s.buffer.isEmpty = true
  grounded : s.timer.flight = none
  unstashed : ∀ e, s.timer ≠ .stashing e
  clear : s.errorState = none

/-- Once the drain of a stop is over, nothing is left. -/
def Emptied (settings : NotifySettings) (s : Tasks) : Prop :=
  s.loop.emptied = true → Cleared settings s

/-- A loop that the stop is not done with is not held to anything. -/
theorem Emptied.of_not (open_ : s.loop.emptied = false) : Emptied settings s :=
  fun emptied => absurd (open_.symm.trans emptied) Bool.false_ne_true

/-- A drain that ended with an error, or for a full batch, empties nothing. -/
theorem Emptied.afterDrain {stopping : Bool} {result : Except NotifyError Unit} {t : Tasks}
    (cleared : stopping = true → result = .ok () → Cleared settings t) :
    Emptied settings (afterDrain stopping result t) := by
  -- Only the drain of a stop that ends without an error is held to anything.
  cases stopping with
  | false => cases result <;> exact .of_not rfl
  | true =>
    cases result with
    | error e => exact .of_not rfl
    | ok done =>
      obtain ⟨delivered, empty, grounded, unstashed, clear⟩ := cleared rfl rfl
      exact fun _ => ⟨delivered, empty, grounded, unstashed, clear⟩

/-- While the loop holds the lock and has not lost a batch, the batches are accounted for. -/
theorem Orderly.healthy_of_held (orderly : Orderly settings s) {drain : DrainPc} {stopping : Bool}
    (stands : s.loop = .draining stopping drain) (held : s.loop.locks = true)
    (beyond : s.loop.flight.isSome = true ∨ drain = .taking) : Healthy s := by
  rcases orderly.told with healthy | halted
  · exact healthy
  · -- After a loss the loop does not come as far as the buffer.
    cases halted with
    | stashing accounted at_ outside clear =>
      rw [outside] at held
      cases held
    | stashed accounted stopped error grounded ahead =>
      rcases beyond with flies | rfl
      · rw [grounded] at flies
        cases flies
      · exact absurd stands (ahead stopping)
    | gone accounted stopped closing | left accounted closing empty grounded unstashed =>
      rw [stands] at closing
      cases closing

/-- What was delivered is all there was to tell of, when the buffer is empty and no batch is out. -/
theorem Orderly.delivered (orderly : Orderly settings s) (collected : Collected s)
    {stopping : Bool} {drain : DrainPc} (stands : s.loop = .draining stopping drain)
    (empty : s.buffer.isEmpty = true) :
    s.taken.flatMap (·.records) = s.handed.filter settings.Tells := by
  -- What was taken and what is pending is all there was, and nothing is pending.
  have all := orderly.gathers.all (by rw [stands]; rfl)
  have nothing : s.pending = [] := (Buffer.Collects.isEmpty_iff collected).mp empty
  rw [all, gathered, nothing, stands]
  simp [LoopPc.coming]

/-- A timer that has let go of the lock stands at nothing of its own. -/
theorem Healthy.cleared (healthy : Healthy s) (excludes : Excludes s) (held : s.loop.locks = true)
    {t : Tasks} (delivered : t.sent.flatMap (·.records) = t.handed.filter settings.Tells)
    (empty : t.buffer.isEmpty = true) (timer : t.timer = s.timer)
    (error : t.errorState = s.errorState) : Cleared settings t where
  delivered := delivered
  empty := empty
  grounded := timer ▸ excludes.timer_grounded held
  unstashed := timer ▸ healthy.unstashed
  clear := error.trans healthy.clear

/-- Once nothing is left, nothing comes to be left by a step of anybody. -/
theorem Cleared.move (cleared : Cleared settings s) (emptied : s.loop.emptied = true)
    (move : Move settings s s') : Emptied settings s' := by
  obtain ⟨delivered, empty, grounded, unstashed, clear⟩ := cleared
  -- The loop stands at the end of its stop, so no other step of it can be next.
  have never : ∀ loop : LoopPc, loop.emptied = false → s.loop ≠ loop := by
    intro loop open_ stands
    rw [stands, open_] at emptied
    cases emptied
  cases move with
  | tick | watch => exact fun _ => ⟨delivered, empty, grounded, unstashed, clear⟩
  | join => exact fun _ => ⟨delivered, empty, grounded, unstashed, clear⟩
  | hand _ stands | leave stands | skip stands | tell stands | shutdown stands | surface stands
  | append stands | lock stands | drainSurface stands | drainCheck stands | drainNothing stands
  | drainTake stands | drainDeliver stands | drainFail _ stands | joinFail stands =>
    exact absurd stands (never _ rfl)
  -- An error would have to be stashed for these, and none is.
  | joinSurface _ _ stashed | fire _ stashed =>
    rw [clear] at stashed
    cases stashed
  | permit | wait | exit | wake | measure | rest | rise | timerLock | timerNothing | abort =>
    exact fun _ => ⟨delivered, empty, rfl, nofun, clear⟩
  | timerTake _ takes =>
    -- The timer looks into a buffer that the stop has emptied.
    rw [Buffer.take, if_pos empty] at takes
    cases takes
  | timerDeliver stands | timerFail _ stands =>
    rw [stands] at grounded
    cases grounded
  | stash _ _ stands => exact absurd stands (unstashed _)

/-- The drain of a stop leaves nothing when it ends without an error. -/
theorem Emptied.move (kept : Emptied settings s) (orderly : Orderly settings s)
    (collected : Collected s) (move : Move settings s s') : Emptied settings s' := by
  cases emptied : s.loop.emptied with
  -- Once it is over, nobody fills the buffer again.
  | true => exact (kept emptied).move emptied move
  | false =>
    cases move with
    | tick | watch => exact .of_not emptied
    | hand | leave | skip | tell | surface | lock | drainCheck | drainTake | joinFail | joinSurface
    | fire => exact .of_not rfl
    | join stands =>
      rw [stands] at emptied
      cases emptied
    | permit | wait | exit | wake | measure | rest | rise | timerLock | timerNothing | abort
    | timerTake | timerDeliver | timerFail | stash => exact .of_not emptied
    | shutdown =>
      rcases notifyOne_eq { s with shuttingDown := true, loop := .draining true .locking } with
        ⟨-, same⟩ | ⟨-, same⟩
      all_goals
        rw [same]
        exact .of_not rfl
    | append =>
      rename_i record key stands
      obtain ⟨loop, timer, newData, same, loops, -⟩ := append_eq settings record key s
      rw [same]
      rcases loops with rfl | rfl
      · exact .of_not rfl
      · exact .of_not rfl
    | drainSurface | drainFail => exact .afterDrain (fun _ failed => by cases failed)
    -- The two ways a drain ends well: it finds nothing, or it delivers what it took.
    | drainNothing stands empty =>
      have held : s.loop.locks = true := by rw [stands]; rfl
      have healthy := orderly.healthy_of_held stands held (.inr rfl)
      refine .afterDrain fun _ _ => healthy.cleared orderly.excludes held ?_ empty rfl rfl
      have accounted := healthy.accounted
      rw [stands, orderly.excludes.timer_grounded held] at accounted
      rw [← orderly.delivered collected stands empty, accounted]
      simp [LoopPc.flight]
    | drainDeliver stands =>
      rename_i stopping flight
      have held : s.loop.locks = true := by rw [stands]; rfl
      have flies : s.loop.flight = some flight := by rw [stands]; rfl
      have empty := orderly.excludes.emptied flight flies
      have healthy := orderly.healthy_of_held stands held (.inl (by rw [flies]; rfl))
      refine .afterDrain fun _ _ => healthy.cleared orderly.excludes held ?_ empty rfl rfl
      -- The batch that was just delivered is the last of those that were taken.
      have accounted := healthy.accounted
      rw [flies, orderly.excludes.timer_grounded held] at accounted
      show (s.sent ++ [flight]).flatMap _ = s.handed.filter _
      rw [← orderly.delivered collected stands empty, accounted]
      simp

/-- What is true of a stop in every state that the tasks come to. -/
theorem emptied_step {event : NotifyEvent} (sound : Sound settings s) (orderly : Orderly settings s)
    (kept : Emptied settings s) (taken : step settings s event = some s') : Emptied settings s' :=
  kept.move orderly sound.collected (move_of_step taken)

/-- The last record of records in order is the highest of them. -/
theorem getLast?_of_highest {records : List Record} {highest : Nat} (ordered : InOffsetOrder records)
    (most : some highest = (records.map (·.sourceOffset)).max?) :
    records.getLast?.map (·.sourceOffset) = some highest := by
  obtain ⟨mem, above⟩ := List.max?_eq_some_iff.mp most.symm
  obtain ⟨record, inside, rfl⟩ := List.mem_map.mp mem
  induction records using List.reverseRecOn with
  | nil => cases inside
  | append_singleton before last _ =>
    rw [List.getLast?_concat, Option.map_some]
    rcases List.mem_append.mp inside with earlier | same
    · -- A record before the last is below it, so it was not the highest.
      rw [InOffsetOrder, List.pairwise_append] at ordered
      have below := ordered.2.2 record earlier last (List.mem_singleton_self last)
      have atMost := above last.sourceOffset (List.mem_map_of_mem (List.mem_append_right _ (.head _)))
      omega
    · rw [List.mem_singleton.mp same]

/-- The last of batches whose records come in order ends with the last record of them all. -/
theorem last_of_batches {flights : List Flight}
    (drains : ∀ flight ∈ flights, Buffer.Drains flight.records flight.batch)
    (ordered : InOffsetOrder (flights.flatMap (·.records))) :
    (flights.map fun flight => flight.batch.highOffset + 1).getLast?
      = (flights.flatMap (·.records)).getLast?.map (·.sourceOffset + 1) := by
  -- Only the last batch matters, and it is not empty.
  induction flights using List.reverseRecOn with
  | nil => rfl
  | append_singleton before flight _ =>
    have last := (drains flight (List.mem_append_right _ (.head _))).highest
    rw [List.flatMap_append, List.flatMap_singleton, InOffsetOrder, List.pairwise_append] at ordered
    have highest := getLast?_of_highest ordered.2.1 last
    rw [List.map_append, List.map_singleton, List.getLast?_concat, List.flatMap_append,
      List.flatMap_singleton, List.getLast?_append]
    -- A batch that was taken holds a record, so the last of all is in the last batch.
    cases ends : flight.records.getLast? with
    | none =>
      rw [ends] at highest
      cases highest
    | some record =>
      rw [ends, Option.map_some, Option.some.injEq] at highest
      rw [Option.some_or, Option.map_some, highest]

/-- When nothing is left, the last acknowledgement is one past the last record to tell of. -/
theorem Orderly.last_ack (orderly : Orderly settings s) (cleared : Cleared settings s)
    (ordered : InOffsetOrder s.handed) :
    s.acks.getLast? = (s.handed.filter settings.Tells).getLast?.map (·.sourceOffset + 1) := by
  -- There is one acknowledgement for each batch that was delivered.
  rw [orderly.acknowledged, ← cleared.delivered]
  refine last_of_batches (fun flight mem => orderly.drained flight (orderly.sent_prefix.subset mem)) ?_
  rw [cleared.delivered]
  exact ordered.sublist List.filter_sublist

end Tasks

end MirrorV3
