import Mathlib.Data.Stream.Defs
import MirrorV3.Lib.Effect
import MirrorV3.Core.Record

/-! Committing to the source: offsets are staged under a guard that all the holders share. -/

namespace MirrorV3

open Effect

/-- What becomes of one request to a consumer: the error it fails with, if it fails. -/
abbrev ConsumerAnswer := Option String

/-- A consumer of one source partition, as far as commits go. -/
structure Consumer where
  /-- The offset that is staged to be committed. -/
  staged : Option Nat
  /-- The offset that was committed last. -/
  committed : Option Nat
  answers : Stream' ConsumerAnswer

namespace Consumer

/-- Send one request, which fails as the consumer answers it. -/
def request : Program String Consumer Unit := do
  let c ← get
  set { c with answers := c.answers.tail }
  match c.answers.head with
  | some error => throw error
  | none => pure ()

/-- Stage an offset, which leaves the one staged before when it fails. -/
def storeOffsets (through : Nat) : Program String Consumer Unit := do
  request
  modify ({ · with staged := some through })

/-- Commit what is staged. -/
def commitConsumerState : Program String Consumer Unit := do
  request
  modify fun c => { c with committed := c.staged }

end Consumer

/-- The side of a source that commits, which the source and its handles share. -/
structure KafkaCommitHandle where
  consumer : Consumer
  /-- The highest offset that was asked for. -/
  lastStoredOffset : Nat

/-- What was delivered through each way out of a mirror. -/
structure AckTracker where
  /-- One past what the notifier delivered, in a mirror that notifies. -/
  notify : Option Nat
  /-- One past what each destination accepted. -/
  destinations : List (String × Nat)

/-- The offset to commit, zero while nothing was delivered. -/
def AckTracker.commitOffset (tracker : AckTracker) : Nat :=
  match tracker.notify with
  | some notified => notified
  | none => ((tracker.destinations.map (·.2)).max?).getD 0

/-- Take note of how far the notifier delivered; a lower value changes nothing. -/
def AckTracker.noteThrough (tracker : AckTracker) (through : Nat) : AckTracker :=
  { tracker with notify := tracker.notify.map (max · through) }

/-- How far the notifier delivered is all that a tracker with a notifier offers to commit. -/
theorem AckTracker.commitOffset_foldl (destinations : List (String × Nat)) (noted : List Nat)
    (through : Nat) :
    (noted.foldl noteThrough ⟨some through, destinations⟩).commitOffset = noted.foldl max through := by
  induction noted generalizing through with
  | nil => rfl
  | cons next noted ih => exact ih (max through next)

/-- What is offered to commit, if anything is, was noted. -/
theorem AckTracker.mem_of_commitOffset {destinations : List (String × Nat)} {noted : List Nat}
    (some_ : (noted.foldl noteThrough ⟨some 0, destinations⟩).commitOffset ≠ 0) :
    (noted.foldl noteThrough ⟨some 0, destinations⟩).commitOffset ∈ noted := by
  rw [commitOffset_foldl] at some_ ⊢
  -- The greatest of the values and zero is one of them, and it is not zero.
  have among : ∀ (noted : List Nat) through,
      noted.foldl max through = through ∨ noted.foldl max through ∈ noted := by
    intro noted
    induction noted with
    | nil => exact fun _ => .inl rfl
    | cons next noted ih =>
      intro through
      rw [List.foldl_cons]
      rcases ih (max through next) with same | mem
      · rw [same]
        rcases Nat.le_total through next with up | down
        · exact .inr (by rw [Nat.max_eq_right up]; exact .head _)
        · exact .inl (Nat.max_eq_left down)
      · exact .inr (.tail _ mem)
  exact (among noted 0).resolve_left some_

/-- How long an offset that stays the same may go without a commit, in milliseconds. -/
def commitRefreshInterval : Nat := 3600000

namespace KafkaCommitHandle

/-- The consumer as a part of a handle. -/
def consumerPart : Part KafkaCommitHandle Consumer :=
  ⟨consumer, fun consumer h => { h with consumer }⟩

/-- Stage an offset to commit, guarded against going back. -/
def stageOffset (through : Nat) : Program SourceError KafkaCommitHandle Unit := do
  let prev := (← get).lastStoredOffset
  modify fun h => { h with lastStoredOffset := max prev through }
  if through ≤ prev then pure ()
  else do
    focus consumerPart (fun e => .transport s!"tpl add: {e}") Consumer.request
    focus consumerPart (fun e => .transport s!"store_offsets: {e}") (Consumer.storeOffsets through)

/-- Stage an offset through the source or one of its handles. -/
def commitThrough (through : Nat) : Program SourceError KafkaCommitHandle Unit :=
  stageOffset through

/-- Have what is staged committed, now or at the latest before the answer. -/
def commitPending (mode : String) : Program SourceError KafkaCommitHandle Unit :=
  focus consumerPart (fun e => .transport s!"{mode}: {e}") Consumer.commitConsumerState

/-- The offset that is staged, zero while none is. -/
def stagedOffset (h : KafkaCommitHandle) : Nat := h.consumer.staged.getD 0

end KafkaCommitHandle

open KafkaCommitHandle

/-- The task that commits from time to time what was acknowledged. -/
structure CommitTask where
  handle : KafkaCommitHandle
  /-- The offset that the task takes to be committed. -/
  lastCommitted : Nat

namespace CommitTask

/-- The handle as a part of the task. -/
def handlePart : Part CommitTask KafkaCommitHandle := ⟨handle, fun handle s => { s with handle }⟩

/-- A task over a consumer nothing was asked of yet. -/
def opened (answers : Stream' ConsumerAnswer) : CommitTask := ⟨⟨⟨none, none, answers⟩, 0⟩, 0⟩

/-- Whether the task has something to commit. -/
def commits (s : CommitTask) (off elapsed : Nat) : Bool :=
  off ≠ 0 ∧ ¬ (off = s.lastCommitted ∧ elapsed < commitRefreshInterval)

/-- Commit what is acknowledged at a tick; a call that failed is made again at a later tick. -/
def tick (tracker : AckTracker) (elapsed : Nat) : Program Empty CommitTask Unit := do
  let s ← get
  let off := tracker.commitOffset
  if s.commits off elapsed then do
    match ← attempt (focus handlePart id (commitThrough off)) with
    | .error _ => pure ()
    | .ok () =>
      match ← attempt (focus handlePart id (commitPending "commit_consumer_state")) with
      | .error _ => pure ()
      | .ok () => modify ({ · with lastCommitted := off })
  else pure ()

/-- Commit once more when the mirror has ended, whatever comes of it. -/
def finalCommit (tracker : AckTracker) : Program Empty CommitTask Unit := do
  let off := tracker.commitOffset
  if off = 0 then pure ()
  else
    match ← attempt (focus handlePart id (commitThrough off)) with
    | .error _ => pure ()
    | .ok () => do
      let _ ← attempt (focus handlePart id (commitPending "commit_consumer_state sync"))

end CommitTask

/-- A call that stages an offset: through any holder, at a tick of the task, or at the end. -/
inductive CommitStep where
  | through (n : Nat)
  | tick (tracker : AckTracker) (elapsed : Nat)
  | final (tracker : AckTracker)

namespace CommitStep

/-- What the call leaves of the shared state and of the task. -/
def run : CommitStep → CommitTask → CommitTask
  | .through n, s => { s with handle := after (commitThrough n) s.handle }
  | .tick tracker elapsed, s => after (CommitTask.tick tracker elapsed) s
  | .final tracker, s => after (CommitTask.finalCommit tracker) s

/-- The offset it asks to be staged, if it asks for one. -/
def asks (s : CommitTask) : CommitStep → Option Nat
  | .through n => some n
  | .tick tracker elapsed =>
    if s.commits tracker.commitOffset elapsed then some tracker.commitOffset else none
  | .final tracker => if tracker.commitOffset = 0 then none else some tracker.commitOffset

/-- The staged offset does not go back, and whoever is told that one is staged has it staged. -/
structure Honest (step : CommitStep) (s : CommitTask) : Prop where
  monotone : s.handle.stagedOffset ≤ (step.run s).handle.stagedOffset
  told : ∀ n ∈ step.asks s, value? (commitThrough n s.handle) = some () →
    n ≤ (step.run s).handle.stagedOffset
  /-- What the task takes to be committed was staged. -/
  task : (step.run s).lastCommitted ≤ (step.run s).handle.stagedOffset

/-- An offset that was asked for before is not asked for again unless it was staged. -/
def Unrefused (step : CommitStep) (s : CommitTask) : Prop :=
  ∀ n ∈ step.asks s, n ≤ s.handle.lastStoredOffset → n ≤ s.handle.stagedOffset

end CommitStep

/-- Every call of a run is honest. -/
def HonestRun : List CommitStep → CommitTask → Prop
  | [], _ => True
  | step :: steps, s => step.Honest s ∧ HonestRun steps (step.run s)

/-- No call of a run asks again for what a call before it could not stage. -/
def UnrefusedRun : List CommitStep → CommitTask → Prop
  | [], _ => True
  | step :: steps, s => step.Unrefused s ∧ UnrefusedRun steps (step.run s)

namespace KafkaCommitHandle

/-- What a call that returned has done: nothing if the guard was there, else staged its offset. -/
inductive Returned (n : Nat) (h h' : KafkaCommitHandle) : Prop where
  | guarded (below : n ≤ h.lastStoredOffset) (same : h'.stagedOffset = h.stagedOffset)
      (guard : h'.lastStoredOffset = h.lastStoredOffset)
  | staged (above : h.lastStoredOffset < n) (reached : h'.stagedOffset = n)
      (guard : h'.lastStoredOffset = n)

/-- What a call that failed has done: the guard moved on, and what is staged did not. -/
structure Refused (n : Nat) (h h' : KafkaCommitHandle) : Prop where
  above : h.lastStoredOffset < n
  same : h'.stagedOffset = h.stagedOffset
  guard : h'.lastStoredOffset = n

/-- A request by itself stages nothing. -/
theorem request_spec (c : Consumer) :
    wp Consumer.request (fun _ c' => c'.staged = c.staged) (fun _ c' => c'.staged = c.staged) c := by
  simp only [Consumer.request, wp_bind, wp_get, wp_set]
  cases c.answers.head <;> exact rfl

/-- The guard moves before the offset is staged, so a failure leaves it ahead. -/
theorem commitThrough_spec (n : Nat) (h : KafkaCommitHandle) :
    wp (commitThrough n) (fun _ h' => Returned n h h') (fun _ h' => Refused n h h') h := by
  simp only [commitThrough, stageOffset, Consumer.storeOffsets, wp_bind, wp_get, wp_modify, wp_ite,
    wp_pure, wp_focus]
  split
  · rename_i below
    exact .guarded below rfl (Nat.max_eq_left below)
  · rename_i beyond
    have above : h.lastStoredOffset < n := by omega
    have guard : max h.lastStoredOffset n = n := Nat.max_eq_right (Nat.le_of_lt above)
    -- Two requests are made, and only after both is the offset there.
    refine wp_mono (request_spec h.consumer) (fun _ c same => ?_) (fun _ c same => ?_)
    · refine wp_mono (request_spec c) (fun _ c' _ => ?_) (fun _ c' same' => ?_)
      · exact .staged above rfl guard
      · exact ⟨above, congrArg (·.getD 0) (same'.trans same), guard⟩
    · exact ⟨above, congrArg (·.getD 0) same, guard⟩

/-- Committing moves neither what is staged nor the guard. -/
theorem commitPending_spec (mode : String) (h : KafkaCommitHandle) :
    wp (commitPending mode)
      (fun _ h' => h'.stagedOffset = h.stagedOffset ∧ h'.lastStoredOffset = h.lastStoredOffset)
      (fun _ h' => h'.stagedOffset = h.stagedOffset ∧ h'.lastStoredOffset = h.lastStoredOffset)
      h := by
  simp only [commitPending, Consumer.commitConsumerState, wp_bind, wp_focus, wp_modify]
  exact wp_mono (request_spec h.consumer) (fun _ c same => ⟨congrArg (·.getD 0) same, rfl⟩)
    (fun _ c same => ⟨congrArg (·.getD 0) same, rfl⟩)

/-- Only what is staged and the guard matter to what a call has done. -/
theorem Returned.congr {n : Nat} {h h' h'' : KafkaCommitHandle} (returned : Returned n h h')
    (staged : h''.stagedOffset = h'.stagedOffset)
    (guard : h''.lastStoredOffset = h'.lastStoredOffset) : Returned n h h'' := by
  cases returned with
  | guarded below same guard' => exact .guarded below (staged.trans same) (guard.trans guard')
  | staged above reached guard' => exact .staged above (staged.trans reached) (guard.trans guard')

end KafkaCommitHandle

namespace CommitStep

/-- What a call that asks for an offset leaves behind, and what its caller was told. -/
inductive Told (n : Nat) (s s' : CommitTask) : Prop where
  | returned (told : value? (commitThrough n s.handle) = some ())
      (moved : Returned n s.handle s'.handle)
      (task : s'.lastCommitted = s.lastCommitted ∨ s'.lastCommitted = n)
  | refused (told : value? (commitThrough n s.handle) = none)
      (moved : Refused n s.handle s'.handle) (task : s'.lastCommitted = s.lastCommitted)

/-- Both ends of a call through a holder are told. -/
theorem told_through (n : Nat) (s : CommitTask) :
    Told n s { s with handle := after (commitThrough n) s.handle } := by
  have spec := commitThrough_spec n s.handle
  cases outcome : commitThrough n s.handle with
  | ok a h' =>
    refine .returned (by rw [outcome]; rfl) ?_ (.inl rfl)
    simpa only [after, outcome] using wp_of_ok spec outcome
  | error e h' =>
    refine .refused (by rw [outcome]; rfl) ?_ rfl
    simpa only [after, outcome] using wp_of_error spec outcome

/-- Whoever asks through the task's handle is told, whatever is committed after that. -/
theorem told_asked {n : Nat} {s : CommitTask}
    {rest : Except SourceError Unit → Program Empty CommitTask Unit}
    (left : ∀ e, rest (.error e) = pure ())
    (noted : ∀ s₁, wp (rest (.ok ()))
      (fun _ s₂ => s₂.handle.stagedOffset = s₁.handle.stagedOffset
        ∧ s₂.handle.lastStoredOffset = s₁.handle.lastStoredOffset
        ∧ (s₂.lastCommitted = s₁.lastCommitted ∨ s₂.lastCommitted = n)) (fun _ _ => False) s₁) :
    wp (attempt (focus CommitTask.handlePart id (commitThrough n)) >>= rest)
      (fun _ s' => Told n s s') (fun _ _ => False) s := by
  simp only [wp_bind, wp_attempt, wp_focus]
  refine wp_intro (fun a h' returned => ?_) (fun e h' failed => ?_)
  · have returned : commitThrough n s.handle = .ok a h' := returned
    have moved := commitThrough_spec n s.handle
    simp only [wp, returned] at moved
    have told : value? (commitThrough n s.handle) = some () := by
      rw [returned]
      rfl
    refine wp_mono (noted _) ?_ (fun _ _ failed => failed)
    rintro _ s₂ ⟨same, guard, task⟩
    exact .returned told (moved.congr same guard) task
  · have failed : commitThrough n s.handle = .error e h' := failed
    have moved := commitThrough_spec n s.handle
    simp only [wp, failed] at moved
    rw [left]
    refine .refused ?_ moved rfl
    rw [failed]
    rfl

/-- A program of the task that cannot fail leaves behind what it ends with. -/
theorem after_of_total {program : Program Empty CommitTask Unit} {s : CommitTask}
    {holds : CommitTask → Prop} (ends : wp program (fun _ => holds) (fun _ _ => False) s) :
    holds (after program s) :=
  after_of_wp holds (wp_mono ends (fun _ _ held => held) fun e _ _ => e.elim)

/-- A call that asks for an offset is told what became of it. -/
theorem told_of_asks {step : CommitStep} {s : CommitTask} {n : Nat} (asked : step.asks s = some n) :
    Told n s (step.run s) := by
  cases step with
  | through m =>
    cases asked
    exact told_through _ s
  | tick tracker elapsed =>
    simp only [asks, Option.ite_none_right_eq_some, Option.some.injEq] at asked
    obtain ⟨due, rfl⟩ := asked
    apply after_of_total
    simp only [CommitTask.tick, wp_bind, wp_get, wp_ite, if_pos due]
    rw [← wp_bind]
    refine told_asked (fun _ => rfl) fun s₁ => ?_
    -- The task notes the offset only after the commit as well was answered.
    simp only [wp_bind, wp_attempt, wp_focus]
    exact wp_mono (commitPending_spec _ s₁.handle) (fun _ _ same => ⟨same.1, same.2, .inr rfl⟩)
      fun _ _ same => ⟨same.1, same.2, .inl rfl⟩
  | final tracker =>
    simp only [asks, Option.ite_none_left_eq_some, Option.some.injEq] at asked
    obtain ⟨delivered, rfl⟩ := asked
    apply after_of_total
    simp only [CommitTask.finalCommit, if_neg delivered]
    refine told_asked (fun _ => rfl) fun s₁ => ?_
    simp only [wp_bind, wp_attempt, wp_focus]
    exact wp_mono (commitPending_spec _ s₁.handle) (fun _ _ same => ⟨same.1, same.2, .inl rfl⟩)
      fun _ _ same => ⟨same.1, same.2, .inl rfl⟩

/-- A call that asks for nothing changes nothing. -/
theorem run_of_asks_none {step : CommitStep} {s : CommitTask} (asked : step.asks s = none) :
    step.run s = s := by
  cases step with
  | through n => cases asked
  | tick tracker elapsed =>
    simp only [asks, ite_eq_right_iff, reduceCtorEq, imp_false] at asked
    show after (CommitTask.tick tracker elapsed) s = s
    apply @after_of_total (CommitTask.tick tracker elapsed) s (· = s)
    simp only [CommitTask.tick, wp_bind, wp_get, wp_ite, if_neg asked, wp_pure]
  | final tracker =>
    simp only [asks, ite_eq_left_iff, reduceCtorEq, imp_false, Decidable.not_not] at asked
    show after (CommitTask.finalCommit tracker) s = s
    apply @after_of_total (CommitTask.finalCommit tracker) s (· = s)
    simp only [CommitTask.finalCommit, if_pos asked, wp_pure]

/-- The guard is never behind what is staged, nor what is staged behind what is noted. -/
structure Sound (s : CommitTask) : Prop where
  guard : s.handle.stagedOffset ≤ s.handle.lastStoredOffset
  noted : s.lastCommitted ≤ s.handle.stagedOffset

/-- A call is honest exactly when it does not ask again for what could not be staged. -/
theorem honest_iff {step : CommitStep} {s : CommitTask} (sound : Sound s) :
    step.Honest s ↔ step.Unrefused s := by
  have guard := sound.guard
  have noted := sound.noted
  constructor
  · intro honest n asked below
    have told := told_of_asks asked
    cases told with
    | returned told moved task =>
      have reached := honest.told n asked told
      cases moved with
      | guarded _ same _ => rwa [same] at reached
      | staged above _ _ => omega
    | refused _ moved _ =>
      have above := moved.above
      omega
  · intro unrefused
    cases asked : step.asks s with
    | none =>
      have same := run_of_asks_none asked
      refine ⟨Nat.le_of_eq (by rw [same]), fun n asked' => ?_, by rwa [same]⟩
      rw [asked] at asked'
      cases asked'
    | some n =>
      have unrefused := unrefused n asked
      cases told_of_asks asked with
      | returned told moved task =>
        cases moved with
        | guarded below same _ =>
          have staged := unrefused below
          refine ⟨by omega, fun m asked' _ => ?_, by omega⟩
          obtain rfl : n = m := Option.some.inj (asked.symm.trans asked')
          omega
        | staged above reached _ =>
          refine ⟨by omega, fun m asked' _ => ?_, by omega⟩
          obtain rfl : n = m := Option.some.inj (asked.symm.trans asked')
          omega
      | refused told moved task =>
        have same := moved.same
        refine ⟨by omega, fun m asked' told' => ?_, by omega⟩
        obtain rfl : n = m := Option.some.inj (asked.symm.trans asked')
        rw [told] at told'
        cases told'

/-- An honest call leaves the guard ahead of what is staged. -/
theorem sound_run {step : CommitStep} {s : CommitTask} (sound : Sound s) (honest : step.Honest s) :
    Sound (step.run s) := by
  refine ⟨?_, honest.task⟩
  have guard := sound.guard
  cases asked : step.asks s with
  | none => rwa [run_of_asks_none asked]
  | some n =>
    cases told_of_asks asked with
    | returned _ moved _ =>
      cases moved with
      | guarded _ same guard' => omega
      | staged _ reached guard' => omega
    | refused _ moved _ =>
      have := moved.above
      have := moved.same
      have := moved.guard
      omega

end CommitStep

/--
In a run of commits the staged offset never goes back, and whoever is told that an offset is staged
has it staged, exactly when no call asks again for an offset that could not be staged.
-/
theorem honestRun_iff (steps : List CommitStep) (answers : Stream' ConsumerAnswer) :
    HonestRun steps (CommitTask.opened answers) ↔ UnrefusedRun steps (CommitTask.opened answers) := by
  have whole : ∀ s, CommitStep.Sound s → (HonestRun steps s ↔ UnrefusedRun steps s) := by
    induction steps with
    | nil => exact fun _ _ => Iff.rfl
    | cons step steps ih =>
      intro s sound
      simp only [HonestRun, UnrefusedRun]
      rw [CommitStep.honest_iff sound]
      -- An honest call leaves a state the rest of the run can be judged from.
      exact and_congr_right fun unrefused =>
        ih _ (CommitStep.sound_run sound ((CommitStep.honest_iff sound).mpr unrefused))
  exact whole _ ⟨Nat.le_refl _, Nat.le_refl _⟩

namespace Sample

/-- The second time an offset is staged, the consumer's state is one it cannot be staged in. -/
def answers : Stream' ConsumerAnswer := fun i => if i = 4 then some "erroneous state" else none

/-- Two ticks with offset 7 acknowledged, after 5 was committed: the retry reports 7 committed. -/
theorem not_honestRun :
    let acked n : CommitStep := .tick ⟨some n, []⟩ 5000
    ¬ HonestRun [acked 5, acked 7, acked 7] (CommitTask.opened answers)
      ∧ ([acked 5, acked 7, acked 7].foldl (fun s step => step.run s)
          (CommitTask.opened answers)).lastCommitted = 7
      ∧ ([acked 5, acked 7, acked 7].foldl (fun s step => step.run s)
          (CommitTask.opened answers)).handle.stagedOffset = 5 := by
  refine ⟨?_, by decide, by decide⟩
  rintro ⟨-, -, honest, -⟩
  exact absurd honest.task (by decide)

end Sample

end MirrorV3
