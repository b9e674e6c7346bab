import MirrorV3.Bin.Registration
import MirrorV3.Lib.Steps
import MirrorV3.Resume.Reopened

/-! The tasks of a process, which reopens some mirrors and ends when others fail. -/

namespace MirrorV3

/-- A second, in the nanoseconds that durations are counted in. -/
def second : Nat := 1000000000

/-- The first wait before a mirror is opened again. -/
def restartBackoffMin : Nat := 1 * second

/-- The longest wait, and how long a run has to last for the waits to start over. -/
def restartBackoffMax : Nat := 60 * second

/-- Whether a failed mirror is restarted inside the process instead of ending it. -/
def restartsInProcess (mirror : Config.Mirror) : Bool :=
  !servesCache mirror && mirror.notify.isNone

/-- What a task of the process runs. -/
inductive Handle where
  | cacheHttp
  | mirror (m : Config.Mirror)
  deriving Repr, DecidableEq

namespace Handle

/-- Whether the task opens its mirror again. -/
def isSupervised : Handle → Bool
  | cacheHttp => false
  | mirror m => restartsInProcess m

end Handle

/-- Where a task stands. -/
inductive TaskPc where
  | running
  /-- A failed mirror waits to be opened again. -/
  | waiting
  | returned (result : Except RunError Unit)
  deriving Repr, DecidableEq

/-- A task of the process. -/
structure ProcessTask where
  handle : Handle
  pc : TaskPc
  backoff : Nat
  /-- How long each of the runs lasted that were not the last one. -/
  lasted : List Nat
  /-- How long was waited after each of them. -/
  waits : List Nat
  /-- The process has taken note of the result. -/
  joined : Bool
  deriving Repr, DecidableEq

namespace ProcessTask

/-- A task that was just spawned. -/
def spawn (handle : Handle) : ProcessTask := ⟨handle, .running, restartBackoffMin, [], [], false⟩

/-- A run ends: its result is the task's, unless the failure is one that a supervisor retries. -/
def ends (shutdown : Bool) (result : Except RunError Unit) (elapsed : Nat) (t : ProcessTask) :
    ProcessTask :=
  match result with
  | .ok () => { t with pc := .returned (.ok ()) }
  | .error e =>
    if !t.handle.isSupervised || shutdown || !e.isTransient then
      { t with pc := .returned (.error e) }
    else
      let backoff := if restartBackoffMax < elapsed then restartBackoffMin else t.backoff
      { t with
        pc := .waiting
        backoff
        lasted := t.lasted ++ [elapsed]
        waits := t.waits ++ [backoff] }

/-- The wait is over, and the next one will be twice as long. -/
def reopens (t : ProcessTask) : ProcessTask :=
  { t with pc := .running, backoff := min (t.backoff * 2) restartBackoffMax }

end ProcessTask

/-- Where the main task stands. -/
inductive MainPc where
  /-- These mirrors are still to be spawned, while the tasks before them run already. -/
  | spawning (left : List Config.Mirror)
  | waiting
  | ended (result : Except RunError Unit)
  deriving Repr, DecidableEq

/-- A process that mirrors. -/
structure Process where
  shutdown : Bool
  tasks : List ProcessTask
  main : MainPc
  deriving Repr, DecidableEq

/-- What happens next in a process. -/
inductive ProcessEvent where
  /-- SIGINT or SIGTERM asks for a graceful stop. -/
  | signal
  /-- The next mirror is spawned. -/
  | spawned
  /-- The next mirror, which the process runs itself, could not be opened. -/
  | spawnFails (e : RunError)
  /-- The run of a task ends. -/
  | returns (i : Nat) (result : Except RunError Unit) (elapsed : Nat)
  /-- A failed mirror has waited long enough. -/
  | slept (i : Nat)
  /-- A failed mirror sees the shutdown while it waits. -/
  | interrupted (i : Nat)
  /-- The main task takes note of a result. -/
  | joins (i : Nat)
  deriving Repr, DecidableEq

namespace Process

/-- The mirrors of a configuration that are to be spawned. -/
def enabled (cfg : Config) : List Config.Mirror := cfg.mirrors.filter Config.Mirror.isEnabled

/-- Whether any mirror has routes, for which a server is spawned. -/
def wantsHttpRoutes (cfg : Config) : Bool := (enabled cfg).any servesCache

/-- Every task that is to be spawned, in order. -/
def handles (cfg : Config) : List Handle :=
  (if wantsHttpRoutes cfg then [.cacheHttp] else []) ++ (enabled cfg).map .mirror

/-- Spawn the mirrors that are left, or wait for the tasks if none is. -/
def spawnNext : List Config.Mirror → MainPc
  | [] => .waiting
  | left => .spawning left

/-- A process that was started: all its mirrors are registered, and the server is spawned. -/
def start (reads : StartupReads) (tolerance : Nat) (cfg : Config) : Process :=
  match reads.registerEnabled tolerance cfg with
  | .error message => ⟨false, [], .ended (.error (.other message))⟩
  | .ok _ =>
    let server := if wantsHttpRoutes cfg then [ProcessTask.spawn .cacheHttp] else []
    ⟨false, server, spawnNext (enabled cfg)⟩

/-- Replace a task. -/
def put (i : Nat) (t : ProcessTask) (s : Process) : Process := { s with tasks := s.tasks.set i t }

/-- The first error ends the process; without one it ends once all its tasks have. -/
def join (i : Nat) (t : ProcessTask) (s : Process) : Except RunError Unit → Process
  | .error e => { s with main := .ended (.error e) }
  | .ok () =>
    let s := s.put i { t with joined := true }
    if s.tasks.all (·.joined) then { s with main := .ended (.ok ()) } else s

/-- The process has not ended. -/
def alive (s : Process) : Bool :=
  match s.main with
  | .ended _ => false
  | _ => true

/-- Do something with a task of a process that has not ended. -/
def atTask (i : Nat) (s : Process) (act : ProcessTask → Option Process) : Option Process :=
  if s.alive then s.tasks[i]?.bind act else none

/-- One step of a process, if it can happen. -/
def step (s : Process) : ProcessEvent → Option Process
  | .signal => if s.alive && !s.shutdown then some { s with shutdown := true } else none
  | .spawned =>
    match s.main with
    | .spawning (m :: left) =>
      some { s with tasks := s.tasks ++ [.spawn (.mirror m)], main := spawnNext left }
    | _ => none
  | .spawnFails e =>
    match s.main with
    | .spawning (m :: _) =>
      -- A supervised mirror is opened by its own task.
      if restartsInProcess m then none else some { s with main := .ended (.error e) }
    | _ => none
  | .returns i result elapsed =>
    s.atTask i fun t =>
      -- A mirror ends without an error only after the shutdown, which the server asks for itself.
      if t.pc = .running ∧ (result = .ok () → s.shutdown || t.handle == .cacheHttp) then
        some (put i (t.ends s.shutdown result elapsed)
          { s with shutdown := s.shutdown || t.handle == .cacheHttp })
      else none
  | .slept i => s.atTask i fun t => if t.pc = .waiting then some (s.put i t.reopens) else none
  | .interrupted i =>
    s.atTask i fun t =>
      if t.pc = .waiting ∧ s.shutdown then some (s.put i { t with pc := .returned (.ok ()) })
      else none
  | .joins i =>
    if s.main = .waiting then
      s.atTask i fun t =>
        match t.pc, t.joined with
        | .returned result, false => some (s.join i t result)
        | _, _ => none
    else none

/-- What a step does, once the conditions it has are known to hold. -/
inductive Taken (s : Process) : ProcessEvent → Process → Prop where
  | signal (calm : s.shutdown = false) : Taken s .signal { s with shutdown := true }
  | spawned {m : Config.Mirror} {left : List Config.Mirror}
    (next : s.main = .spawning (m :: left)) :
    Taken s .spawned
      { s with tasks := s.tasks ++ [.spawn (.mirror m)], main := spawnNext left }
  | spawnFails {m : Config.Mirror} {left : List Config.Mirror} {e : RunError}
    (next : s.main = .spawning (m :: left)) (own : restartsInProcess m = false) :
    Taken s (.spawnFails e) { s with main := .ended (.error e) }
  | returns {i : Nat} {t : ProcessTask} {result : Except RunError Unit} {elapsed : Nat}
    (there : s.tasks[i]? = some t) (runs : t.pc = .running)
    (graceful : result = .ok () → (s.shutdown || t.handle == .cacheHttp) = true) :
    Taken s (.returns i result elapsed)
      (put i (t.ends s.shutdown result elapsed)
        { s with shutdown := s.shutdown || t.handle == .cacheHttp })
  | slept {i : Nat} {t : ProcessTask} (there : s.tasks[i]? = some t) (waits : t.pc = .waiting) :
    Taken s (.slept i) (s.put i t.reopens)
  | interrupted {i : Nat} {t : ProcessTask} (there : s.tasks[i]? = some t)
    (waits : t.pc = .waiting) (stopping : s.shutdown = true) :
    Taken s (.interrupted i) (s.put i { t with pc := .returned (.ok ()) })
  | joins {i : Nat} {t : ProcessTask} {result : Except RunError Unit} (main : s.main = .waiting)
    (there : s.tasks[i]? = some t) (ended : t.pc = .returned result) (open_ : t.joined = false) :
    Taken s (.joins i) (s.join i t result)

variable {s s' : Process} {event : ProcessEvent}

/-- What is done with a task is done with one of a process that has not ended. -/
theorem of_atTask {i : Nat} {act : ProcessTask → Option Process} (done : s.atTask i act = some s') :
    s.alive = true ∧ ∃ t, s.tasks[i]? = some t ∧ act t = some s' := by
  unfold atTask at done
  split at done
  · rename_i alive
    exact ⟨alive, Option.bind_eq_some_iff.mp done⟩
  · cases done

/-- A step is taken under its conditions, by a process that has not ended. -/
theorem taken_of_step (step : s.step event = some s') : s.alive = true ∧ Taken s event s' := by
  -- Each event has its own conditions.
  cases event with
  | signal =>
    simp only [Process.step, Option.ite_none_right_eq_some, Bool.and_eq_true,
      Bool.not_eq_true', Option.some.injEq] at step
    obtain ⟨⟨alive, calm⟩, rfl⟩ := step
    exact ⟨alive, .signal calm⟩
  | spawned =>
    simp only [Process.step] at step
    split at step
    · rename_i next
      cases step
      exact ⟨by simp [alive, next], .spawned next⟩
    · cases step
  | spawnFails e =>
    simp only [Process.step] at step
    split at step
    · rename_i next
      simp only [Option.ite_none_left_eq_some, Bool.not_eq_true, Option.some.injEq] at step
      obtain ⟨own, rfl⟩ := step
      exact ⟨by simp [alive, next], .spawnFails next own⟩
    · cases step
  | returns i result elapsed =>
    obtain ⟨alive, t, there, acts⟩ := of_atTask step
    simp only [Option.ite_none_right_eq_some, Option.some.injEq] at acts
    obtain ⟨⟨runs, graceful⟩, rfl⟩ := acts
    exact ⟨alive, .returns there runs graceful⟩
  | slept i =>
    obtain ⟨alive, t, there, acts⟩ := of_atTask step
    simp only [Option.ite_none_right_eq_some, Option.some.injEq] at acts
    obtain ⟨waits, rfl⟩ := acts
    exact ⟨alive, .slept there waits⟩
  | interrupted i =>
    obtain ⟨alive, t, there, acts⟩ := of_atTask step
    simp only [Option.ite_none_right_eq_some, Option.some.injEq] at acts
    obtain ⟨⟨waits, stopping⟩, rfl⟩ := acts
    exact ⟨alive, .interrupted there waits stopping⟩
  | joins i =>
    simp only [Process.step, Option.ite_none_right_eq_some] at step
    obtain ⟨main, joined⟩ := step
    obtain ⟨alive, t, there, acts⟩ := of_atTask joined
    split at acts
    · rename_i ended open_
      cases acts
      exact ⟨alive, .joins main there ended open_⟩
    · cases acts

end Process

end MirrorV3
