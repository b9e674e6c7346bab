import MirrorV3.Bin.Process
import MirrorV3.Core.RunLoop

/-! Which failures end a process, when it opens a mirror again, and that it ends when asked to. -/

namespace MirrorV3

open Effect

namespace Mirror

variable {S K N : Type} [Source S] [Sink K] [Notifier N]

end Mirror

section Pacing

/-- How many runs in a row, up to the last one, were short and came after another one. -/
def shortRuns (lasted : List Nat) : Nat :=
  lasted.tail.foldl (fun n elapsed => if restartBackoffMax < elapsed then 0 else n + 1) 0

/-- The documented wait after such runs: it doubles from the least one up to the longest one. -/
def pace (lasted : List Nat) : Nat :=
  min (2 ^ shortRuns lasted * restartBackoffMin) restartBackoffMax

/-- The documented waits between runs that lasted this long. -/
def paces (lasted : List Nat) : List Nat :=
  (List.range lasted.length).map fun n => pace (lasted.take (n + 1))

/-- One more run is waited after as the runs up to it say. -/
theorem paces_concat (lasted : List Nat) (elapsed : Nat) :
    paces (lasted ++ [elapsed]) = paces lasted ++ [pace (lasted ++ [elapsed])] := by
  -- The waits before only look at the runs before.
  have before : ∀ n ∈ List.range lasted.length,
      pace ((lasted ++ [elapsed]).take (n + 1)) = pace (lasted.take (n + 1)) := by
    intro n mem
    have below := List.mem_range.mp mem
    rw [List.take_append_of_le_length (by omega)]
  rw [paces, List.length_append, List.length_singleton, List.range_succ, List.map_append,
    List.map_congr_left before, List.map_singleton,
    List.take_of_length_le (by simp : (lasted ++ [elapsed]).length ≤ lasted.length + 1)]
  rfl

/-- A long run lets the waits start over, and a short one doubles the wait before it. -/
theorem pace_concat (lasted : List Nat) (elapsed : Nat) :
    pace (lasted ++ [elapsed])
      = if restartBackoffMax < elapsed then restartBackoffMin
        else if lasted = [] then restartBackoffMin
        else min (pace lasted * 2) restartBackoffMax := by
  cases lasted with
  | nil =>
    -- The first wait is the least one, however long the run was.
    simp [pace, shortRuns]
    decide
  | cons first lasted =>
    rw [if_neg (List.cons_ne_nil _ _)]
    simp only [pace, shortRuns, List.cons_append, List.tail_cons, List.foldl_append,
      List.foldl_cons, List.foldl_nil]
    by_cases long : restartBackoffMax < elapsed
    · simp only [if_pos long]
      decide
    · simp only [if_neg long, Nat.pow_succ]
      -- The cap that was in the wait before makes no difference to its double.
      rw [Nat.mul_right_comm]
      omega

end Pacing

namespace ProcessTask

/-- What is true of a task of a process that was asked to stop or was not. -/
structure Regular (shutdown : Bool) (t : ProcessTask) : Prop where
  paced : t.waits = paces t.lasted
  supervised : t.lasted ≠ [] → t.handle.isSupervised = true
  /-- The next wait is known from the runs so far. -/
  backoff :
    match t.pc with
    | .running => t.backoff
        = if t.lasted = [] then restartBackoffMin else min (pace t.lasted * 2) restartBackoffMax
    | .waiting => t.lasted ≠ [] ∧ t.backoff = pace t.lasted
    | .returned _ => True
  stopped : t.pc = .returned (.ok ()) → shutdown = true
  failed : ∀ e, t.pc = .returned (.error e) → t.handle.isSupervised = true →
    shutdown = true ∨ e.isTransient = false
  joined : t.joined = true → t.pc = .returned (.ok ())

variable {shutdown : Bool} {t : ProcessTask}

/-- It is true of a task that was just spawned. -/
theorem regular_spawn (shutdown : Bool) (handle : Handle) : (spawn handle).Regular shutdown := by
  constructor <;> simp [spawn, paces]

/-- A task does not mind that its process is asked to stop. -/
theorem Regular.stops {stopping : Bool} (regular : t.Regular shutdown)
    (keeps : shutdown = true → stopping = true) : t.Regular stopping where
  paced := regular.paced
  supervised := regular.supervised
  backoff := regular.backoff
  stopped ended := keeps (regular.stopped ended)
  failed e ended supervised := (regular.failed e ended supervised).imp_left keeps
  joined := regular.joined

/-- A task that is still at work was not taken note of. -/
theorem Regular.not_joined (regular : t.Regular shutdown)
    (works : t.pc ≠ .returned (.ok ())) : t.joined = false := by
  cases joined : t.joined with
  | false => rfl
  | true => exact absurd (regular.joined joined) works

/-- A run that ends leaves the result behind, or a wait that the runs so far give. -/
theorem Regular.ends {result : Except RunError Unit} {elapsed : Nat}
    (regular : t.Regular shutdown) (runs : t.pc = .running)
    (graceful : result = .ok () → (shutdown || t.handle == .cacheHttp) = true) :
    (t.ends shutdown result elapsed).Regular (shutdown || t.handle == .cacheHttp) := by
  -- A task that runs was not joined, and a flag that is set stays set.
  have open_ : t.joined = false := regular.not_joined (by simp [runs])
  have stops : shutdown = true → (shutdown || t.handle == .cacheHttp) = true := by
    intro stopping
    simp [stopping]
  cases result with
  | ok value =>
    exact ⟨regular.paced, regular.supervised, trivial, fun _ => graceful rfl,
      (fun e ended => by cases ended), (fun joined => by simp [ProcessTask.ends, open_] at joined)⟩
  | error e =>
    simp only [ProcessTask.ends]
    split
    · -- The failure is the result of the task.
      rename_i final
      refine ⟨regular.paced, regular.supervised, trivial, (fun ended => by cases ended), ?_,
        (fun joined => by simp [open_] at joined)⟩
      intro e' ended supervised
      cases ended
      simp only [supervised, Bool.not_true, Bool.false_or, Bool.or_eq_true,
        Bool.not_eq_true'] at final
      exact final.imp_left stops
    · -- The failure is retried after a wait.
      rename_i retried
      simp only [Bool.or_eq_true, Bool.not_eq_true', not_or, Bool.not_eq_false] at retried
      have next := pace_concat t.lasted elapsed
      have backoff : t.backoff = if t.lasted = [] then restartBackoffMin
          else min (pace t.lasted * 2) restartBackoffMax := by
        have := regular.backoff
        rwa [runs] at this
      rw [← backoff] at next
      refine ⟨?_, fun _ => retried.1.1, ⟨by simp, next.symm⟩, (fun ended => by cases ended),
        (fun e ended => by cases ended), (fun joined => by simp [open_] at joined)⟩
      simp only [paces_concat, regular.paced, next]

/-- A mirror that is opened again will wait for twice as long. -/
theorem Regular.reopens (regular : t.Regular shutdown) (waits : t.pc = .waiting) :
    t.reopens.Regular shutdown := by
  have open_ : t.joined = false := regular.not_joined (by simp [waits])
  have waited := regular.backoff
  rw [waits] at waited
  refine ⟨regular.paced, regular.supervised, ?_, (fun ended => by cases ended),
    (fun e ended => by cases ended), (fun joined => by simp [ProcessTask.reopens, open_] at joined)⟩
  simp [ProcessTask.reopens, waited.1, waited.2]

/-- A mirror that sees the shutdown while it waits ends without an error. -/
theorem Regular.interrupted (regular : t.Regular true) :
    Regular true { t with pc := .returned (.ok ()) } where
  paced := regular.paced
  supervised := regular.supervised
  backoff := trivial
  stopped _ := rfl
  failed e ended := by cases ended
  joined _ := rfl

/-- The steps a task can still take once its process is being stopped. -/
def stepsLeft (t : ProcessTask) : Nat :=
  match t.pc with
  | .waiting => 3
  | .running => 2
  | .returned _ => if t.joined then 0 else 1

/-- Once its process is being stopped, a run that ends leaves its result behind. -/
theorem pc_ends (result : Except RunError Unit) (elapsed : Nat) :
    (t.ends true result elapsed).pc = .returned result := by
  cases result with
  | ok value => rfl
  | error e => simp [ends]

end ProcessTask

namespace Process

variable {reads : StartupReads} {tolerance : Nat} {cfg : Config} {s s' : Process}
  {event : ProcessEvent}

/--
Why a process ended like this.

Without an error it was asked to stop, and every one of its tasks had ended without one. An error
is that of its startup, of a mirror of its own that could not be opened, or of a task; a supervised
mirror's is none that could be retried, unless the process was being stopped.
-/
def Outcome (reads : StartupReads) (tolerance : Nat) (cfg : Config) (s : Process) :
    Except RunError Unit → Prop
  | .ok () => s.shutdown = true ∧ s.tasks.map (·.handle) = handles cfg
      ∧ ∀ t ∈ s.tasks, t.pc = .returned (.ok ())
  | .error e => (∃ message, reads.registerEnabled tolerance cfg = .error message
        ∧ e = .other message)
      ∨ (∃ m left, s.tasks.map (·.handle) ++ (m :: left).map .mirror = handles cfg
        ∧ restartsInProcess m = false)
      ∨ ∃ t ∈ s.tasks, t.pc = .returned (.error e)
        ∧ (t.handle.isSupervised = true → s.shutdown = true ∨ e.isTransient = false)

/-- What is true of a process after any steps. -/
structure Regular (reads : StartupReads) (tolerance : Nat) (cfg : Config) (s : Process) : Prop where
  tasks : ∀ t ∈ s.tasks, t.Regular s.shutdown
  main :
    match s.main with
    | .spawning left => left ≠ [] ∧ s.tasks.map (·.handle) ++ left.map .mirror = handles cfg
    | .waiting => s.tasks.map (·.handle) = handles cfg ∧ ∃ t ∈ s.tasks, t.joined = false
    | .ended result => Outcome reads tolerance cfg s result

/-- Nothing has happened when a process starts, unless it could not be started. -/
theorem regular_start : (start reads tolerance cfg).Regular reads tolerance cfg := by
  unfold start
  cases registered : reads.registerEnabled tolerance cfg with
  | error message => exact ⟨(fun t mem => by cases mem), .inl ⟨message, registered, rfl⟩⟩
  | ok state =>
    -- A configuration without an enabled mirror is refused before.
    have some_ : enabled cfg ≠ [] := by
      intro none_
      have none_ : cfg.mirrors.filter Config.Mirror.isEnabled = [] := none_
      simp [StartupReads.registerEnabled, none_] at registered
    refine ⟨?_, ?_⟩
    · intro t mem
      dsimp only at mem
      split at mem
      · obtain rfl := List.mem_singleton.mp mem
        exact ProcessTask.regular_spawn _ _
      · cases mem
    · obtain ⟨m, left, mirrors⟩ := List.exists_cons_of_ne_nil some_
      simp only [mirrors, spawnNext]
      refine ⟨List.cons_ne_nil _ _, ?_⟩
      rw [handles, mirrors]
      split <;> rfl

/-- Replacing a task by one of the same handle leaves the handles as they are. -/
theorem map_handle_set {i : Nat} {t : ProcessTask} (t' : ProcessTask)
    (there : s.tasks[i]? = some t) (same : t'.handle = t.handle) :
    (s.tasks.set i t').map (·.handle) = s.tasks.map (·.handle) := by
  have here : (s.tasks.map (·.handle))[i]? = some t'.handle := by simp [there, same]
  obtain ⟨inside, handle⟩ := List.getElem?_eq_some_iff.mp here
  rw [List.map_set, ← handle, List.set_getElem_self]

/-- Replacing a task by a regular one that is not joined leaves a process regular. -/
theorem Regular.put {i : Nat} {t t' : ProcessTask} {stopping : Bool}
    (regular : s.Regular reads tolerance cfg) (alive : s.alive = true)
    (there : s.tasks[i]? = some t) (keeps : s.shutdown = true → stopping = true)
    (same : t'.handle = t.handle) (open_ : t'.joined = false) (replaced : t'.Regular stopping) :
    (put i t' { s with shutdown := stopping }).Regular reads tolerance cfg := by
  obtain ⟨tasks, main⟩ := regular
  refine ⟨?_, ?_⟩
  · intro other mem
    rcases List.mem_or_eq_of_mem_set mem with before | rfl
    · exact (tasks other before).stops keeps
    · exact replaced
  · simp only [Process.put, map_handle_set t' there same]
    cases here : s.main with
    | spawning left =>
      rw [here] at main
      exact main
    | waiting =>
      rw [here] at main
      -- The task itself is still to be joined.
      exact ⟨main.1, t', List.mem_set (List.getElem?_eq_some_iff.mp there).1 t', open_⟩
    | ended result =>
      rw [Process.alive, here] at alive
      cases alive

/-- Every step leaves a regular process regular. -/
theorem Regular.step (regular : s.Regular reads tolerance cfg) (taken : s.step event = some s') :
    s'.Regular reads tolerance cfg := by
  obtain ⟨alive, taken⟩ := taken_of_step taken
  have mine : ∀ {i : Nat} {t : ProcessTask}, s.tasks[i]? = some t → t.Regular s.shutdown := by
    intro i t there
    exact regular.tasks t (List.mem_of_getElem? there)
  cases taken with
  | signal calm =>
    refine ⟨fun t mem => (regular.tasks t mem).stops fun _ => rfl, ?_⟩
    have main := regular.main
    cases here : s.main with
    | spawning left =>
      rw [here] at main
      exact main
    | waiting =>
      rw [here] at main
      exact main
    | ended result =>
      rw [Process.alive, here] at alive
      cases alive
  | @spawned m left next =>
    have main := regular.main
    rw [next] at main
    refine ⟨?_, ?_⟩
    · intro t mem
      rcases List.mem_append.mp mem with before | last
      · exact regular.tasks t before
      · obtain rfl := List.mem_singleton.mp last
        exact ProcessTask.regular_spawn _ _
    · -- The handle has moved from the mirrors that are left to the tasks.
      have moved : (s.tasks ++ [ProcessTask.spawn (.mirror m)]).map (·.handle) ++ left.map .mirror
          = handles cfg := by
        rw [← main.2]
        simp [ProcessTask.spawn]
      cases left with
      | nil =>
        refine ⟨by simpa using moved, .spawn (.mirror m), ?_, rfl⟩
        exact List.mem_append_right _ (List.mem_singleton_self _)
      | cons m' left => exact ⟨List.cons_ne_nil _ _, moved⟩
  | @spawnFails m left e next own =>
    have main := regular.main
    rw [next] at main
    exact ⟨regular.tasks, .inr (.inl ⟨m, left, main.2, own⟩)⟩
  | @returns i t result elapsed there runs graceful =>
    have ends : (t.ends s.shutdown result elapsed).Regular (s.shutdown || t.handle == .cacheHttp) :=
      (mine there).ends runs graceful
    refine regular.put alive there (fun stopping => by simp [stopping]) ?_ ?_ ends
    · unfold ProcessTask.ends
      cases result with
      | ok value => rfl
      | error e =>
        dsimp only
        split <;> rfl
    · have open_ := (mine there).not_joined (by simp [runs])
      unfold ProcessTask.ends
      cases result with
      | ok value => exact open_
      | error e =>
        dsimp only
        split <;> exact open_
  | slept there waits =>
    exact regular.put alive there id rfl ((mine there).not_joined (by simp [waits]))
      ((mine there).reopens waits)
  | @interrupted i t there waits stopping =>
    have mine := mine there
    have open_ := mine.not_joined (by simp [waits])
    rw [stopping] at mine
    exact regular.put alive there id rfl open_ (by rw [stopping]; exact mine.interrupted)
  | @joins i t result main there ended open_ =>
    have waited := regular.main
    rw [main] at waited
    cases result with
    | error e =>
      exact ⟨regular.tasks, .inr (.inr ⟨t, List.mem_of_getElem? there, ended,
        (mine there).failed e ended⟩)⟩
    | ok value =>
      -- The task that is joined had ended without an error.
      have replaced : ({ t with joined := true } : ProcessTask).Regular s.shutdown :=
        { mine there with joined := fun _ => ended }
      have tasks : ∀ other ∈ s.tasks.set i { t with joined := true },
          other.Regular s.shutdown := by
        intro other mem
        rcases List.mem_or_eq_of_mem_set mem with before | rfl
        · exact regular.tasks other before
        · exact replaced
      have handles_ : (s.tasks.set i { t with joined := true }).map (·.handle) = handles cfg :=
        (map_handle_set { t with joined := true } there rfl).trans waited.1
      simp only [join]
      split
      · rename_i all
        have joined : ∀ other ∈ s.tasks.set i { t with joined := true },
            other.pc = .returned (.ok ()) :=
          fun other mem => (tasks other mem).joined (List.all_eq_true.mp all other mem)
        refine ⟨tasks, ?_, handles_, joined⟩
        exact (mine there).stopped ended
      · rename_i some_
        refine ⟨tasks, ?_⟩
        simp only [Process.put, main]
        refine ⟨handles_, ?_⟩
        simp only [Process.put, List.all_eq_true, not_forall] at some_
        obtain ⟨other, mem, left⟩ := some_
        exact ⟨other, mem, by simpa using left⟩

/--
A process ends without an error only after every task has, and no failure that could be retried of
a mirror that keeps nothing but its destinations ends it, unless it is being stopped. Only such
mirrors are opened again, after waits that double from one second to sixty and start over after a
run that lasted longer.
-/
theorem process_outcome {events : List ProcessEvent}
    (ran : Steps.run step (start reads tolerance cfg) events = some s) :
    (∀ result, s.main = .ended result → Outcome reads tolerance cfg s result)
      ∧ ∀ t ∈ s.tasks, t.waits = paces t.lasted
        ∧ (t.waits ≠ [] → t.handle.isSupervised = true) := by
  have regular : s.Regular reads tolerance cfg :=
    Steps.run_rule (Regular reads tolerance cfg) (fun _ _ _ taken kept => kept.step taken) ran
      regular_start
  refine ⟨fun result ended => ?_, fun t mem => ?_⟩
  · have main := regular.main
    rwa [ended] at main
  · obtain ⟨paced, supervised, -, -, -, -⟩ := regular.tasks t mem
    refine ⟨paced, fun waited => supervised fun none_ => waited ?_⟩
    rw [paced, none_]
    rfl

/-- The steps a process can still take once it is being stopped. -/
def stepsLeft (s : Process) : Nat :=
  match s.main with
  | .spawning left => 3 * left.length + (s.tasks.map ProcessTask.stepsLeft).sum
  | .waiting => (s.tasks.map ProcessTask.stepsLeft).sum
  | .ended _ => 0

/-- A process that is being stopped goes on being stopped. -/
theorem shutdown_step (taken : s.step event = some s') (stopping : s.shutdown = true) :
    s'.shutdown = true := by
  obtain ⟨-, taken⟩ := taken_of_step taken
  cases taken with
  | signal calm => rfl
  | returns there runs graceful => simp [put, stopping]
  | @joins i t result main there ended open_ =>
    cases result with
    | error e => exact stopping
    | ok value =>
      simp only [join]
      split <;> exact stopping
  | spawned next | spawnFails next own | slept there waits | interrupted there waits on =>
    exact stopping

/-- Every step of a process that is being stopped leaves it fewer steps. -/
theorem stepsLeft_step (taken : s.step event = some s') (stopping : s.shutdown = true) :
    s'.stepsLeft < s.stepsLeft := by
  obtain ⟨alive, taken⟩ := taken_of_step taken
  -- A task that has less to do is all that changes, unless a mirror is spawned.
  have worked : ∀ {i : Nat} {t t' : ProcessTask}, s.tasks[i]? = some t →
      t'.stepsLeft < t.stepsLeft → ∀ shutdown,
      (put i t' { s with shutdown }).stepsLeft < s.stepsLeft := by
    intro i t t' there less shutdown
    have sum := Steps.sum_map_set_lt there less
    unfold stepsLeft
    cases main : s.main with
    | spawning left =>
      simp only [Process.put]
      omega
    | waiting => exact sum
    | ended result =>
      rw [Process.alive, main] at alive
      cases alive
  cases taken with
  | signal calm =>
    rw [calm] at stopping
    cases stopping
  | @spawned m left next =>
    have one : (ProcessTask.spawn (.mirror m)).stepsLeft = 2 := rfl
    unfold stepsLeft
    cases left with
    | nil =>
      simp only [next, spawnNext, List.map_append, List.sum_append, List.map_singleton,
        List.sum_singleton, List.length_singleton, one]
      omega
    | cons m' left =>
      simp only [next, spawnNext, List.map_append, List.sum_append, List.map_singleton,
        List.sum_singleton, List.length_cons, one]
      omega
  | @spawnFails m left e next own => simp [stepsLeft, next]
  | @returns i t result elapsed there runs graceful =>
    refine worked there ?_ _
    rw [stopping, ProcessTask.stepsLeft, ProcessTask.pc_ends, ProcessTask.stepsLeft, runs]
    dsimp only
    split <;> omega
  | @slept i t there waits =>
    refine worked there ?_ s.shutdown
    rw [ProcessTask.stepsLeft, ProcessTask.stepsLeft, waits]
    simp [ProcessTask.reopens]
  | @interrupted i t there waits on =>
    refine worked there ?_ s.shutdown
    rw [ProcessTask.stepsLeft, ProcessTask.stepsLeft, waits]
    dsimp only
    split <;> omega
  | @joins i t result main there ended open_ =>
    have less : ({ t with joined := true } : ProcessTask).stepsLeft < t.stepsLeft := by
      simp [ProcessTask.stepsLeft, ended, open_]
    -- There was something to do, so an end of the process leaves less of it.
    have some_ := Nat.zero_lt_of_lt (Steps.sum_map_set_lt there less)
    cases result with
    | error e => simpa [join, stepsLeft, main] using some_
    | ok value =>
      simp only [join]
      split
      · simpa [stepsLeft, main] using some_
      · exact worked there less s.shutdown

/-- A process that is being stopped and has not ended can take a step. -/
theorem exists_step (regular : s.Regular reads tolerance cfg) (alive : s.alive = true)
    (stopping : s.shutdown = true) : ∃ event, (s.step event).isSome = true := by
  have main := regular.main
  cases here : s.main with
  | spawning left =>
    rw [here] at main
    obtain ⟨m, left, rfl⟩ := List.exists_cons_of_ne_nil main.1
    exact ⟨.spawned, by simp [step, here]⟩
  | waiting =>
    -- A task that was not joined yet can end, see the shutdown, or be joined.
    rw [here] at main
    obtain ⟨-, t, mem, open_⟩ := main
    obtain ⟨i, there⟩ := List.getElem?_of_mem mem
    cases pc : t.pc with
    | running =>
      exact ⟨.returns i (.ok ()) 0, by simp [step, atTask, alive, there, pc, stopping]⟩
    | waiting => exact ⟨.interrupted i, by simp [step, atTask, alive, there, pc, stopping]⟩
    | returned result =>
      exact ⟨.joins i, by simp [step, atTask, here, alive, there, pc, open_]⟩
  | ended result =>
    rw [Process.alive, here] at alive
    cases alive

/--
A process that is asked to stop ends: from then on it takes only so many steps, in whatever order
its tasks take them, and until it has ended it can take one.
-/
theorem shutdown_ends {before later : List ProcessEvent}
    (ran : Steps.run step (start reads tolerance cfg) before = some s)
    (stopping : s.shutdown = true) (goes : Steps.run step s later = some s') :
    later.length + s'.stepsLeft ≤ s.stepsLeft
      ∧ (s'.alive = true → ∃ event, (s'.step event).isSome = true) := by
  have kept : ∀ s event s', step s event = some s' →
      Regular reads tolerance cfg s → Regular reads tolerance cfg s' :=
    fun _ _ _ taken regular => regular.step taken
  have regular := Steps.run_rule _ kept goes (Steps.run_rule _ kept ran regular_start)
  have stopped : s'.shutdown = true := Steps.run_rule (fun s => s.shutdown = true)
    (fun _ _ _ taken on => shutdown_step taken on) goes stopping
  refine ⟨?_, fun alive => exists_step regular alive stopped⟩
  exact Steps.length_le_of_decreases (fun s => s.shutdown = true) stepsLeft
    (fun _ _ _ taken on => shutdown_step taken on)
    (fun _ _ _ taken on => stepsLeft_step taken on) goes stopping

end Process

namespace ProcessSample

open Process

/-- A mirror with a view, and one that has neither a view nor a notifier. -/
def both : Config :=
  ⟨[Sample.notifyAndServe, { Sample.notifyOnly with name := "copy", notify := none }]⟩

/-- The store of the second mirror cannot be reached. -/
def unreachable : Except RunError Unit := .error (.blob (.store "timed out"))

/-- Both are spawned, and the second one fails twice. -/
def failing : List ProcessEvent :=
  [.spawned, .spawned, .returns 2 unreachable 5, .slept 2, .returns 2 unreachable 5]

/-- The process is asked to stop while the second mirror waits, and all of it ends. -/
def stopping : List ProcessEvent :=
  [.interrupted 2, .returns 1 (.ok ()) 0, .returns 0 (.ok ()) 0, .joins 2, .joins 0, .joins 1]

/-- Nothing but the shutdown has ended the process. -/
theorem process_outcome_stopping : ∃ s,
    Steps.run step (start Sample.fourCommitted 0 both) (failing ++ .signal :: stopping) = some s
      ∧ s.main = .ended (.ok ()) ∧ s.tasks.map (·.handle) = handles both
      ∧ ∀ t ∈ s.tasks, t.pc = .returned (.ok ()) ∧ t.waits = paces t.lasted := by
  have ended : (Steps.run step (start Sample.fourCommitted 0 both)
      (failing ++ .signal :: stopping)).map (·.main) = some (.ended (.ok ())) := by decide +kernel
  obtain ⟨s, ran, main⟩ := Option.map_eq_some_iff.mp ended
  obtain ⟨outcome, paced⟩ := process_outcome ran
  obtain ⟨-, handles_, returned⟩ := outcome _ main
  exact ⟨s, ran, main, handles_, fun t mem => ⟨returned t mem, (paced t mem).1⟩⟩

/-- The six steps that were taken are no more than there were. -/
theorem shutdown_ends_stopping : ∃ s s',
    Steps.run step (start Sample.fourCommitted 0 both) (failing ++ [.signal]) = some s
      ∧ Steps.run step s stopping = some s' ∧ stopping.length + s'.stepsLeft ≤ s.stepsLeft := by
  have ended : (Steps.run step (start Sample.fourCommitted 0 both) (failing ++ [.signal])).map
      (fun s => (s.shutdown, (Steps.run step s stopping).isSome)) = some (true, true) := by
    decide +kernel
  obtain ⟨s, ran, shown⟩ := Option.map_eq_some_iff.mp ended
  obtain ⟨stopped, goes⟩ := Prod.mk.inj shown
  obtain ⟨s', goes⟩ := Option.isSome_iff_exists.mp goes
  exact ⟨s, s', ran, goes, (shutdown_ends ran stopped goes).1⟩

end ProcessSample

end MirrorV3
