import MirrorV3.Envelope.Lines
import MirrorV3.Fs.Lost
import MirrorV3.Lib.Erasure

/-! The daily trigger: which records one object may take up, and where the next boundary lies. -/

namespace MirrorV3

open Effect MonadExcept

section Schedule

variable {target now t : Nat}

/-- The scheduled time is a boundary after the present, at most a day away. -/
theorem scheduleNextDaily_spec (day : target < 86400) (now : Nat) :
    now < scheduleNextDaily target now ∧ scheduleNextDaily target now ≤ now + 86400
      ∧ scheduleNextDaily target now % 86400 = target := by
  -- Today's boundary is still ahead, or tomorrow's is the first one ahead.
  rw [scheduleNextDaily]
  by_cases ahead : now < now / 86400 * 86400 + target
  · rw [if_pos ahead]
    omega
  · rw [if_neg ahead]
    omega

/-- A boundary after the present and at most a day away is the scheduled one. -/
theorem eq_scheduleNextDaily (day : target < 86400) (boundary : t % 86400 = target)
    (ahead : now < t) (near : t ≤ now + 86400) : t = scheduleNextDaily target now := by
  -- Two boundaries within the same day are the same.
  have scheduled := scheduleNextDaily_spec day now
  omega

/-- Advancing day by day from a boundary comes to the first boundary after the present. -/
theorem advanceDaily_spec (near : t ≤ now + 86400) :
    now < advanceDaily now t ∧ advanceDaily now t ≤ now + 86400
      ∧ advanceDaily now t % 86400 = t % 86400 := by
  -- Each turn of the loop adds a day to a boundary that has passed.
  induction t using advanceDaily.induct now with
  | case1 t ahead =>
    rw [advanceDaily, if_pos ahead]
    exact ⟨ahead, near, rfl⟩
  | case2 t passed ih =>
    rw [advanceDaily, if_neg passed]
    have later := ih (by omega)
    omega

end Schedule

/-- An object that was handed to the store, with the records its flush took up. -/
structure Put where
  trigger : FlushTrigger
  /-- The boundary that was scheduled when the object was put. -/
  boundary : Option Nat
  name : String
  bytes : Bytes
  /-- Whether the put returned; one that failed may have landed all the same. -/
  returned : Bool
  /-- The records the object holds. -/
  holds : List Record
  /-- The records accepted since the object before, each with the time its write found. -/
  took : List (Record × Nat)
  deriving Repr, DecidableEq

/-- The boundary of a daily flush that returned. -/
def Put.dailyBoundary (put : Put) : Option Nat :=
  if put.trigger = .daily ∧ put.returned = true then put.boundary else none

/-- A blob destination with notes of when its records arrived and of the objects it put. -/
structure Watched (σ : Type) where
  sink : BlobSink σ
  /-- The last reading of the wall clock. -/
  found : Nat
  /-- The records accepted since the last object, each with the time its write found. -/
  since : List (Record × Nat)
  /-- The objects handed to the store. -/
  puts : List Put

namespace Watched

/-- The sink as a part of what is watched. -/
def sinkPart (σ : Type) : Part (Watched σ) (BlobSink σ) := ⟨sink, fun sink w => { w with sink }⟩

/-- Begin to watch a sink that was opened at a time. -/
def start {σ : Type} (found : Nat) (sink : BlobSink σ) : Watched σ := ⟨sink, found, [], []⟩

section Programs

variable [EnvelopeLibraries] {σ : Type} [BlobStore σ]

/-- Run a program of the sink without taking notes. -/
def unnoted {α : Type} (program : Program SinkError (BlobSink σ) α) :
    Program SinkError (Watched σ) α :=
  focus (sinkPart σ) id program

/-- Read the wall clock and note the reading. -/
def now : Program SinkError (Watched σ) Nat := do
  let time ← unnoted BlobSink.now
  modify fun w => { w with found := time }
  pure time

/-- The object a flush hands to the store, which is none when its batch cannot be written. -/
def handed (trigger : FlushTrigger) (returned : Bool) (w : Watched σ) : List Put :=
  match w.sink.buffer.getLast?, w.sink.spec.encode w.sink.checked w.sink.batch with
  | some last, .ok bytes =>
    [{ trigger, boundary := w.sink.nextDailyUnix, name := w.sink.objectName last, bytes, returned,
       holds := w.sink.batch, took := w.since }]
  | _, _ => []

/-- Flush, and note the object that was put; a failed flush may have lost what it took. -/
def flushLocked (trigger : FlushTrigger) : Program SinkError (Watched σ) Unit := fun w =>
  match BlobSink.flushLocked trigger w.sink with
  | .ok _ sink =>
    .ok () { w with
      sink
      since := []
      puts := w.puts ++ handed trigger true w }
  | .error e sink =>
    .error e { w with
      sink
      since := if sink.buffer = [] then [] else w.since
      puts := w.puts ++ handed trigger false w }

/-- The daily tick, watched. -/
def tickDaily : Program SinkError (Watched σ) Unit := do
  match (← get).sink.nextDailyUnix with
  | none => pure ()
  | some next => do
    let now₁ ← now
    if now₁ < next then pure ()
    else do
      if (← get).sink.buffer ≠ [] then flushLocked .daily else pure ()
      let now₂ ← now
      modify fun w => { w with
        sink := { w.sink with nextDailyUnix := some (advanceDaily now₂ next) } }

/-- An explicit flush, watched. -/
def flushNow : Program SinkError (Watched σ) Unit := do
  if (← get).sink.buffer = [] then pure () else flushLocked .explicit

/-- The query of an idle poll, watched. -/
def nextExpectedOffset : Program SinkError (Watched σ) Nat := do
  tickDaily
  let asked ← unnoted BlobSink.instant
  if BlobSink.shouldFlush (← get).sink asked = some .maxTime then flushLocked .maxTime else pure ()
  let checkedAt ← unnoted BlobSink.instant
  let w ← get
  if w.sink.driftCheckInterval ≤ checkedAt - w.sink.lastDriftCheck then
    unnoted BlobSink.checkDrift
  else pure ()
  return (← get).sink.bufferedHead

/-- A write, watched: the record is noted with the last reading of the write's tick. -/
def write (record : Record) : Program SinkError (Watched σ) Unit := do
  tickDaily
  let w ← get
  ensure (w.sink.bufferedHead ≤ record.sourceOffset)
    (.unexpectedPosition w.sink.bufferedHead record.sourceOffset)
  match w.sink.spec.compaction with
  | some .log => do let _ ← ofExcept (BlobSink.compactionKey record); pure ()
  | none => pure ()
  let started ← unnoted BlobSink.instant
  modify fun w => { w with
    sink := w.sink.accepted record started
    since := w.since ++ [(record, w.found)] }
  let asked ← unnoted BlobSink.instant
  match BlobSink.shouldFlush (← get).sink asked with
  | some trigger => flushLocked trigger
  | none => pure ()

/-- Run a call, watched. -/
def call : BlobCall → Program SinkError (Watched σ) Unit
  | .write record => write record
  | .nextExpectedOffset => do
    let _ ← nextExpectedOffset
    pure ()
  | .flush => flushNow

/-- What is noted after calls that each return or fail. -/
def afterCalls (calls : List BlobCall) (w : Watched σ) : Watched σ :=
  calls.foldl (fun w next => after (call next) w) w

/-! ### The notes erased -/

omit [EnvelopeLibraries] [BlobStore σ] in
/-- A program that takes no notes is the sink's. -/
theorem erases_unnoted {α : Type} (program : Program SinkError (BlobSink σ) α) :
    Erases sink (unnoted program) program :=
  Erases.focus (sinkPart σ) (fun _ _ => rfl) program

omit [EnvelopeLibraries] [BlobStore σ] in
/-- Noting the reading does not change it. -/
theorem erases_now : Erases (σ := BlobSink σ) sink now BlobSink.now := by
  intro w
  rfl

/-- Noting an object does not change it. -/
theorem erases_flushLocked (trigger : FlushTrigger) :
    Erases (σ := BlobSink σ) sink (flushLocked trigger) (BlobSink.flushLocked trigger) := by
  -- The notes are taken once the flush has ended.
  intro w
  rw [flushLocked]
  cases BlobSink.flushLocked trigger w.sink <;> rfl

/-- Watched or not, the daily tick does the same to the sink. -/
theorem erases_tickDaily : Erases (σ := BlobSink σ) sink tickDaily BlobSink.tickDaily := by
  rw [tickDaily, BlobSink.tickDaily]
  refine .get_bind fun (w : Watched σ) => ?_
  cases w.sink.nextDailyUnix with
  | none => exact .pure ()
  | some next =>
    refine .bind erases_now fun now₁ => .ite (.pure ()) (.get_bind fun (w : Watched σ) => ?_)
    refine .guarded (erases_flushLocked .daily) fun _ => ?_
    exact .bind erases_now fun now₂ => .update fun _ => rfl

/-- Watched or not, an explicit flush does the same to the sink. -/
theorem erases_flushNow : Erases (σ := BlobSink σ) sink flushNow BlobSink.flushNow := by
  rw [flushNow, BlobSink.flushNow]
  exact .get_bind fun (w : Watched σ) => .ite (.pure ()) (erases_flushLocked .explicit)

/-- Watched or not, an idle poll does the same to the sink. -/
theorem erases_nextExpectedOffset :
    Erases (σ := BlobSink σ) sink nextExpectedOffset BlobSink.nextExpectedOffset := by
  rw [nextExpectedOffset, BlobSink.nextExpectedOffset]
  refine .bind (erases_tickDaily (σ := σ)) fun _ => ?_
  refine .bind (erases_unnoted _) fun asked => .get_bind fun (w : Watched σ) => ?_
  refine .guarded (erases_flushLocked .maxTime) fun _ => ?_
  refine .bind (erases_unnoted _) fun checkedAt => .get_bind fun (w : Watched σ) => ?_
  refine .guarded (erases_unnoted _) fun _ => ?_
  exact .get_bind fun (w : Watched σ) => .pure _

/-- Watched or not, a write does the same to the sink. -/
theorem erases_write (record : Record) :
    Erases (σ := BlobSink σ) sink (write record) (BlobSink.write record) := by
  rw [write, BlobSink.write]
  refine .bind (erases_tickDaily (σ := σ)) fun _ => .get_bind fun (w : Watched σ) => ?_
  refine .bind (.ensure _ _) fun _ => ?_
  -- Accepted, the record goes into the view and the buffer, and may trip a flush.
  have pushed : Erases (σ := BlobSink σ) sink (do
      let started ← unnoted BlobSink.instant
      modify fun w : Watched σ => { w with
        sink := w.sink.accepted record started
        since := w.since ++ [(record, w.found)] }
      let asked ← unnoted BlobSink.instant
      match BlobSink.shouldFlush (← get).sink asked with
      | some trigger => flushLocked trigger
      | none => pure ()) (do
      let started ← BlobSink.instant
      modify (BlobSink.accepted record started)
      let asked ← BlobSink.instant
      match BlobSink.shouldFlush (← get) asked with
      | some trigger => BlobSink.flushLocked trigger
      | none => pure ()) := by
    refine .bind (erases_unnoted _) fun started => .bind (.update fun _ => rfl) fun _ => ?_
    refine .bind (erases_unnoted _) fun asked => .get_bind fun (w : Watched σ) => ?_
    cases BlobSink.shouldFlush w.sink asked with
    | none => exact .pure ()
    | some trigger => exact erases_flushLocked trigger
  cases w.sink.spec.compaction with
  | none => exact pushed
  | some mode => exact .bind (.ofExcept _) fun _ => pushed

/-- Watched or not, a call does the same to the sink. -/
theorem erases_call (next : BlobCall) :
    Erases (σ := BlobSink σ) sink (call next) (BlobSink.call next) := by
  cases next with
  | write record => exact erases_write record
  | nextExpectedOffset => exact .bind erases_nextExpectedOffset fun _ => .pure ()
  | flush => exact erases_flushNow

/-- Watched or not, calls leave the same sink behind. -/
theorem sink_afterCalls (calls : List BlobCall) (w : Watched σ) :
    (afterCalls calls w).sink = BlobSink.afterCalls calls w.sink := by
  -- One call after the other, each leaves the same sink.
  induction calls generalizing w with
  | nil => rfl
  | cons next calls ih =>
    have same := (erases_call next).read_after w
    rw [afterCalls, List.foldl_cons, BlobSink.afterCalls, List.foldl_cons, ← same]
    exact ih (after (call next) w)

/-! ### What stays true from one boundary to the next -/

/-- The clock never goes back. -/
def NeverBack (clock : Stream' Nat) : Prop := ∀ n, clock.get n ≤ clock.get (n + 1)

/-- Two moments between which no daily boundary lies. -/
def SameDay (target a b : Nat) : Prop :=
  ∀ days, a < days * 86400 + target ↔ b < days * 86400 + target

omit [EnvelopeLibraries] [BlobStore σ] in
/-- Moments in the day before one boundary are not separated by any. -/
theorem sameDay_of_before {target boundary a b : Nat} (aligned : boundary % 86400 = target)
    (a_near : boundary ≤ a + 86400) (a_before : a < boundary) (b_near : boundary ≤ b + 86400)
    (b_before : b < boundary) : SameDay target a b := by
  -- A boundary that separates them would lie strictly inside the day.
  intro days
  omega

/-- What is true of an object that was handed to the store. -/
structure OneDay (σ : Type) [BlobStore σ] (spec : BlobSpec) (target : Nat) (put : Put) : Prop where
  /-- No boundary lies between the times at which two of its records were found. -/
  together : ∀ a ∈ put.took, ∀ b ∈ put.took, SameDay target a.2 b.2
  /-- In append mode it holds what it took up and nothing else. -/
  whole : spec.compaction = none → put.holds = put.took.map (·.1)
  /-- No flush is of an empty buffer. -/
  filled : put.took ≠ []
  /-- Its bytes are those of the records it holds, and they are what the store was handed. -/
  written : ∃ checked, spec.encode checked put.holds = .ok put.bytes
  stored : ∃ store : σ,
    (∃ store', BlobStore.putNew put.name put.bytes store = .ok () store') ↔ put.returned = true

/--
What holds of the notes while `next` is scheduled.

Daily flushes stand for boundaries before `upto`.
-/
structure Daily (spec : BlobSpec) (target next upto : Nat) (w : Watched σ) : Prop where
  setting : w.sink.spec = spec
  scheduled : w.sink.nextDailyUnix = some next
  aligned : next % 86400 = target
  near : next ≤ w.found + 86400
  forward : NeverBack w.sink.clocks.clock
  read : w.found ≤ w.sink.clocks.clock.head
  buffered : w.since.map (·.1) = w.sink.buffer
  stamped : ∀ r ∈ w.since, next ≤ r.2 + 86400 ∧ r.2 < next
  objects : ∀ put ∈ w.puts, OneDay σ spec target put
  ordered : (w.puts.filterMap Put.dailyBoundary).Pairwise (· < ·)
  past : ∀ boundary ∈ w.puts.filterMap Put.dailyBoundary, boundary < upto

variable {spec : BlobSpec} {target next upto : Nat} {w : Watched σ}

/-- What the notes are about does not depend on the store, the view or the other clock. -/
theorem Daily.congr {sink : BlobSink σ} (daily : Daily spec target next upto w)
    (setting : sink.spec = w.sink.spec) (scheduled : sink.nextDailyUnix = w.sink.nextDailyUnix)
    (clock : sink.clocks.clock = w.sink.clocks.clock) (buffer : sink.buffer = w.sink.buffer) :
    Daily spec target next upto { w with sink } where
  setting := setting.trans daily.setting
  scheduled := scheduled.trans daily.scheduled
  aligned := daily.aligned
  near := daily.near
  forward := clock ▸ daily.forward
  read := clock ▸ daily.read
  buffered := daily.buffered.trans buffer.symm
  stamped := daily.stamped
  objects := daily.objects
  ordered := daily.ordered
  past := daily.past

/-- A reading of the wall clock is noted, and is no earlier than the one before. -/
theorem Daily.now (daily : Daily spec target next upto w) :
    wp now (fun time w' => Daily spec target next upto w' ∧ w'.found = time
      ∧ w.found ≤ w'.found ∧ w'.since = w.since) (fun _ _ => False) w := by
  simp only [Watched.now, unnoted, wp_bind, wp_focus, BlobSink.now, wp_get, wp_set, wp_modify,
    wp_pure]
  have later : w.found ≤ w.sink.clocks.clock.head := daily.read
  refine ⟨?_, trivial, later, rfl⟩
  exact {
    setting := daily.setting
    scheduled := daily.scheduled
    aligned := daily.aligned
    near := Nat.le_trans daily.near (Nat.add_le_add_right later 86400)
    forward := fun n => daily.forward (n + 1)
    read := daily.forward 0
    buffered := daily.buffered
    stamped := daily.stamped
    objects := daily.objects
    ordered := daily.ordered
    past := daily.past }

/-- A reading of the process's clock is not noted. -/
theorem Daily.instant (daily : Daily spec target next upto w) :
    wp (unnoted BlobSink.instant) (fun _ w' => Daily spec target next upto w'
      ∧ w'.found = w.found) (fun _ _ => False) w := by
  simp only [unnoted, wp_focus, BlobSink.instant, wp_bind, wp_get, wp_set, wp_pure]
  exact ⟨daily.congr rfl rfl rfl rfl, rfl⟩

/-- What a flush hands to the store is of one day, and stands for no boundary but the scheduled one. -/
theorem Daily.handed {last : Record} (daily : Daily spec target next upto w)
    (trigger : FlushTrigger) (returned : Bool) (ends : w.sink.buffer.getLast? = some last)
    (answers : ∀ bytes, w.sink.spec.encode w.sink.checked w.sink.batch = .ok bytes →
      ((∃ store, BlobStore.putNew (w.sink.objectName last) bytes w.sink.store = .ok () store)
        ↔ returned = true)) :
    (∀ put ∈ handed trigger returned w, OneDay σ spec target put)
      ∧ ∀ boundary ∈ (handed trigger returned w).filterMap Put.dailyBoundary,
        trigger = .daily ∧ returned = true ∧ boundary = next := by
  -- What is handed over was found between the scheduled boundary and the one before it.
  have took : w.since ≠ [] := by
    intro nothing
    have empty : w.sink.buffer = [] := by rw [← daily.buffered, nothing, List.map_nil]
    simp [empty] at ends
  cases encoded : w.sink.spec.encode w.sink.checked w.sink.batch with
  | error e => simp [Watched.handed, ends, encoded]
  | ok bytes =>
    simp only [Watched.handed, ends, encoded, List.mem_singleton, forall_eq]
    refine ⟨{
      together := fun a memA b memB => ?_
      whole := fun append => ?_
      filled := took
      written := ?_
      stored := ⟨w.sink.store, answers bytes encoded⟩ }, fun boundary mem => ?_⟩
    · have stampA := daily.stamped a memA
      have stampB := daily.stamped b memB
      exact sameDay_of_before daily.aligned stampA.1 stampA.2 stampB.1 stampB.2
    · rw [BlobSink.batch_of_append (daily.setting ▸ append), daily.buffered]
    · have setting := daily.setting
      subst setting
      exact ⟨_, encoded⟩
    · -- A daily flush stands for the scheduled boundary, and any other flush for none.
      obtain ⟨put, new, stands⟩ := List.mem_filterMap.mp mem
      rw [List.mem_singleton.mp new, Put.dailyBoundary, daily.scheduled] at stands
      simp only [Option.ite_none_right_eq_some, Option.some.injEq] at stands
      exact ⟨stands.1.1, stands.1.2, stands.2.symm⟩

/-- A flush notes an object of one day, and a failed one leaves no record of another day behind. -/
theorem Daily.flush {trigger : FlushTrigger} {upto' : Nat}
    (daily : Daily spec target next upto w) (pending : w.sink.buffer ≠ []) (room : upto ≤ upto')
    (fits : trigger = .daily → upto ≤ next ∧ next < upto') :
    wp (flushLocked trigger) (fun _ w' => Daily spec target next upto' w' ∧ w'.since = []
      ∧ w'.found = w.found) (fun _ w' => Daily spec target next upto w') w := by
  obtain ⟨last, ends⟩ : ∃ last, w.sink.buffer.getLast? = some last :=
    ⟨_, List.getLast?_eq_some_getLast pending⟩
  have flushes := BlobSink.flushLocked_spec trigger ends
  rw [wp, flushLocked]
  cases outcome : BlobSink.flushLocked trigger w.sink with
  | ok done sink =>
    obtain ⟨bytes, store, encoded, put, rfl⟩ := wp_of_ok flushes outcome
    obtain ⟨objects, stands⟩ := daily.handed trigger true ends
      fun other same => by
        obtain rfl := Except.ok.inj (same.symm.trans encoded)
        exact ⟨fun _ => rfl, fun _ => ⟨store, put⟩⟩
    refine ⟨?_, rfl, rfl⟩
    exact {
      setting := daily.setting
      scheduled := daily.scheduled
      aligned := daily.aligned
      near := daily.near
      forward := daily.forward
      read := daily.read
      buffered := rfl
      stamped := by
        intro r mem
        exact absurd mem List.not_mem_nil
      objects := by
        intro put mem
        exact (List.mem_append.mp mem).elim (daily.objects put) (objects put)
      ordered := by
        rw [List.filterMap_append, List.pairwise_append]
        refine ⟨daily.ordered, ?_, fun earlier mem boundary new => ?_⟩
        · -- A flush notes one object at most.
          unfold Watched.handed
          split
          · exact List.pairwise_filterMap.mpr (List.pairwise_singleton _ _)
          · exact .nil
        · obtain ⟨atDay, -, rfl⟩ := stands boundary new
          exact Nat.lt_of_lt_of_le (daily.past earlier mem) (fits atDay).1
      past := by
        intro boundary mem
        rw [List.filterMap_append, List.mem_append] at mem
        rcases mem with earlier | new
        · exact Nat.lt_of_lt_of_le (daily.past boundary earlier) room
        · obtain ⟨atDay, -, rfl⟩ := stands boundary new
          exact (fits atDay).2 }
  | error e sink =>
    -- What a failed flush took is no longer noted, though its object may have landed.
    have failed := wp_of_error flushes outcome
    obtain ⟨objects, stands⟩ := daily.handed trigger false ends
      fun bytes encoded => by
        cases failed with
        | encoding refused => exact absurd (encoded.symm.trans refused) (by simp)
        | putting encoded' refused =>
          obtain rfl := Except.ok.inj (encoded.symm.trans encoded')
          simp [refused]
    have none_ : (Watched.handed trigger false w).filterMap Put.dailyBoundary = [] :=
      List.eq_nil_iff_forall_not_mem.mpr fun boundary mem => by
        have returned := (stands boundary mem).2.1
        simp at returned
    have left : (sink.buffer = w.sink.buffer ∨ sink.buffer = []) ∧ sink.spec = w.sink.spec
        ∧ sink.nextDailyUnix = w.sink.nextDailyUnix ∧ sink.clocks = w.sink.clocks := by
      cases failed with
      | encoding refused =>
        rcases w.sink.taken_eq with same | same <;> rw [same] <;> simp
      | putting encoded refused =>
        rcases w.sink.taken_eq with same | same <;> rw [same] <;> simp
    obtain ⟨buffer, setting, scheduled, clocks⟩ := left
    exact {
      setting := setting.trans daily.setting
      scheduled := scheduled.trans daily.scheduled
      aligned := daily.aligned
      near := daily.near
      forward := clocks ▸ daily.forward
      read := clocks ▸ daily.read
      buffered := by
        by_cases empty : sink.buffer = []
        · simp only [empty, if_true, List.map_nil]
        · simp only [if_neg empty, daily.buffered]
          exact (buffer.resolve_right empty).symm
      stamped := by
        intro r mem
        by_cases empty : sink.buffer = []
        · simp only [if_pos empty] at mem
          exact absurd mem List.not_mem_nil
        · simp only [if_neg empty] at mem
          exact daily.stamped r mem
      objects := by
        intro put mem
        exact (List.mem_append.mp mem).elim (daily.objects put) (objects put)
      ordered := by
        rw [List.filterMap_append, none_, List.append_nil]
        exact daily.ordered
      past := by
        rw [List.filterMap_append, none_, List.append_nil]
        exact daily.past }

/-- Past a boundary, with nothing noted since, the boundary computed day by day is the next one. -/
theorem Daily.advance (daily : Daily spec target next upto w) (emptied : w.since = [])
    (room : upto ≤ next + 1) (passed : next ≤ w.found) :
    Daily spec target (advanceDaily w.found next) (advanceDaily w.found next)
      { w with sink := { w.sink with nextDailyUnix := some (advanceDaily w.found next) } }
      ∧ w.found < advanceDaily w.found next := by
  -- With nothing buffered, only the boundaries that were passed matter.
  have advanced := advanceDaily_spec daily.near
  refine ⟨{
    setting := daily.setting
    scheduled := rfl
    aligned := advanced.2.2.trans daily.aligned
    near := advanced.2.1
    forward := daily.forward
    read := daily.read
    buffered := daily.buffered
    stamped := by
      intro r mem
      rw [emptied] at mem
      exact absurd mem List.not_mem_nil
    objects := daily.objects
    ordered := daily.ordered
    past := by
      intro boundary mem
      have before := daily.past boundary mem
      omega }, advanced.1⟩

/-- Nothing buffered, nothing noted. -/
theorem Daily.since_eq_nil (daily : Daily spec target next upto w) (empty : w.sink.buffer = []) :
    w.since = [] := by
  -- The notes list the buffer.
  have listed := daily.buffered
  rw [empty] at listed
  exact List.map_eq_nil_iff.mp listed

/-- After a tick the last reading lies before the scheduled boundary, at most a day before it. -/
theorem Daily.tick (daily : Daily spec target next next w) :
    wp tickDaily (fun _ w' => ∃ next', Daily spec target next' next' w' ∧ w'.found < next')
      (fun _ w' => Daily spec target next next w') w := by
  simp only [tickDaily, wp_bind, wp_get, daily.scheduled, wp_ite, wp_pure, wp_modify]
  refine wp_mono daily.now (fun now₁ w₁ ⟨daily₁, read₁, _, _⟩ => ?_)
    (fun _ _ never => never.elim)
  by_cases ahead : now₁ < next
  · rw [if_pos ahead]
    exact ⟨next, daily₁, read₁ ▸ ahead⟩
  · rw [if_neg ahead]
    -- The second reading is no earlier than the first, so the boundary has passed for it as well.
    have moved : ∀ (upto : Nat) (w₂ : Watched σ), Daily spec target next upto w₂ → w₂.since = [] →
        upto ≤ next + 1 → next ≤ w₂.found →
        wp Watched.now (fun now₂ w₃ => ∃ next', Daily spec target next' next'
          { w₃ with sink := { w₃.sink with nextDailyUnix := some (advanceDaily now₂ next) } }
          ∧ w₃.found < next') (fun _ w' => Daily spec target next next w') w₂ := by
      intro upto w₂ daily₂ emptied room passed
      refine wp_mono daily₂.now (fun now₂ w₃ ⟨daily₃, read₃, later, same⟩ => ?_)
        (fun _ _ never => never.elim)
      have passed₃ : next ≤ w₃.found := Nat.le_trans passed later
      rw [← read₃]
      exact ⟨_, daily₃.advance (same.trans emptied) room passed₃⟩
    have passed : next ≤ w₁.found := by omega
    by_cases pending : w₁.sink.buffer ≠ []
    · rw [if_pos pending]
      refine wp_mono (daily₁.flush pending (Nat.le_succ next) (fun _ => ⟨Nat.le_refl _, by omega⟩))
        (fun _ w₂ ⟨daily₂, emptied, found⟩ => ?_) (fun _ _ left => left)
      exact moved (next + 1) w₂ daily₂ emptied (Nat.le_refl _) (found ▸ passed)
    · rw [if_neg pending]
      exact moved next w₁ daily₁ (daily₁.since_eq_nil (not_not.mp pending)) (Nat.le_succ next) passed

/-- Between calls one boundary is scheduled, and no daily object stands for it yet. -/
def Kept (spec : BlobSpec) (target : Nat) (w : Watched σ) : Prop :=
  ∃ next, Daily spec target next next w

/-- A flush that is not the daily one leaves the schedule as it was. -/
theorem Daily.flushOther {trigger : FlushTrigger} (daily : Daily spec target next next w)
    (pending : w.sink.buffer ≠ []) (other : trigger ≠ .daily) :
    wp (flushLocked trigger) (fun _ w' => Daily spec target next next w')
      (fun _ w' => Kept spec target w') w := by
  refine wp_mono (daily.flush pending (Nat.le_refl next) fun same => absurd same other)
    (fun _ _ kept => kept.1) (fun _ _ left => ⟨next, left⟩)

omit [EnvelopeLibraries] [BlobStore σ] in
/-- No trigger but the schedule asks for a daily flush. -/
theorem ne_daily_of_shouldFlush {s : BlobSink σ} {asked : Nat} {trigger : FlushTrigger}
    (due : s.shouldFlush asked = some trigger) : trigger ≠ .daily := by
  -- Of the five triggers three are asked for by what is buffered.
  intro daily
  rw [daily, BlobSink.shouldFlush] at due
  repeat' split at due
  all_goals cases due

/-- An explicit flush leaves the schedule as it was. -/
theorem Kept.flushNow (kept : Kept spec target w) :
    wp flushNow (fun _ w' => Kept spec target w') (fun _ w' => Kept spec target w') w := by
  obtain ⟨next, daily⟩ := kept
  simp only [Watched.flushNow, wp_bind, wp_get, wp_ite, wp_pure]
  by_cases empty : w.sink.buffer = []
  · rw [if_pos empty]
    exact ⟨next, daily⟩
  · rw [if_neg empty]
    exact wp_mono (daily.flushOther empty (by decide)) (fun _ _ daily => ⟨next, daily⟩)
      (fun _ _ left => left)

/-- The drift check reads the directory and the process's clock. -/
theorem Daily.checkDrift (daily : Daily spec target next upto w) :
    wp (unnoted BlobSink.checkDrift) (fun _ w' => Daily spec target next upto w')
      (fun _ w' => Daily spec target next upto w') w := by
  simp only [unnoted, wp_focus, BlobSink.checkDrift, wp_bind, wp_get]
  -- However the listing ends, only the store is another.
  have listed : ∀ store, Daily spec target next upto
      { w with sink := BlobSink.storePart.set store w.sink } :=
    fun store => daily.congr rfl rfl rfl rfl
  refine wp_any (fun names store => ?_) (fun e store => listed store)
  split
  · exact listed store
  · split
    · exact listed store
    · simp only [wp_bind, wp_modify, BlobSink.instant, wp_get, wp_set, wp_pure]
      exact daily.congr rfl rfl rfl rfl

/-- An idle poll keeps one boundary scheduled. -/
theorem Kept.nextExpectedOffset (kept : Kept spec target w) :
    wp nextExpectedOffset (fun _ w' => Kept spec target w') (fun _ w' => Kept spec target w') w := by
  obtain ⟨next, daily⟩ := kept
  simp only [Watched.nextExpectedOffset, wp_bind, wp_get, wp_ite, wp_pure]
  refine wp_mono daily.tick (fun _ w₁ ⟨next, daily₁, _⟩ => ?_) (fun _ _ left => ⟨next, left⟩)
  refine wp_mono daily₁.instant (fun asked w₂ ⟨daily₂, _⟩ => ?_) (fun _ _ never => never.elim)
  -- After the flush that may be due comes the drift check that may be due.
  have checked : ∀ w₃ : Watched σ, Daily spec target next next w₃ →
      wp (unnoted BlobSink.instant) (fun checkedAt w₄ =>
        if w₄.sink.driftCheckInterval ≤ checkedAt - w₄.sink.lastDriftCheck then
          wp (unnoted BlobSink.checkDrift) (fun _ w' => Kept spec target w')
            (fun _ w' => Kept spec target w') w₄
        else Kept spec target w₄) (fun _ w' => Kept spec target w') w₃ := by
    intro w₃ daily₃
    refine wp_mono daily₃.instant (fun checkedAt w₄ ⟨daily₄, _⟩ => ?_) (fun _ _ never => never.elim)
    by_cases due : w₄.sink.driftCheckInterval ≤ checkedAt - w₄.sink.lastDriftCheck
    · rw [if_pos due]
      exact wp_mono daily₄.checkDrift (fun _ _ daily => ⟨next, daily⟩) (fun _ _ left => ⟨next, left⟩)
    · rw [if_neg due]
      exact ⟨next, daily₄⟩
  by_cases due : w₂.sink.shouldFlush asked = some .maxTime
  · rw [if_pos due]
    exact wp_mono (daily₂.flushOther (BlobSink.buffer_of_shouldFlush due) (by decide))
      (fun _ w₃ daily₃ => checked w₃ daily₃) (fun _ _ left => left)
  · rw [if_neg due]
    exact checked w₂ daily₂

/-- A record accepted after a tick belongs to the day before the scheduled boundary. -/
theorem Daily.accept (daily : Daily spec target next next w) (before : w.found < next)
    (record : Record) (started : Nat) :
    Daily spec target next next { w with
      sink := w.sink.accepted record started
      since := w.since ++ [(record, w.found)] } where
  setting := daily.setting
  scheduled := daily.scheduled
  aligned := daily.aligned
  near := daily.near
  forward := daily.forward
  read := daily.read
  buffered := by rw [List.map_append, daily.buffered]; rfl
  stamped := by
    intro r mem
    rcases List.mem_append.mp mem with earlier | new
    · exact daily.stamped r earlier
    · obtain rfl := List.mem_singleton.mp new
      exact ⟨daily.near, before⟩
  objects := daily.objects
  ordered := daily.ordered
  past := daily.past

/-- A write keeps one boundary scheduled. -/
theorem Kept.write {record : Record} (kept : Kept spec target w) :
    wp (write record) (fun _ w' => Kept spec target w') (fun _ w' => Kept spec target w') w := by
  obtain ⟨next, daily⟩ := kept
  simp only [Watched.write, wp_bind, wp_get, wp_ensure]
  refine wp_mono daily.tick ?_ (fun _ _ left => ⟨next, left⟩)
  rintro _ w₁ ⟨next, daily₁, before₁⟩
  by_cases above : w₁.sink.bufferedHead ≤ record.sourceOffset
  case neg =>
    rw [if_neg above]
    exact ⟨next, daily₁⟩
  rw [if_pos above]
  -- Accepted, the record is noted with the last reading, and may trip a flush.
  have pushed : wp (do
      let started ← unnoted BlobSink.instant
      modify fun w : Watched σ => { w with
        sink := w.sink.accepted record started
        since := w.since ++ [(record, w.found)] }
      let asked ← unnoted BlobSink.instant
      match BlobSink.shouldFlush (← get).sink asked with
      | some trigger => flushLocked trigger
      | none => pure ()) (fun _ w' => Kept spec target w') (fun _ w' => Kept spec target w') w₁ := by
    simp only [wp_bind, wp_modify, wp_get]
    refine wp_mono daily₁.instant ?_ (fun _ _ never => never.elim)
    rintro started w₂ ⟨daily₂, found⟩
    have accepted := daily₂.accept (found ▸ before₁) record started
    refine wp_mono accepted.instant ?_ (fun _ _ never => never.elim)
    rintro asked w₃ ⟨daily₃, _⟩
    cases due : w₃.sink.shouldFlush asked with
    | none => exact ⟨next, daily₃⟩
    | some trigger =>
      exact wp_mono (daily₃.flushOther (BlobSink.buffer_of_shouldFlush due)
        (ne_daily_of_shouldFlush due)) (fun _ _ daily => ⟨next, daily⟩) (fun _ _ left => left)
  cases w₁.sink.spec.compaction with
  | none => exact pushed
  | some mode =>
    simp only [wp_bind, wp_ofExcept]
    cases BlobSink.compactionKey record with
    | error e => exact ⟨next, daily₁⟩
    | ok key => exact pushed

/-- A call keeps one boundary scheduled, whether it returns or fails. -/
theorem Kept.call (kept : Kept spec target w) (next : BlobCall) :
    wp (call next) (fun _ w' => Kept spec target w') (fun _ w' => Kept spec target w') w := by
  cases next with
  | write record => exact kept.write
  | nextExpectedOffset =>
    simp only [Watched.call, wp_bind, wp_pure]
    exact kept.nextExpectedOffset
  | flush => exact kept.flushNow

/-- Calls keep one boundary scheduled. -/
theorem Kept.afterCalls (calls : List BlobCall) (kept : Kept spec target w) :
    Kept spec target (afterCalls calls w) := by
  induction calls generalizing w with
  | nil => exact kept
  | cons next calls ih =>
    rw [Watched.afterCalls, List.foldl_cons]
    exact ih (after_of_wp (Kept spec target) (kept.call next))

/-- What the daily trigger makes of the objects that were put. -/
structure OneDayEach (σ : Type) [BlobStore σ] (spec : BlobSpec) (target : Nat) (puts : List Put) :
    Prop where
  objects : ∀ put ∈ puts, OneDay σ spec target put
  /-- No boundary has two daily flushes. -/
  once : (puts.filterMap Put.dailyBoundary).Pairwise (· < ·)

/-- A sink is opened with the first boundary ahead scheduled and nothing noted. -/
theorem daily_start {store : σ} {chain : Chain} {snapshot : Option Bytes} {clocks : Clocks}
    {s : BlobSink σ} (built : BlobSink.new store spec chain snapshot clocks = .ok s)
    (daily : spec.flush.dailyAtUtcSeconds = some target) (day : target < 86400)
    (forward : NeverBack clocks.clock) : Kept spec target (start clocks.clock.head s) := by
  -- Nothing is noted yet, and the boundary that is scheduled is the next after the first reading.
  obtain ⟨checked, view, rfl⟩ := BlobSink.eq_of_new built
  obtain ⟨ahead, near, aligned⟩ := scheduleNextDaily_spec day clocks.clock.head
  exact ⟨scheduleNextDaily target clocks.clock.head, {
    setting := rfl
    scheduled := by rw [start, daily]; rfl
    aligned := aligned
    near := near
    forward := fun n => forward (n + 1)
    read := forward 0
    buffered := rfl
    stamped := by
      intro r mem
      exact absurd mem List.not_mem_nil
    objects := by
      intro put mem
      exact absurd mem List.not_mem_nil
    ordered := .nil
    past := by
      intro boundary mem
      exact absurd mem List.not_mem_nil }⟩

/--
No object takes up records from both sides of a daily boundary.

Whatever is called and however it ends, every boundary has at most one daily object, and a tick leaves
the first boundary after its last reading of the clock scheduled.
-/
theorem oneDayEach_afterCalls {store : σ} {chain : Chain} {snapshot : Option Bytes}
    {clocks : Clocks} {s : BlobSink σ}
    (built : BlobSink.new store spec chain snapshot clocks = .ok s)
    (daily : spec.flush.dailyAtUtcSeconds = some target) (day : target < 86400)
    (forward : NeverBack clocks.clock) (calls : List BlobCall) :
    let w := afterCalls calls (start clocks.clock.head s)
    w.sink = BlobSink.afterCalls calls s
      ∧ OneDayEach σ spec target w.puts
      ∧ ∀ w', tickDaily w = .ok () w' → BlobSink.tickDaily w.sink = .ok () w'.sink
        ∧ w'.sink.nextDailyUnix = some (scheduleNextDaily target w'.found) := by
  intro w
  obtain ⟨next, kept⟩ : Kept spec target w := (daily_start built daily day forward).afterCalls calls
  refine ⟨sink_afterCalls calls _, ?_, fun w' ticked => ?_⟩
  · exact ⟨kept.objects, kept.ordered⟩
  · -- The scheduled boundary lies within a day after the last reading, as only one does.
    obtain ⟨next', kept', ahead⟩ := wp_of_ok kept.tick ticked
    have same := erases_tickDaily w
    rw [ticked] at same
    refine ⟨same.symm, ?_⟩
    rw [kept'.scheduled, eq_scheduleNextDaily day kept'.aligned ahead kept'.near]

end Programs

end Watched

namespace DailySample

open Watched

/-- Libraries for records in lines. -/
scoped instance libraries : EnvelopeLibraries where
  toBase64 := Ndjson.Plain.base64
  toSerdeJson := Ndjson.Plain.serdeJson
  toPayloadParsers := Ndjson.Plain.payloadParsers
  write _ _ _ := .error "not a sample"
  read _ _ := .error "not a sample"

/-- A record with a key and an empty value. -/
def keyed (offset : Nat) (key : UInt8) : Record :=
  { Sample.record offset with key := some [key], value := some [] }

/-- Objects of at most three records, and one daily flush at midnight. -/
def spec (compaction : Option CompactionMode) : BlobSpec :=
  ⟨.ndjson, .zstd1, .utf8, .utf8, compaction, ⟨1000, 1000, 3, some 0⟩, none⟩

/-- Clocks whose every reading is half a day after the one before. -/
def clocks : Clocks := ⟨fun n => n * 43200, fun _ => 0⟩

/-- A destination as it is opened on an empty directory. -/
def sink (compaction : Option CompactionMode) : BlobSink ObjectStore :=
  (BlobSink.new ⟨[], fun _ => ⟨none, false⟩⟩ (spec compaction) ⟨0, none, []⟩ none
    clocks).toOption.getD (Sample.blobAt compaction 0)

/-- A write before midnight and one after it. -/
def calls : List BlobCall := [.write (keyed 0 97), .write (keyed 1 98), .flush]

/-- A record found after midnight goes into an object of its own. -/
theorem oneDayEach_midnight :
    ((afterCalls calls (start 0 (sink none))).puts.map fun put => (put.trigger, put.holds, put.took))
        = [(.daily, [keyed 0 97], [(keyed 0 97, 43200)]),
          (.explicit, [keyed 1 98], [(keyed 1 98, 129600)])]
      ∧ OneDayEach ObjectStore (spec none) 0 (afterCalls calls (start 0 (sink none))).puts := by
  have built : BlobSink.new ⟨[], fun _ => ⟨none, false⟩⟩ (spec none) ⟨0, none, []⟩ none clocks
      = .ok (sink none) := rfl
  have forward : NeverBack clocks.clock := by
    intro n
    exact Nat.mul_le_mul_right 43200 (Nat.le_succ n)
  exact ⟨by decide +kernel, (oneDayEach_afterCalls built rfl (by decide) forward calls).2.1⟩

/--
A snapshot straddles the boundaries that lie between its records.

The second object of a compacted destination holds a record found before midnight and one found after.
-/
theorem snapshot_straddles :
    ∃ before ∈ (afterCalls calls (start 0 (sink (some .log)))).puts,
      ∃ put ∈ (afterCalls calls (start 0 (sink (some .log)))).puts,
        (keyed 0 97, 43200) ∈ before.took ∧ (keyed 1 98, 129600) ∈ put.took
          ∧ keyed 0 97 ∈ put.holds ∧ keyed 1 98 ∈ put.holds ∧ ¬ SameDay 0 43200 129600 := by
  -- The write after midnight begins with a daily flush, and what it accepts is flushed at the end.
  have puts : (afterCalls calls (start 0 (sink (some .log)))).puts.map
      (fun put => (put.holds, put.took))
        = [([keyed 0 97], [(keyed 0 97, 43200)]),
          ([keyed 0 97, keyed 1 98], [(keyed 1 98, 129600)])] := by
    decide +kernel
  have apart : ¬ SameDay 0 43200 129600 := by
    intro same
    have midnight := same 1
    omega
  obtain ⟨before, memBefore, sameBefore⟩ := List.mem_map.mp (puts ▸ List.mem_cons_self)
  obtain ⟨put, mem, same⟩ := List.mem_map.mp (puts ▸ List.mem_cons_of_mem _ List.mem_cons_self)
  obtain ⟨-, tookBefore⟩ := Prod.mk.inj sameBefore
  obtain ⟨holds, took⟩ := Prod.mk.inj same
  refine ⟨before, memBefore, put, mem, ?_⟩
  rw [tookBefore, took, holds]
  exact ⟨by simp, by simp, by simp, by simp, apart⟩

end DailySample

end MirrorV3
