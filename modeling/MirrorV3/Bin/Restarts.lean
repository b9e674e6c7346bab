import MirrorV3.Bin.Reread
import MirrorV3.Kafka.Commit

/-!
Runs of one process after the other: each registers its mirror with what the group committed, and what
it suppresses was delivered by a run before it.
-/

namespace MirrorV3

open Effect

variable {K : Type} [Sink K]

/-- One run of a process, from the registration of its mirror to wherever it ended. -/
structure ProcessRun (K : Type) [Sink K] where
  /-- The high watermark at the registration. -/
  bootstrapHwm : Nat
  /-- What the group had committed then. -/
  lastCommitted : Option Nat
  view : CacheBinding
  /-- The partition as it is read in this run. -/
  source : LogSource
  tee : TeeSink (K ⊕ NoDestinationSink)
  settings : NotifySettings
  watched : Bool
  now : Nat
  events : List RacingEvent
  ended : Racing LogSource (K ⊕ NoDestinationSink)
  registered : ∃ state isMain topic partition, view.state
    = CacheState.registerMirrorWithTopic state view.mirrorName bootstrapHwm lastCommitted isMain topic
        partition
  cached : tee.cache = some view
  fromLow : FromLow source.lowWatermark tee
  /-- The notifier asks the cache what it drops. -/
  suppresses : settings.suppressed = view.state.isRecordSuppressed view.mirrorName
  ran : Steps.run (Racing.step settings) (.start source tee watched now) events = some ended

namespace ProcessRun

/-- The records the notifier was handed. -/
def presented (run : ProcessRun K) : List Record := run.ended.tasks.handed

/-- The record was in a batch whose dispatch returned without an error. -/
def Delivered (run : ProcessRun K) (record : Record) : Prop :=
  ∃ flight ∈ run.ended.tasks.sent, record ∈ flight.records

/-- The offset that the run offers to commit once these acknowledgements were noted. -/
def commitOffset (destinations : List (String × Nat)) (noted : List Nat) : Nat :=
  (noted.foldl AckTracker.noteThrough ⟨some 0, destinations⟩).commitOffset

/-- What the group may have committed after a run: something the run offered, at any moment of it. -/
def MayCommit (run : ProcessRun K) (committed : Nat) : Prop :=
  ∃ destinations noted, noted <+: run.ended.tasks.acks ∧ commitOffset destinations noted = committed
    ∧ committed ≠ 0

/--
The partition in a later run, beside what an earlier one read of it.

Records are only added behind what was read, and those that are gone stay gone.
-/
structure Grown (earlier later : ProcessRun K) : Prop where
  low : earlier.source.lowWatermark ≤ later.source.lowWatermark
  kept : ∀ last ∈ earlier.presented, ∀ record ∈ later.source.log.records,
    record.sourceOffset ≤ last.sourceOffset → record ∈ earlier.source.log.records

/-- A run after these others, of a group that had `initial` committed before the first. -/
structure Follows (initial : Option Nat) (earlier : List (ProcessRun K)) (run : ProcessRun K) :
    Prop where
  commits : run.lastCommitted = initial
    ∨ ∃ other ∈ earlier, ∃ committed, run.lastCommitted = some committed ∧ other.MayCommit committed
  grown : ∀ other ∈ earlier, Grown other run

/-- Runs one after the other, the latest first. -/
def History (initial : Option Nat) : List (ProcessRun K) → Prop
  | [] => True
  | run :: earlier => Follows initial earlier run ∧ History initial earlier

/-- The offset below which a run suppresses. -/
def threshold (run : ProcessRun K) : Nat := run.lastCommitted.getD run.bootstrapHwm

variable {run : ProcessRun K} {record : Record}

/-- A run suppresses what is below the commit it found, or below the watermark if it found none. -/
theorem suppressed_eq (run : ProcessRun K) (offset : Nat) :
    run.settings.suppressed offset = decide (offset < run.threshold) := by
  obtain ⟨state, isMain, topic, partition, registered⟩ := run.registered
  rw [run.suppresses, registered, CacheState.registerMirrorWithTopic]
  cases isMain <;> exact CacheState.isRecordSuppressed_insertSlot

/-- What a run is handed is the first of what the source has from the low watermark on. -/
theorem presented_prefix (run : ProcessRun K) :
    ∃ reached, run.presented <+: run.source.log.between run.source.lowWatermark reached := by
  rcases (Racing.fed_of_run run.cached run.ran).leads with nothing | ⟨first, reached, resumes, -, behind⟩
  · exact ⟨0, by rw [presented, nothing]; exact List.nil_prefix⟩
  · obtain ⟨m, resumed⟩ := resumes
    have low := (wp_of_ok (bootstrap_caching run.cached run.fromLow NoOpNotifier.mk) resumed).1
    exact ⟨reached, low ▸ behind⟩

/-- Records are handed over in the order of their offsets. -/
theorem presented_ordered (run : ProcessRun K) : Tasks.InOffsetOrder run.presented := by
  obtain ⟨reached, first⟩ := run.presented_prefix
  exact (run.source.log.increasing.sublist List.filter_sublist).sublist first.sublist

/-- Everything retained up to a record that was handed over was handed over as well. -/
theorem presented_of_le (run : ProcessRun K) {last : Record} (reached : last ∈ run.presented)
    (listed : record ∈ run.source.log.records)
    (low : run.source.lowWatermark ≤ record.sourceOffset)
    (below : record.sourceOffset ≤ last.sourceOffset) : record ∈ run.presented := by
  obtain ⟨upTo, first⟩ := run.presented_prefix
  have inside := Log.mem_between.mp (first.subset reached)
  refine Window.mem_of_prefix (run.source.log.increasing.sublist List.filter_sublist) first reached
    ?_ below
  exact Log.mem_between.mpr ⟨listed, low, by omega⟩

/-- A run may have committed one past a record it was handed, with all it tells of below delivered. -/
theorem MayCommit.spec {committed : Nat} (may : run.MayCommit committed) :
    (∃ last ∈ run.presented, last.sourceOffset + 1 = committed)
      ∧ ∀ record ∈ run.presented, record.sourceOffset < committed → run.settings.Tells record →
        run.Delivered record := by
  obtain ⟨destinations, noted, first, rfl, some_⟩ := may
  obtain ⟨-, orderly⟩ := Racing.orderly_of_run run.ran
  have acked := first.subset (AckTracker.mem_of_commitOffset some_)
  exact ⟨orderly.handed_of_acked acked, fun record handed below tells =>
    orderly.sent_of_acked run.presented_ordered acked handed below tells⟩

/-- What a run suppresses by a commit of an earlier one was told of by that one, or suppressed too. -/
theorem Follows.told_before {initial : Option Nat} {earlier : List (ProcessRun K)}
    (follows : Follows initial earlier run) (handed : record ∈ run.presented)
    (keyed : record.utf8Key.isSome = true)
    (above : run.lastCommitted = initial → run.threshold ≤ record.sourceOffset)
    (dropped : run.settings.suppressed record.sourceOffset = true) :
    ∃ other ∈ earlier, record ∈ other.presented
      ∧ (other.Delivered record ∨ other.settings.suppressed record.sourceOffset = true) := by
  rw [suppressed_eq, decide_eq_true_eq] at dropped
  rcases follows.commits with same | ⟨other, mem, committed, found, may⟩
  · have := above same
    omega
  · obtain ⟨⟨last, reached, next⟩, delivered⟩ := may.spec
    have grown := follows.grown other mem
    have below : record.sourceOffset < committed := by
      rw [threshold, found] at dropped
      exact dropped
    -- The earlier run read past the record, so it was there and was handed over.
    obtain ⟨upTo, first⟩ := run.presented_prefix
    have listed := Log.mem_between.mp (first.subset handed)
    have kept := grown.kept last reached record listed.1 (by omega)
    have low := grown.low
    have before : record ∈ other.presented :=
      other.presented_of_le reached kept (by omega) (by omega)
    refine ⟨other, mem, before, ?_⟩
    cases drops : other.settings.suppressed record.sourceOffset with
    | false => exact .inl (delivered record before below ⟨drops, keyed⟩)
    | true => exact .inr rfl

/-- A record that some of the runs suppresses was delivered by one of them. -/
theorem History.delivered {initial : Option Nat} {runs : List (ProcessRun K)}
    (history : History initial runs) (keyed : record.utf8Key.isSome = true)
    (above : ∀ other ∈ runs, other.lastCommitted = initial → other.threshold ≤ record.sourceOffset)
    (mem : run ∈ runs) (handed : record ∈ run.presented)
    (dropped : run.settings.suppressed record.sourceOffset = true) :
    ∃ other ∈ runs, other.Delivered record := by
  -- The induction goes back from the latest run, from suppression to suppression.
  induction runs generalizing run with
  | nil => cases mem
  | cons latest earlier ih =>
    obtain ⟨follows, history⟩ := history
    have back : ∀ run ∈ earlier, record ∈ run.presented →
        run.settings.suppressed record.sourceOffset = true →
        ∃ other ∈ latest :: earlier, other.Delivered record := by
      intro run mem handed dropped
      obtain ⟨other, mem, delivered⟩ :=
        ih history (fun other mem => above other (.tail _ mem)) mem handed dropped
      exact ⟨other, .tail _ mem, delivered⟩
    rcases List.mem_cons.mp mem with rfl | mem
    · obtain ⟨other, mem, handed, delivered | dropped⟩ :=
        follows.told_before handed keyed (above _ (.head _)) dropped
      · exact ⟨other, .tail _ mem, delivered⟩
      · exact back other mem handed dropped
    · exact back run mem handed dropped

/-- A record that a run suppresses was delivered by a run before it. -/
theorem delivered_of_suppressed {initial : Option Nat} {earlier : List (ProcessRun K)}
    (history : History initial (run :: earlier)) (keyed : record.utf8Key.isSome = true)
    (above : ∀ other ∈ run :: earlier, other.lastCommitted = initial →
      other.threshold ≤ record.sourceOffset)
    (handed : record ∈ run.presented)
    (dropped : run.settings.suppressed record.sourceOffset = true) :
    ∃ other ∈ earlier, other.Delivered record := by
  obtain ⟨follows, history⟩ := history
  obtain ⟨other, mem, handed, delivered | dropped⟩ :=
    follows.told_before handed keyed (above _ (.head _)) dropped
  · exact ⟨other, mem, delivered⟩
  · exact history.delivered keyed (fun other mem => above other (.tail _ mem)) mem handed dropped

/--
Notify is at least once across the restarts of a group that had committed before the first run.

Whatever a run suppresses at or above that commit was delivered by a run before it, and every run
hands over all that is retained from its commit to the last record it handed over, also where the
destinations are past it.
-/
theorem returning_at_least_once {initial : Nat} {earlier : List (ProcessRun K)}
    (history : History (some initial) (run :: earlier)) :
    (∀ record ∈ run.presented, record.utf8Key.isSome = true → initial ≤ record.sourceOffset →
      run.settings.suppressed record.sourceOffset = true → ∃ other ∈ earlier, other.Delivered record)
    ∧ ∃ committed, run.lastCommitted = some committed
      ∧ ∀ last ∈ run.presented, ∀ record ∈ run.source.retained, committed ≤ record.sourceOffset →
        record.sourceOffset ≤ last.sourceOffset → record ∈ run.presented := by
  refine ⟨fun record handed keyed low dropped => ?_, ?_⟩
  · refine delivered_of_suppressed history keyed (fun other _ same => ?_) handed dropped
    rw [threshold, same]
    exact low
  · have found : ∃ committed, run.lastCommitted = some committed := by
      rcases history.1.commits with same | ⟨-, -, committed, found, -⟩
      · exact ⟨initial, same⟩
      · exact ⟨committed, found⟩
    obtain ⟨committed, found⟩ := found
    refine ⟨committed, found, fun last reached record retained _ below => ?_⟩
    obtain ⟨listed, low, -⟩ := Log.mem_between.mp retained
    exact run.presented_of_le reached listed low below

/--
No new record is lost to suppression across the restarts of a fresh group.

A record is new when it is at or above the watermark of every run that found nothing committed. If no
run has delivered it, the next run that is handed it does not suppress it.
-/
theorem fresh_not_suppressed {earlier : List (ProcessRun K)}
    (history : History none (run :: earlier)) (handed : record ∈ run.presented)
    (keyed : record.utf8Key.isSome = true)
    (new : ∀ other ∈ run :: earlier, other.lastCommitted = none →
      other.bootstrapHwm ≤ record.sourceOffset)
    (undelivered : ∀ other ∈ earlier, ¬ other.Delivered record) :
    run.settings.suppressed record.sourceOffset = false := by
  by_contra dropped
  obtain ⟨other, mem, delivered⟩ := delivered_of_suppressed history keyed (fun other mem same => by
    rw [threshold, same]
    exact new other mem same) handed (by simpa using dropped)
  exact undelivered other mem delivered

end ProcessRun

namespace RestartSample

open NotifySample ProcessRun

/-- A mirror that is registered to serve its values. -/
def view (bootstrapHwm : Nat) (lastCommitted : Option Nat) : CacheBinding where
  state := (CacheState.new 0).registerMirrorWithTopic "m" bootstrapHwm lastCommitted false "t" 0
  mirrorName := "m"
  registered := by
    obtain ⟨slot, there, -⟩ := CacheState.get?_registerMirrorWithTopic (CacheState.new 0) "m"
      bootstrapHwm lastCommitted false "t" 0
    rw [there]
    rfl

/-- Batches of a hundred records or ten milliseconds, suppressed as the cache says. -/
def settings (bootstrapHwm : Nat) (lastCommitted : Option Nat) : NotifySettings :=
  ⟨0, 100, 10, (view bootstrapHwm lastCommitted).state.isRecordSuppressed "m"⟩

/-- A log read from its beginning by a consumer that is always answered. -/
def source (log : Log) : LogSource := ⟨log, 0, 0, fun _ => ⟨none, false, 4⟩⟩

/-- Two records with a key. -/
def two : Log := ⟨[keyed 0, keyed 1], by simp [keyed], by simp [keyed]⟩

/-- And one more. -/
def three : Log := ⟨[keyed 0, keyed 1, keyed 2], by simp [keyed], by simp [keyed]⟩

/-- A mirror without destinations behind the view. -/
def tee (bootstrapHwm : Nat) (lastCommitted : Option Nat) :
    TeeSink (NoDestinationSink ⊕ NoDestinationSink) :=
  ⟨[⟨"none", .inr ⟨0⟩, 0⟩], some (view bootstrapHwm lastCommitted), none⟩

/-- Where such a mirror comes to. -/
def outcome (bootstrapHwm : Nat) (lastCommitted : Option Nat) (log : Log)
    (events : List RacingEvent) : Option (Racing LogSource (NoDestinationSink ⊕ NoDestinationSink)) :=
  Steps.run (Racing.step (settings bootstrapHwm lastCommitted))
    (.start (source log) (tee bootstrapHwm lastCommitted) true 0) events

/-- A run of that mirror. -/
def process (bootstrapHwm : Nat) (lastCommitted : Option Nat) (log : Log)
    (events : List RacingEvent)
    (ends : (outcome bootstrapHwm lastCommitted log events).isSome = true) :
    ProcessRun NoDestinationSink where
  bootstrapHwm
  lastCommitted
  view := view bootstrapHwm lastCommitted
  source := source log
  tee := tee bootstrapHwm lastCommitted
  settings := settings bootstrapHwm lastCommitted
  watched := true
  now := 0
  events
  ended := (outcome bootstrapHwm lastCommitted log events).get ends
  registered := ⟨.new 0, false, "t", 0, rfl⟩
  cached := rfl
  fromLow := .inr ⟨"none", rfl⟩
  suppresses := rfl
  ran := (Option.some_get ends).symm

/-- The timer waits and the startup is done. -/
def opening : List RacingEvent := [.timer (.ok ()), .goOn]

/-- A record is read and suppressed. -/
def skipped : List RacingEvent := [.goOn, .goOn, .inNotifier (.ok ())]

/-- A record is read and buffered. -/
def buffered : List RacingEvent := [.goOn, .goOn, .inNotifier (.ok ()), .inNotifier (.ok ())]

/-- The timer waits its time and delivers what is buffered. -/
def delivered : List RacingEvent :=
  [.timer (.ok ()), .timer (.ok ()), .tick 10, .timer (.ok ()), .timer (.ok ()), .timer (.ok ()),
    .timer (.ok ())]

/-- A first run that ends with record 1 in its buffer, and one that finds nothing committed after it. -/
def crashed : ProcessRun NoDestinationSink :=
  process 1 none two (opening ++ skipped ++ buffered) (by decide +kernel)

/-- The run after it, for which record 1 is below the watermark. -/
def reopened : ProcessRun NoDestinationSink :=
  process 2 none two (opening ++ skipped ++ skipped) (by decide +kernel)

/-- Record 1 is above the watermark of the first run, was never delivered, and is suppressed. -/
theorem crashed_suppressed :
    History none [reopened, crashed] ∧ (keyed 1).utf8Key.isSome = true
      ∧ crashed.bootstrapHwm ≤ (keyed 1).sourceOffset ∧ ¬ crashed.Delivered (keyed 1)
      ∧ keyed 1 ∈ reopened.presented
      ∧ reopened.settings.suppressed (keyed 1).sourceOffset = true := by
  have nothing : crashed.ended.tasks.sent = [] := by decide +kernel
  have presented : reopened.presented = [keyed 0, keyed 1] := by decide +kernel
  refine ⟨⟨⟨.inl rfl, ?_⟩, ⟨.inl rfl, ?_⟩, trivial⟩, by decide, by decide, ?_, ?_, by decide⟩
  · intro other mem
    obtain rfl := List.mem_singleton.mp mem
    exact ⟨Nat.le_refl _, fun _ _ _ listed _ => listed⟩
  · intro other mem
    cases mem
  · intro delivered
    obtain ⟨flight, mem, -⟩ := delivered
    rw [nothing] at mem
    cases mem
  · rw [presented]
    decide

/-- A first run that delivers record 1. -/
def fresh : ProcessRun NoDestinationSink :=
  process 1 none two (opening ++ skipped ++ buffered ++ delivered) (by decide +kernel)

/-- The same for a group that has committed through record 0. -/
def resumed : ProcessRun NoDestinationSink :=
  process 1 (some 1) two (opening ++ skipped ++ buffered ++ delivered) (by decide +kernel)

/-- The run after it, which finds that committed and reads one record more. -/
def returning : ProcessRun NoDestinationSink :=
  process 3 (some 2) three (opening ++ skipped ++ skipped ++ buffered) (by decide +kernel)

/-- It may follow a run that was handed two records and acknowledged both. -/
theorem follows_returning (initial : Option Nat) {first : ProcessRun NoDestinationSink}
    (reads : first.source = source two) (presented : first.presented = [keyed 0, keyed 1])
    (acked : first.ended.tasks.acks = [2]) : Follows initial [first] returning where
  commits := by
    refine .inr ⟨first, .head _, 2, rfl, [], [2], ?_, rfl, by decide⟩
    exact acked ▸ List.prefix_rfl
  grown other mem := by
    obtain rfl := List.mem_singleton.mp mem
    refine ⟨by rw [reads]; exact Nat.le_refl _, fun last handed record listed below => ?_⟩
    rw [presented] at handed
    rw [reads]
    have old : last.sourceOffset ≤ 1 := by
      simp only [List.mem_cons, List.not_mem_nil, or_false] at handed
      rcases handed with rfl | rfl <;> decide
    -- Only the third record is new, and it is above everything that was read.
    have listed : record ∈ [keyed 0, keyed 1, keyed 2] := listed
    simp only [List.mem_cons, List.not_mem_nil, or_false] at listed
    rcases listed with rfl | rfl | rfl
    · exact .head _
    · exact .tail _ (.head _)
    · exact absurd (Nat.le_trans below old) (by decide)

/-- Record 2 is new to the second run, which does not suppress it. -/
theorem fresh_not_suppressed_returning :
    History none [returning, fresh] ∧ keyed 2 ∈ returning.presented
      ∧ returning.settings.suppressed (keyed 2).sourceOffset = false := by
  have presented : fresh.presented = [keyed 0, keyed 1] := by decide +kernel
  have acked : fresh.ended.tasks.acks = [2] := by decide +kernel
  have sent : fresh.ended.tasks.sent.map (·.records) = [[keyed 1]] := by decide +kernel
  have later : returning.presented = [keyed 0, keyed 1, keyed 2] := by decide +kernel
  have history : History none [returning, fresh] := by
    refine ⟨follows_returning none rfl presented acked, ⟨.inl rfl, ?_⟩, trivial⟩
    intro other mem
    cases mem
  have handed : keyed 2 ∈ returning.presented := by
    rw [later]
    decide
  refine ⟨history, handed, fresh_not_suppressed history handed (by decide) ?_ ?_⟩
  · intro other mem none_
    simp only [List.mem_cons, List.not_mem_nil, or_false] at mem
    rcases mem with rfl | rfl
    · cases none_
    · decide
  · intro other mem
    obtain rfl := List.mem_singleton.mp mem
    intro delivered
    obtain ⟨flight, mem, inside⟩ := delivered
    have listed : flight.records ∈ fresh.ended.tasks.sent.map (·.records) :=
      List.mem_map_of_mem mem
    rw [sent] at listed
    rw [List.mem_singleton.mp listed] at inside
    exact absurd inside (by decide)

/-- Record 1 is suppressed by the second run, for the first has delivered it. -/
theorem returning_at_least_once_resumed :
    History (some 1) [returning, resumed]
      ∧ returning.settings.suppressed (keyed 1).sourceOffset = true
      ∧ ∃ other ∈ [resumed], other.Delivered (keyed 1) := by
  have presented : resumed.presented = [keyed 0, keyed 1] := by decide +kernel
  have acked : resumed.ended.tasks.acks = [2] := by decide +kernel
  have later : returning.presented = [keyed 0, keyed 1, keyed 2] := by decide +kernel
  have history : History (some 1) [returning, resumed] := by
    refine ⟨follows_returning (some 1) rfl presented acked, ⟨.inl rfl, ?_⟩, trivial⟩
    intro other mem
    cases mem
  have handed : keyed 1 ∈ returning.presented := by
    rw [later]
    decide
  exact ⟨history, by decide, (returning_at_least_once history).1 (keyed 1) handed (by decide)
    (by decide) (by decide)⟩

end RestartSample

end MirrorV3
