import MirrorV3.Bin.Racing
import MirrorV3.Cache.Complete
import MirrorV3.Cache.Fold

/-! Whoever is notified of a key can read its new state, for the view is fed before anybody is told. -/

namespace MirrorV3

open Effect

namespace Racing

variable {K : Type} [Sink K]

/-- A mirror whose view holds what it read from `first` on, and which reads on at `expected`. -/
structure Reading (start : CacheBinding) (source : LogSource) (first expected : Nat)
    (m : Mirror LogSource (TeeSink K) NoOpNotifier) : Prop where
  sameLog : LogSource.SameLog source m.source
  position : m.source.position = expected
  ordered : first ≤ expected
  cache : m.sink.cache = some (start.applyAll (source.log.between first expected))

/-- The startup of a mirror decides to resume at `first`. -/
def Resumes (source : LogSource) (tee : TeeSink K) (first : Nat) : Prop :=
  ∃ mirror, Mirror.bootstrap (⟨source, tee, ⟨⟩⟩ : Mirror LogSource (TeeSink K) NoOpNotifier)
    = .ok first mirror

/-- The view is ahead of what the notifier was handed, or equal to it. -/
def Leads (start : CacheBinding) (source : LogSource) (tee : TeeSink K) (s : Racing LogSource K) :
    Prop :=
  s.tasks.handed = [] ∨ ∃ first reached, Resumes source tee first
    ∧ s.mirror.sink.cache = some (start.applyAll (source.log.between first reached))
    ∧ s.tasks.handed <+: source.log.between first reached

/-- What the view holds, and what of it was handed over, in each stage of the loop. -/
def Fed (start : CacheBinding) (source : LogSource) (tee : TeeSink K) (s : Racing LogSource K) :
    Prop :=
  match s.stage with
  | .starting => s.mirror = ⟨source, tee, ⟨⟩⟩ ∧ s.tasks.handed = []
  | .polling expected => ∃ first, Resumes source tee first
    ∧ Reading start source first expected s.mirror
    ∧ s.tasks.handed = source.log.between first expected
  | .writing record => ∃ first, Resumes source tee first
    ∧ Reading start source first (record.sourceOffset + 1) s.mirror
    ∧ s.tasks.handed ++ [record] = source.log.between first (record.sourceOffset + 1)
  | _ => Leads start source tee s

variable {start : CacheBinding} {source : LogSource} {tee : TeeSink K}

/-- Wherever the startup resumes, the view is as it was. -/
theorem bootstrap_reading (cached : tee.cache = some start) :
    wp (Mirror.bootstrap : Program Halt (Mirror LogSource (TeeSink K) NoOpNotifier) Nat)
      (fun first m => Reading start source first first m) (fun _ _ => True)
      ⟨source, tee, ⟨⟩⟩ := by
  -- Each question leaves the view and the log alone, and the seek comes last.
  have seeks : ∀ first (source' : LogSource) (tee' : TeeSink K), LogSource.SameLog source source' →
      tee'.cache = tee.cache →
      wp (Source.seek first : Program SourceError LogSource Unit)
        (fun _ source'' => Reading start source first first
          (⟨source'', tee', ⟨⟩⟩ : Mirror LogSource (TeeSink K) NoOpNotifier))
        (fun _ _ => True) source' := by
    intro first source' tee' sameLog kept
    refine wp_mono (LogSource.seek_spec first source') ?_ (fun _ _ _ => trivial)
    rintro - source'' ⟨same, position⟩
    refine ⟨⟨same.1.trans sameLog.1, same.2.trans sameLog.2⟩, position, Nat.le_refl _, ?_⟩
    have nothing : source.log.between first first = [] := Window.between_self
    rw [kept, cached, nothing]
    rfl
  simp only [Mirror.bootstrap, Mirror.onSink, Mirror.onSource, wp_bind, wp_focus, wp_ensure,
    wp_get, wp_ite, wp_pure, wp_throw]
  refine wp_mono TeeSink.nextExpectedOffset_cache ?_ (fun _ _ _ => trivial)
  rintro sinkStart tee₁ ⟨kept₁, -⟩
  refine wp_mono (LogSource.lowWatermark_spec source) ?_ (fun _ _ _ => trivial)
  rintro low source₁ ⟨same₁, -⟩
  refine wp_mono (LogSource.highWatermark_spec source₁) ?_ (fun _ _ _ => trivial)
  intro high source₂ same₂
  refine wp_mono TeeSink.furthestNextOffset_cache ?_ (fun _ _ _ => trivial)
  intro furthest tee₂ kept₂
  have sameLog : LogSource.SameLog source source₂ :=
    ⟨same₂.1.trans same₁.1, same₂.2.trans same₁.2⟩
  have kept : tee₂.cache = tee.cache := kept₂.trans kept₁
  split
  · split
    · split
      · refine wp_mono (TeeSink.align_cache low) ?_ (fun _ _ _ => trivial)
        intro _ tee₃ kept₃
        exact seeks low source₂ tee₃ sameLog (kept₃.trans kept)
      · trivial
    · exact seeks sinkStart source₂ tee₂ sameLog kept
  · trivial

/-- What is read is in the view, and nothing else is. -/
theorem read_reading {first expected : Nat} {m : Mirror LogSource (TeeSink K) NoOpNotifier}
    (reading : Reading start source first expected m) :
    wp (Mirror.read expected)
      (fun polled m' =>
        match polled with
        | some record => Reading start source first (record.sourceOffset + 1) m'
          ∧ source.log.between first expected ++ [record]
            = source.log.between first (record.sourceOffset + 1)
        | none => Reading start source first expected m')
      (fun _ m' => m'.sink.cache = m.sink.cache) m := by
  obtain ⟨sameLog, position, ordered, cache⟩ := reading
  simp only [Mirror.read, Mirror.onSource, wp_bind, wp_focus]
  refine wp_mono (LogSource.pollOne_spec m.source) ?_ (fun _ _ _ => rfl)
  rintro polled source' ⟨same, outcome⟩
  have sameLog' : LogSource.SameLog source source' :=
    ⟨same.1.trans sameLog.1, same.2.trans sameLog.2⟩
  cases polled with
  | none =>
    simp only [Mirror.verifyIdle, Mirror.onSink, wp_bind, wp_focus, wp_ensure, wp_pure]
    refine wp_mono TeeSink.nextExpectedOffset_cache ?_ (fun _ _ kept => kept)
    rintro current sink ⟨kept, -⟩
    split
    · exact ⟨sameLog', outcome.trans position, ordered, kept.trans cache⟩
    · exact kept
  | some record =>
    have found : source.log.next expected = some record := by
      rw [← sameLog.1, ← position]
      exact outcome.1
    have grown := Log.between_snoc ordered found
    have above := (Log.of_next found).2
    simp only [Mirror.accept, Mirror.onSink, wp_bind, wp_ensure, wp_get, wp_focus, wp_pure,
      wp_modify]
    rw [if_pos above]
    split
    · refine ⟨⟨sameLog', outcome.2, by omega, ?_⟩, grown⟩
      show m.sink.cache.map (·.applyRecord record) = _
      rw [cache, ← grown, CacheBinding.applyAll_concat]
      rfl
    · rfl

/-- Writing to the destinations leaves the view and the source alone. -/
theorem fanOut_reading {first expected : Nat} (record : Record)
    {m : Mirror LogSource (TeeSink K) NoOpNotifier}
    (reading : Reading start source first expected m) :
    wp (Mirror.fanOut record) (fun _ => Reading start source first expected)
      (fun _ m' => m'.sink.cache = m.sink.cache) m := by
  simp only [Mirror.fanOut, Mirror.onSink, wp_bind, wp_focus, wp_ensure, wp_modify]
  refine wp_any ?_ (fun _ _ => rfl)
  intro _ inners
  split
  · exact ⟨reading.sameLog, reading.position, reading.ordered, reading.cache⟩
  · rfl

variable {settings : NotifySettings} {s s' : Racing LogSource K}

/-- Who leads still leads with the same view and the same records handed over. -/
theorem Leads.of_same (leads : Leads start source tee s)
    (handed : s'.tasks.handed = s.tasks.handed)
    (cache : s'.mirror.sink.cache = s.mirror.sink.cache) : Leads start source tee s' := by
  unfold Leads
  rw [handed, cache]
  exact leads

/-- In every stage the view leads. -/
theorem Fed.leads (fed : Fed start source tee s) : Leads start source tee s := by
  unfold Fed at fed
  cases stands : s.stage with
  | starting =>
    rw [stands] at fed
    exact .inl fed.2
  | polling expected =>
    rw [stands] at fed
    obtain ⟨first, resumes, reading, handed⟩ := fed
    exact .inr ⟨first, expected, resumes, reading.cache, handed ▸ List.prefix_rfl⟩
  | writing record =>
    rw [stands] at fed
    obtain ⟨first, resumes, reading, handed⟩ := fed
    exact .inr ⟨first, _, resumes, reading.cache, handed ▸ List.prefix_append _ _⟩
  | flushing | draining | failed =>
    rw [stands] at fed
    exact fed

/-- The loop's own work keeps the view ahead. -/
theorem Fed.work {program : Program Halt (Mirror LogSource (TeeSink K) NoOpNotifier) Stage}
    {stage : Stage} {mirror : Mirror LogSource (TeeSink K) NoOpNotifier}
    (cached : tee.cache = some start) (fed : Fed start source tee s)
    (works : s.stage.work = some program) (ran : program s.mirror = .ok stage mirror)
    (silent : s.stage.call = none) : Fed start source tee { s with mirror, stage } := by
  have ends : wp program (fun stage m => Fed start source tee ⟨m, stage, s.tasks⟩)
      (fun _ _ => True) s.mirror := by
    unfold Fed at fed
    cases stands : s.stage with
    | starting =>
      rw [stands] at fed works
      obtain ⟨fresh, nothing⟩ := fed
      cases works
      rw [fresh]
      -- What the startup returns is where it resumes.
      have returned : wp (Mirror.bootstrap : Program Halt (Mirror LogSource (TeeSink K) NoOpNotifier) _)
          (fun first _ => Resumes source tee first) (fun _ _ => True) ⟨source, tee, ⟨⟩⟩ :=
        wp_intro (fun first m ran => ⟨m, ran⟩) (fun _ _ _ => trivial)
      simp only [wp_bind, wp_pure]
      refine wp_mono (wp_and (bootstrap_reading cached) returned) ?_ (fun _ _ _ => trivial)
      rintro first m ⟨reading, resumes⟩
      refine ⟨first, resumes, reading, ?_⟩
      rw [nothing]
      exact Window.between_self.symm
    | polling expected =>
      rw [stands] at fed works
      obtain ⟨first, resumes, reading, handed⟩ := fed
      cases works
      simp only [wp_bind]
      refine wp_mono (read_reading reading) ?_ (fun _ _ _ => trivial)
      intro polled m kept
      cases polled with
      | none => exact ⟨first, resumes, kept, handed⟩
      | some record =>
        refine ⟨first, resumes, kept.1, ?_⟩
        rw [handed]
        exact kept.2
    | writing record | flushing =>
      rw [stands] at silent
      cases silent
    | draining | failed halt =>
      rw [stands] at works
      cases works
  have kept := wp_of_ok ends ran
  exact kept

/-- A call of the notifier hands over the record that the view holds already. -/
theorem Fed.call {program : Program Halt (Mirror LogSource (TeeSink K) NoOpNotifier) Stage}
    {stage : Stage} {mirror : Mirror LogSource (TeeSink K) NoOpNotifier} {event : NotifyEvent}
    {tasks : Tasks} (fed : Fed start source tee s) (works : s.stage.work = some program)
    (ran : program s.mirror = .ok stage mirror) (calls : s.stage.call = some event)
    (told : s.tasks.step settings event = some tasks) :
    Fed start source tee ⟨mirror, stage, tasks⟩ := by
  have ends : wp program (fun stage m => Fed start source tee ⟨m, stage, tasks⟩)
      (fun _ _ => True) s.mirror := by
    have leads := fed.leads
    unfold Fed at fed
    cases stands : s.stage with
    | writing record =>
      rw [stands] at fed works calls
      obtain ⟨first, resumes, reading, handed⟩ := fed
      cases works
      cases calls
      have handed' : tasks.handed = s.tasks.handed ++ [record] := by
        rw [Tasks.step] at told
        split at told
        · cases told
          rfl
        · cases told
      simp only [wp_bind, wp_pure]
      refine wp_mono (fanOut_reading record reading) ?_ (fun _ _ _ => trivial)
      intro _ m kept
      exact ⟨first, resumes, kept, handed'.trans handed⟩
    | flushing =>
      rw [stands] at works calls
      cases works
      cases calls
      have handed : tasks.handed = s.tasks.handed := by
        rcases Tasks.handed_of_step told with same | ⟨record, never, -⟩
        · exact same
        · cases never
      simp only [Mirror.onSink, wp_bind, wp_focus, wp_pure]
      refine wp_mono TeeSink.flush_cache ?_ (fun _ _ _ => trivial)
      intro _ sink kept
      exact leads.of_same handed kept
    | starting | polling expected | draining | failed halt =>
      rw [stands] at calls
      cases calls
  have kept := wp_of_ok ends ran
  exact kept

/-- Work that fails leaves the view where it is. -/
theorem Fed.fail {program : Program Halt (Mirror LogSource (TeeSink K) NoOpNotifier) Stage}
    {halt : Halt} {mirror : Mirror LogSource (TeeSink K) NoOpNotifier} {tasks : Tasks}
    (fed : Fed start source tee s) (works : s.stage.work = some program)
    (ran : program s.mirror = .error halt mirror)
    (left : s.tasks.step settings .leave = some tasks) :
    Fed start source tee ⟨mirror, .failed halt, tasks⟩ := by
  have handed : tasks.handed = s.tasks.handed := by
    rcases Tasks.handed_of_step left with same | ⟨record, never, -⟩
    · exact same
    · cases never
  -- Before the start nothing was handed over, and later no failure touches the view.
  have ends : s.tasks.handed = [] ∨ wp program (fun _ _ => True)
      (fun _ m => m.sink.cache = s.mirror.sink.cache) s.mirror := by
    unfold Fed at fed
    cases stands : s.stage with
    | starting =>
      rw [stands] at fed
      exact .inl fed.2
    | polling expected =>
      rw [stands] at fed works
      obtain ⟨first, -, reading, -⟩ := fed
      cases works
      simp only [wp_bind]
      refine .inr (wp_mono (read_reading reading) ?_ (fun _ _ kept => kept))
      intro polled m _
      cases polled <;> trivial
    | writing record =>
      rw [stands] at fed works
      obtain ⟨first, -, reading, -⟩ := fed
      cases works
      simp only [wp_bind, wp_pure]
      exact .inr (wp_mono (fanOut_reading record reading) (fun _ _ _ => trivial)
        (fun _ _ kept => kept))
    | flushing =>
      rw [stands] at works
      cases works
      simp only [Mirror.onSink, wp_bind, wp_focus, wp_pure]
      exact .inr (wp_mono TeeSink.flush_cache (fun _ _ _ => trivial) (fun _ _ kept => kept))
    | draining | failed halt =>
      rw [stands] at works
      cases works
  show Leads start source tee _
  rcases ends with nothing | ends
  · exact .inl (handed.trans nothing)
  · have kept := wp_of_error ends ran
    exact fed.leads.of_same handed kept

/-- Every step keeps the view ahead of the notifier. -/
theorem Fed.move (cached : tee.cache = some start) (fed : Fed start source tee s)
    (move : Move settings s s') : Fed start source tee s' := by
  cases move with
  | work idle works ran silent => exact fed.work cached works ran silent
  | call idle works ran calls told => exact fed.call works ran calls told
  | fail idle works ran left => exact fed.fail works ran left
  | interrupt stage idle stands next =>
    have leads := fed.leads
    unfold Fed at fed
    rw [stands] at fed
    rcases next with rfl | rfl
    · -- Dropping a poll that has not answered drops nothing of a log.
      exact fed
    · exact leads
  | inside told handed =>
    unfold Fed at fed ⊢
    simp only [Leads, handed] at fed ⊢
    exact fed

/-- In every run the view is ahead of the notifier. -/
theorem fed_of_run (cached : tee.cache = some start) {watched : Bool} {now : Nat}
    {events : List RacingEvent}
    (ran : Steps.run (step settings) (.start source tee watched now) events = some s) :
    Fed start source tee s :=
  Steps.run_rule (Fed start source tee)
    (fun _ _ _ taken fed => fed.move cached (move_of_step taken)) ran ⟨rfl, rfl⟩

/--
A notified key can be read again at its new state.

Wherever the destinations stand and the source is resumed from, and whatever was applied to the view
`before`: while a batch is dispatched, the view has seen its offset, and answers each of its keys
by all that was read up to some place behind the last record of the batch.
-/
theorem notified_key_rereads {base : CacheBinding} {slot : MirrorSlot} {bootstrapHwm : Nat}
    (registered : base.state.mirrors.get? base.mirrorName = some slot)
    (fresh : MirrorSlot.Fresh bootstrapHwm true slot) (before : List Record) {topic : String}
    {partition : UInt32}
    (pinned : ∀ record ∈ source.log.records, record.topicPartition = ⟨topic, partition⟩)
    (cached : tee.cache = some (base.applyAll before)) {watched : Bool} {now : Nat}
    {events : List RacingEvent}
    (ran : Steps.run (step settings) (.start source tee watched now) events = some s)
    {flight : Flight} (dispatches : s.tasks.Dispatches flight) :
    ∃ view first upTo, s.mirror.sink.cache = some view ∧ Resumes source tee first
      ∧ (∃ seen, view.state.getOffsetFor view.mirrorName topic partition = some seen
        ∧ flight.batch.highOffset ≤ seen)
      ∧ flight.batch.highOffset < upTo
      ∧ (∀ key ∈ flight.batch.updates,
        (∃ record ∈ flight.records, record.utf8Key = some key)
        ∧ (∀ record ∈ flight.records, record.utf8Key = some key →
          record ∈ source.log.between first upTo)
        ∧ (view.state.readValue view.mirrorName key).map (·.value)
          = some ((lastWritten key (advancing [] (before ++ source.log.between first upTo))).map
              fun entry => (entry.value, entry.offset)))
      ∧ (before = [] → advancing [] (before ++ source.log.between first upTo)
        = source.log.between first upTo) := by
  obtain ⟨-, orderly⟩ := orderly_of_run ran
  have taken := orderly.taken_of_dispatches dispatches
  have drains := orderly.drained flight taken
  obtain ⟨⟨last, inside, highest⟩, -⟩ := Tasks.drains_highest drains
  have handed := (orderly.handed_of_taken taken inside).1
  rcases (fed_of_run cached ran).leads with nothing | ⟨first, reached, resumes, cache, behind⟩
  · rw [nothing] at handed
    cases handed
  have read := Log.mem_between.mp (behind.subset handed)
  rw [← CacheBinding.applyAll_append] at cache
  obtain ⟨state, name⟩ := base.applyAll_state (before ++ source.log.between first reached)
  refine ⟨_, first, reached, cache, resumes, ?_, by omega, ?_, ?_⟩
  · rw [state, name, ← highest]
    have given : last ∈ before ++ source.log.between first reached :=
      List.mem_append_right _ (behind.subset handed)
    obtain ⟨seen, found, below⟩ := CacheState.getOffsetFor_applyAll registered fresh given
    have here := pinned last read.1
    rw [Record.topicPartition, TopicPartition.mk.injEq] at here
    rw [here.1, here.2] at found
    exact ⟨seen, found, below⟩
  · intro key told
    rw [drains.updates, List.mem_eraseDups, List.mem_filterMap] at told
    refine ⟨told, fun record mem _ => ?_, ?_⟩
    · exact behind.subset (orderly.handed_of_taken taken mem).1
    · rw [state, name]
      exact CacheState.readValue_applyAll registered fresh _ key
  · rintro rfl
    exact advancing_of_increasing (source.log.increasing.sublist List.filter_sublist)

end Racing

namespace RereadSample

open NotifySample

/-- A record that sets its key. -/
def set : Record := { keyed 3 with value := some [1] }

/-- A log of that record, read by a consumer that is always answered. -/
def source : LogSource where
  log := ⟨[set], by simp, by simp [set, keyed]⟩
  position := 0
  lowWatermark := 0
  answers _ := ⟨none, false, 4⟩

/-- A mirror registered to serve its values. -/
def serving : CacheBinding :=
  ⟨(CacheState.new 0).registerMirrorWithTopic "m" 4 none false "t" 0, "m", rfl⟩

/-- A mirror without destinations behind the view. -/
def tee : TeeSink NoDestinationSink := ⟨[⟨"none", ⟨0⟩, 0⟩], some serving, none⟩

/-- The record is read and handed over, and the timer dispatches it after its wait. -/
def dispatched : List RacingEvent :=
  [.timer (.ok ()), .goOn, .goOn, .goOn, .inNotifier (.ok ()), .inNotifier (.ok ()),
    .timer (.ok ()), .timer (.ok ()), .tick 10, .timer (.ok ()), .timer (.ok ()), .timer (.ok ())]

/-- While the timer dispatches the key, the view answers it. -/
theorem notified_key_rereads_dispatched :
    ∃ s flight view first upTo,
      Steps.run (Racing.step settings) (.start source tee true 0) dispatched = some s
      ∧ s.tasks.timer.flight = some flight ∧ flight.batch.updates = ["k"]
      ∧ s.mirror.sink.cache = some view ∧ flight.batch.highOffset < upTo
      ∧ (view.state.readValue view.mirrorName "k").map (·.value)
        = some ((lastWritten "k" (source.log.between first upTo)).map fun entry =>
            (entry.value, entry.offset)) := by
  have ended : (Steps.run (Racing.step settings) (.start source tee true 0) dispatched).map
      (fun s => s.tasks.timer.flight.map (·.batch.updates)) = some (some ["k"]) := by
    decide +kernel
  obtain ⟨s, ran, shown⟩ := Option.map_eq_some_iff.mp ended
  obtain ⟨flight, flies, keys⟩ := Option.map_eq_some_iff.mp shown
  obtain ⟨slot, registered, fresh⟩ := CacheState.get?_registerMirrorWithTopic
    (CacheState.new 0) "m" 4 none false "t" 0
  have pinned : ∀ record ∈ source.log.records, record.topicPartition = ⟨"t", 0⟩ := by
    intro record mem
    obtain rfl := List.mem_singleton.mp mem
    rfl
  obtain ⟨view, first, upTo, cache, -, -, below, answers, counted⟩ :=
    @Racing.notified_key_rereads NoDestinationSink _ source tee settings s serving slot 4 registered
      fresh [] "t" 0 pinned rfl true 0 dispatched ran flight (.inr flies)
  refine ⟨s, flight, view, first, upTo, ran, flies, keys, cache, below, ?_⟩
  have answer := (answers "k" (by rw [keys]; exact .head _)).2.2
  rwa [counted rfl] at answer

end RereadSample

end MirrorV3
