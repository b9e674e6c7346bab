import MirrorV3.Cache.Complete
import MirrorV3.Core.FanOut
import MirrorV3.Kafka.Produce
import MirrorV3.Core.Holes

/-! A mirror that reads its source again, from below destinations that take no holes. -/

namespace MirrorV3

open Effect

/-- A log of which nothing is missing from a position up to its last record. -/
def Log.Unbroken (log : Log) (start : Nat) : Prop :=
  ∀ r ∈ log.records, ∀ offset, start ≤ offset → offset ≤ r.sourceOffset →
    ∃ r' ∈ log.records, r'.sourceOffset = offset

/-- The next record of an unbroken log is the one at the position. -/
theorem Log.Unbroken.next {log : Log} {start position : Nat} {record : Record}
    (unbroken : log.Unbroken start) (reached : start ≤ position)
    (found : log.next position = some record) : record.sourceOffset = position := by
  obtain ⟨mem, above⟩ := Log.of_next found
  obtain ⟨r, listed, same⟩ := unbroken record mem position reached above
  -- Nothing but the next record is numbered from the position up to it.
  have only : log.between position (record.sourceOffset + 1) = [record] :=
    Window.between_firstFrom log.increasing found
  have here : r ∈ log.between position (record.sourceOffset + 1) :=
    Log.mem_between.mpr ⟨listed, by omega, by omega⟩
  rw [only, List.mem_singleton] at here
  rw [← same, here]

/-- The loop ends because the source is missing something it expects. -/
def Halt.cutOff : Halt → Bool
  | .failed (.sourceGapAboveExpected _ _) => true
  | .failed (.sourceCompactedBelowExpected _ _ _) => true
  | _ => false

section Replaying

variable {K N : Type} [Sink K] [LawfulSink K] {start : CacheBinding} {source : LogSource}
  {openings : List Nat} {expected : Nat}

/-- What has been read of the source, from the low watermark on. -/
def readSoFar (source : LogSource) (expected : Nat) : List Record :=
  source.log.between source.lowWatermark expected

/-- Everybody was given what was read of the source, and nothing was missing of it. -/
structure ReadBy (start : CacheBinding) (source : LogSource) (openings : List Nat)
    (expected : Nat) (tee : TeeSink (Recorded K)) (notifier : Notified N) : Prop where
  fromLow : source.lowWatermark ≤ expected
  fed : ∀ inner ∈ tee.inners, Fed (readSoFar source expected) expected inner
  openings : tee.inners.map (·.sink.opening) = openings
  notified : notifier.notified = readSoFar source expected
  cache : tee.cache = some (start.applyAll (readSoFar source expected))
  holes : Sink.allowsOffsetHoles tee = false
  whole : ∀ offset, source.lowWatermark ≤ offset → offset < expected →
    ∃ r ∈ source.log.records, r.sourceOffset = offset

/-- A mirror that reads its source again, as far as the position of its source. -/
structure Replaying (start : CacheBinding) (source : LogSource) (openings : List Nat)
    (expected : Nat) (m : Mirror LogSource (TeeSink (Recorded K)) (Notified N)) : Prop where
  sameLog : LogSource.SameLog source m.source
  position : m.source.position = expected
  read : ReadBy start source openings expected m.sink m.notifier

variable [FixedHoles K] [Notifier N]
  {m : Mirror LogSource (TeeSink (Recorded K)) (Notified N)}

/-- A record at the expected offset reaches everybody, and one above it shows that one is missing. -/
theorem deliver_replaying {record : Record} (sameLog : LogSource.SameLog source m.source)
    (position : m.source.position = record.sourceOffset + 1)
    (read : ReadBy start source openings expected m.sink m.notifier)
    (found : source.log.next expected = some record) :
    wp (Mirror.deliver expected record) (fun next => Replaying start source openings next)
      (fun halt _ => halt.cutOff = true → ¬ source.log.Unbroken source.lowWatermark) m := by
  obtain ⟨mem, above⟩ := Log.of_next found
  have inRange : record.sourceOffset + 1 < 2 ^ 64 := by
    have := source.log.numbered record mem
    omega
  have readOn : readSoFar source expected ++ [record]
      = readSoFar source (record.sourceOffset + 1) := Log.between_snoc read.fromLow found
  simp only [Mirror.deliver, Mirror.onSink, Mirror.onNotifier, wp_bind, wp_get, wp_focus,
    wp_ensure, wp_pure]
  rw [if_pos above]
  split
  · rename_i next
    have here : record.sourceOffset = expected := by
      rcases next with below | tolerated
      · omega
      · exact absurd (tolerated.symm.trans read.holes) (by decide)
    refine wp_mono (wp_and (write_tee read.fed above)
      (wp_and (TeeSink.write_cache record) (TeeSink.write_holes record)))
      ?_ (fun e _ _ cut => by simp [Halt.cutOff] at cut)
    rintro _ tee ⟨took, written, kept⟩
    have tells : (Notifier.onRecord record : Program NotifyError (Notified N) Unit)
        = (do
          modify fun s => { s with notified := s.notified ++ [record] }
          focus Notified.part id (Notifier.onRecord record)) := rfl
    simp only [tells, wp_bind, wp_modify, wp_focus]
    refine wp_any (fun _ notifier => ⟨sameLog, position, ?_⟩)
      (fun _ _ cut => by simp [Halt.cutOff] at cut)
    refine ⟨by have := read.fromLow; omega, ?_, ?_, ?_, ?_, kept.trans read.holes, ?_⟩
    · show ∀ inner ∈ tee.inners, _
      rw [← readOn]
      exact forall_mem_of_forall₂ took fun _ _ step => step.fed inRange
    · show tee.inners.map _ = openings
      rw [map_eq_of_forall₂ took fun _ _ step => step.opening]
      exact read.openings
    · show m.notifier.notified ++ [record] = _
      rw [read.notified, readOn]
    · show tee.cache = _
      rw [written]
      show m.sink.cache.map (·.applyRecord record) = _
      rw [read.cache, ← readOn, CacheBinding.applyAll_concat]
      rfl
    · intro offset low below
      rcases Nat.lt_or_ge offset expected with earlier | last
      · exact read.whole offset low earlier
      · exact ⟨record, mem, by omega⟩
  · -- The record is above the expected offset, which the log does not have then.
    rename_i gap
    intro _ unbroken
    exact gap (.inl (Nat.le_of_eq (unbroken.next read.fromLow found)))

omit [Notifier N] in
/-- An idle poll leaves everybody with what was read. -/
theorem verifyIdle_replaying (holds : Replaying start source openings expected m) :
    wp (Mirror.verifyIdle expected) (fun next => Replaying start source openings next)
      (fun halt _ => halt.cutOff = true → ¬ source.log.Unbroken source.lowWatermark) m := by
  obtain ⟨sameLog, position, read⟩ := holds
  simp only [Mirror.verifyIdle, Mirror.onSink, wp_bind, wp_focus, wp_ensure, wp_pure]
  refine wp_mono (wp_and (nextExpectedOffset_fed read.fed)
    (wp_and TeeSink.nextExpectedOffset_cache TeeSink.nextExpectedOffset_holes))
    ?_
    (fun e _ _ cut => by simp [Halt.cutOff] at cut)
  rintro next tee ⟨⟨fed, same, _⟩, ⟨cached, _⟩, kept⟩
  split
  · have openings' : tee.inners.map (·.sink.opening) = openings := by
      rw [map_eq_of_forall₂ same fun _ _ kept => kept.1]
      exact read.openings
    exact ⟨sameLog, position, read.fromLow, fed, openings', read.notified, cached.trans read.cache,
      kept.trans read.holes, read.whole⟩
  · intro cut
    simp [Halt.cutOff] at cut

/-- One poll of a replay. -/
theorem poll_replaying (holds : Replaying start source openings expected m) :
    wp (Mirror.poll expected) (fun next => Replaying start source openings next)
      (fun halt _ => halt.cutOff = true → ¬ source.log.Unbroken source.lowWatermark) m := by
  simp only [Mirror.poll, Mirror.onSource, wp_bind, wp_focus]
  refine wp_mono (LogSource.pollOne_spec m.source) ?_
    (fun e _ _ cut => by simp [Halt.cutOff] at cut)
  rintro polled source' ⟨same, outcome⟩
  have sameLog : LogSource.SameLog source source' :=
    ⟨same.1.trans holds.sameLog.1, same.2.trans holds.sameLog.2⟩
  cases polled with
  | none =>
    exact verifyIdle_replaying ⟨sameLog, outcome.trans holds.position, holds.read⟩
  | some record =>
    have found : source.log.next expected = some record := by
      rw [← holds.sameLog.1, ← holds.position]
      exact outcome.1
    exact deliver_replaying sameLog outcome.2 holds.read found

/-- Everybody was given what the source was read up to, whether the mirror runs on or was stopped. -/
structure HandedOut (start : CacheBinding) (source : LogSource) (openings : List Nat)
    (m : Mirror LogSource (TeeSink (Recorded K)) (Notified N)) : Prop where
  sameLog : LogSource.SameLog source m.source
  served : Served openings (readSoFar source m.source.position) m.sink.inners
  notified : m.notifier.notified = readSoFar source m.source.position
  cache : m.sink.cache = some (start.applyAll (readSoFar source m.source.position))
  whole : ∀ offset, source.lowWatermark ≤ offset → offset < m.source.position →
    ∃ r ∈ source.log.records, r.sourceOffset = offset

omit [FixedHoles K] [Notifier N] in
/-- A mirror that runs on has given everybody what it read. -/
theorem Replaying.handedOut (holds : Replaying start source openings expected m) :
    HandedOut start source openings m where
  sameLog := holds.sameLog
  served := by
    rw [holds.position]
    exact ⟨holds.read.openings, fun inner mem => (holds.read.fed inner mem).presented,
      fun inner mem => (holds.read.fed inner mem).accepted⟩
  notified := holds.position ▸ holds.read.notified
  cache := holds.position ▸ holds.read.cache
  whole := holds.position ▸ holds.read.whole

omit [FixedHoles K] in
/-- A graceful stop takes nothing back. -/
theorem stop_handedOut (holds : Replaying start source openings expected m) :
    wp Mirror.stop (fun _ m' => HandedOut start source openings m' ∧ m'.source = m.source)
      (fun halt _ => halt.cutOff = true → ¬ source.log.Unbroken source.lowWatermark) m := by
  obtain ⟨sameLog, served, notified, cache, whole⟩ := holds.handedOut
  have drains : (Notifier.shutdown : Program NotifyError (Notified N) Unit)
      = focus Notified.part id Notifier.shutdown := rfl
  simp only [Mirror.stop, Mirror.onSink, Mirror.onNotifier, drains, wp_bind, wp_focus]
  refine wp_mono (wp_and (flush_same m.sink) TeeSink.flush_cache)
    ?_ (fun e _ _ cut => by simp [Halt.cutOff] at cut)
  rintro _ tee ⟨same, cached⟩
  exact wp_any (fun _ _ => ⟨⟨sameLog, served.same same, notified, cached.trans cache, whole⟩, rfl⟩)
    (fun _ _ cut => by simp [Halt.cutOff] at cut)

/-- However the events go on, everybody is given what is read. -/
theorem loop_handedOut (events : List LoopEvent)
    (holds : Replaying start source openings expected m) :
    wp (Mirror.loop events expected) (fun _ m' => HandedOut start source openings m')
      (fun halt _ => halt.cutOff = true → ¬ source.log.Unbroken source.lowWatermark) m := by
  refine wp_mono (Mirror.loop_rule (fun _ _ kept => poll_replaying kept)
    (fun _ _ kept => ⟨kept.sameLog, kept.position, kept.read⟩)
    (fun _ _ kept => wp_mono (stop_handedOut kept) (fun _ _ left => left.1) (fun _ _ failed => failed))
    events expected m holds) (fun progress m' left => ?_) (fun _ _ failed => failed)
  cases progress with
  | running expected => exact Replaying.handedOut left
  | finished => exact left

omit [Notifier N] in
/-- The startup of a replay seeks to the low watermark, unless a destination is below it. -/
theorem bootstrap_replaying (low : m.source.lowWatermark = source.lowWatermark)
    (log : m.source.log = source.log) (floor : m.sink.resumeCursor = some source.lowWatermark)
    (fed : ∀ inner ∈ m.sink.inners, Fed [] 0 inner)
    (openings_eq : m.sink.inners.map (·.sink.opening) = openings)
    (cached : m.sink.cache = some start) (holes : Sink.allowsOffsetHoles m.sink = false)
    (untold : m.notifier.notified = []) :
    wp Mirror.bootstrap
      (fun next m' => Replaying start source openings next m'
        ∧ next = source.lowWatermark ∧ source.lowWatermark ≤ m.sink.minHead)
      (fun halt _ => halt.cutOff = true → ¬ source.lowWatermark ≤ m.sink.minHead) m := by
  have resumes : m.sink.resumePosition = min m.sink.minHead source.lowWatermark := by
    simp only [TeeSink.resumePosition, floor]
  have nothing : readSoFar source source.lowWatermark = [] := Window.between_self
  simp only [Mirror.bootstrap, Mirror.onSink, Mirror.onSource, wp_bind, wp_focus, wp_ensure,
    wp_get, wp_ite, wp_pure, wp_throw]
  refine wp_mono (wp_and (nextExpectedOffset_fed fed) (wp_and TeeSink.nextExpectedOffset_cache
    TeeSink.nextExpectedOffset_holes)) ?_ (fun e _ _ cut => by simp [Halt.cutOff] at cut)
  rintro next tee₁ ⟨⟨fed₁, same₁, at_resume, _⟩, ⟨cached₁, _⟩, holes₁⟩
  refine wp_mono (LogSource.lowWatermark_spec m.source) ?_
    (fun e _ _ cut => by simp [Halt.cutOff] at cut)
  rintro answered source₁ ⟨log₁, low₁⟩
  refine wp_mono (LogSource.highWatermark_spec source₁) (fun high source₂ log₂ => ?_)
    (fun e _ _ cut => by simp [Halt.cutOff] at cut)
  refine wp_mono (wp_and (furthestNextOffset_fed fed₁) (wp_and TeeSink.furthestNextOffset_cache
    TeeSink.furthestNextOffset_holes)) ?_
    (fun e _ _ cut => by simp [Halt.cutOff] at cut)
  rintro furthest tee₂ ⟨⟨fed₂, same₂⟩, cached₂, holes₂⟩
  have intolerant : Sink.allowsOffsetHoles tee₂ = false := holes₂.trans (holes₁.trans holes)
  have at_slowest : next = min m.sink.minHead source.lowWatermark := at_resume.trans resumes
  rw [at_slowest, low₁.trans low]
  split
  · split
    · -- A destination that takes no holes is not aligned past records it has not got.
      rename_i below
      split
      · rename_i allows
        exact absurd allows (TeeSink.not_allowsCompactedSource intolerant)
      · intro _ reached
        omega
    · rename_i reached
      have here : min m.sink.minHead source.lowWatermark = source.lowWatermark := by omega
      rw [here]
      refine wp_mono (LogSource.seek_spec source.lowWatermark source₂) ?_
        (fun e _ _ cut => by simp [Halt.cutOff] at cut)
      rintro _ source₃ ⟨log₃, moved⟩
      refine ⟨⟨?_, moved, ?_⟩, rfl, by omega⟩
      · exact ⟨log₃.1.trans (log₂.1.trans (log₁.1.trans log)),
          log₃.2.trans (log₂.2.trans (log₁.2.trans low))⟩
      · refine ⟨Nat.le_refl _, ?_, ?_, ?_, ?_, intolerant, fun offset low below => by omega⟩
        · rw [nothing]
          exact fun inner mem => (fed₂ inner mem).of_start
        · show tee₂.inners.map _ = openings
          exact ((map_eq_of_forall₂ same₂ fun _ _ kept => kept.1).trans
            (map_eq_of_forall₂ same₁ fun _ _ kept => kept.1)).trans openings_eq
        · rw [nothing]
          exact untold
        · rw [nothing]
          exact cached₂.trans (cached₁.trans cached)
  · intro cut
    simp [Halt.cutOff] at cut

end Replaying

section Progress

variable {K N : Type} [Sink K] [LawfulSink K] [FixedHoles K] [Notifier N] {start : CacheBinding}
  {source : LogSource} {openings : List Nat} {expected : Nat}
  {m : Mirror LogSource (TeeSink (Recorded K)) (Notified N)}

/-- How many polls of a run are answered with a record, while the source has one. -/
def readingPolls : Stream' SourceAnswer → List LoopEvent → Nat
  | _, [] => 0
  | _, .shutdown :: _ => 0
  | answers, .heartbeat :: events => readingPolls answers events
  | answers, .poll :: events =>
    (if answers.head.idle then 0 else 1) + readingPolls answers.tail events

/-- The records a source has from a position on. -/
def LogSource.unread (s : LogSource) (position : Nat) : List Record :=
  s.log.between position (2 ^ 63)

/-- The next record is the first of those unread, and what follows it is unread after it. -/
theorem LogSource.unread_of_next {s : LogSource} {position : Nat} {record : Record}
    (found : s.log.next position = some record) :
    s.unread position = record :: s.unread (record.sourceOffset + 1) := by
  obtain ⟨mem, above⟩ := Log.of_next found
  have numbered := s.log.numbered record mem
  have here : s.log.between position (record.sourceOffset + 1) = [record] :=
    Window.between_firstFrom s.log.increasing found
  have split : s.log.between position (record.sourceOffset + 1)
      ++ s.log.between (record.sourceOffset + 1) (2 ^ 63) = s.log.between position (2 ^ 63) :=
    Window.between_append s.log.increasing (by omega) (by omega)
  rw [unread, ← split, here]
  rfl

/-- Where nothing is unread the source is at its end. -/
theorem LogSource.atEnd_of_unread {s : LogSource} (read : s.unread s.position = []) : s.AtEnd := by
  unfold AtEnd
  cases found : s.log.next s.position with
  | none => rfl
  | some record =>
    rw [LogSource.unread_of_next found] at read
    cases read

/-- At its end the source was read up to the last record. -/
theorem readSoFar_of_atEnd {s : LogSource} (same : LogSource.SameLog source s)
    (ended : s.AtEnd) : readSoFar source s.position = source.retained := by
  have below : ∀ r ∈ source.log.records, r.sourceOffset < s.position := by
    intro r mem
    have found : s.log.next s.position = none := ended
    rw [same.1] at found
    have := List.find?_eq_none.mp found r mem
    simpa using this
  refine List.filter_congr fun r mem => decide_eq_decide.mpr ?_
  have := below r mem
  have := source.log.numbered r mem
  constructor <;> exact fun bounds => ⟨bounds.1, by omega⟩

/-- A poll uses one answer, and reads a record unless it is idle or nothing is left. -/
theorem pollOne_reads (s : LogSource) :
    wp (Source.pollOne : Program SourceError LogSource _)
      (fun polled s' => s'.answers = s.answers.tail ∧ (s.answers.head.idle = false →
        polled = none → s.log.next s.position = none)) (fun _ _ => True) s := by
  show wp LogSource.pollOne _ _ s
  simp only [LogSource.pollOne, LogSource.request, wp_bind, wp_get, wp_set]
  cases s.answers.head.error with
  | some error => trivial
  | none =>
    simp only [wp_pure, wp_ite]
    split
    · rename_i idle
      exact ⟨trivial, fun active => absurd (idle.symm.trans active) (by decide)⟩
    · cases found : s.log.next s.position with
      | none => exact ⟨rfl, fun _ _ => rfl⟩
      | some record => exact ⟨rfl, fun _ none => by cases none⟩

omit [FixedHoles K] in
/-- A poll that is not idle leaves one record less unread. -/
theorem poll_reads (holds : Replaying start source openings expected m) :
    wp (Mirror.poll expected)
      (fun next m' => m'.source.answers = m.source.answers.tail
        ∧ (source.unread next).length
          ≤ (source.unread expected).length - (if m.source.answers.head.idle then 0 else 1))
      (fun _ _ => True) m := by
  simp only [Mirror.poll, Mirror.onSource, wp_bind, wp_focus]
  refine wp_mono (wp_and (LogSource.pollOne_spec m.source) (pollOne_reads m.source))
    ?_ (fun _ _ _ => trivial)
  rintro polled source' ⟨⟨_, outcome⟩, answers, active⟩
  cases polled with
  | none =>
    have ended : m.source.answers.head.idle = false → source.unread expected = [] := by
      intro busy
      have found := active busy rfl
      rw [holds.sameLog.1, holds.position] at found
      exact Window.between_of_firstFrom_none found
    simp only [Mirror.verifyIdle, Mirror.onSink, wp_bind, wp_focus, wp_ensure, wp_pure]
    refine wp_any (fun current tee => ?_) (fun _ _ => trivial)
    split
    · refine ⟨answers, ?_⟩
      cases idle : m.source.answers.head.idle with
      | true => simp
      | false => simp [ended idle]
    · trivial
  | some record =>
    have found : source.log.next expected = some record := by
      rw [← holds.sameLog.1, ← holds.position]
      exact outcome.1
    have fewer : (source.unread (record.sourceOffset + 1)).length
        ≤ (source.unread expected).length - (if m.source.answers.head.idle then 0 else 1) := by
      rw [LogSource.unread_of_next found, List.length_cons]
      split <;> omega
    simp only [Mirror.deliver, Mirror.onSink, Mirror.onNotifier, wp_bind, wp_get, wp_focus,
      wp_ensure, wp_pure]
    split
    · split
      · refine wp_any (fun _ tee => ?_) (fun _ _ => trivial)
        split
        · exact wp_any (fun _ _ => ⟨answers, fewer⟩) (fun _ _ => trivial)
        · trivial
      · trivial
    · trivial

/-- Polls enough to read every record leave nothing unread, if the run goes that far. -/
theorem loop_reads (events : List LoopEvent) :
    ∀ {expected} {m : Mirror LogSource (TeeSink (Recorded K)) (Notified N)},
      Replaying start source openings expected m →
      (source.unread expected).length ≤ readingPolls m.source.answers events →
      wp (Mirror.loop events expected) (fun _ m' => m'.source.AtEnd) (fun _ _ => True) m := by
  have ends : ∀ {expected} {m : Mirror LogSource (TeeSink (Recorded K)) (Notified N)},
      Replaying start source openings expected m → (source.unread expected).length ≤ 0 →
      m.source.AtEnd := by
    intro expected m holds none
    refine LogSource.atEnd_of_unread ?_
    have empty : source.unread expected = [] := List.length_eq_zero_iff.mp (Nat.le_zero.mp none)
    rw [LogSource.unread, holds.sameLog.1, holds.position]
    exact empty
  induction events with
  | nil =>
    intro expected m holds enough
    exact ends holds enough
  | cons event events ih =>
    intro expected m holds enough
    cases event with
    | shutdown =>
      simp only [Mirror.loop, wp_bind, wp_modify]
      have dropped : Replaying start source openings expected (Mirror.abandonPoll m) :=
        ⟨holds.sameLog, holds.position, holds.read⟩
      refine wp_mono (stop_handedOut dropped) ?_ (fun _ _ _ => trivial)
      rintro _ m' ⟨_, kept⟩
      rw [wp_pure, kept]
      exact ends dropped enough
    | heartbeat =>
      simp only [Mirror.loop, wp_bind, wp_modify]
      exact ih ⟨holds.sameLog, holds.position, holds.read⟩ enough
    | poll =>
      simp only [Mirror.loop, wp_bind]
      refine wp_mono (wp_and (poll_replaying holds) (poll_reads holds))
        ?_ (fun _ _ _ => trivial)
      rintro next m' ⟨kept, answers, fewer⟩
      refine ih kept ?_
      rw [answers]
      simp only [readingPolls] at enough
      omega

/-- A request uses one answer. -/
theorem request_reads (s : LogSource) :
    wp LogSource.request (fun _ s' => s'.answers = s.answers.tail) (fun _ _ => True) s := by
  simp only [LogSource.request, wp_bind, wp_get, wp_set]
  cases s.answers.head.error <;> trivial

omit [LawfulSink K] [FixedHoles K] [Notifier N] in
/-- The startup asks the source three times. -/
theorem bootstrap_reads :
    wp Mirror.bootstrap (fun _ m' => m'.source.answers = m.source.answers.tail.tail.tail)
      (fun _ _ => True) m := by
  have seeks : ∀ (offset : Nat) (s : LogSource), s.answers = m.source.answers.tail.tail →
      wp (Source.seek offset : Program SourceError LogSource Unit)
        (fun _ s' => s'.answers = m.source.answers.tail.tail.tail) (fun _ _ => True) s := by
    intro offset s two
    show wp (LogSource.request >>= _) _ _ s
    simp only [wp_bind, wp_modify]
    exact wp_mono (request_reads s) (fun _ s' one => one.trans (congrArg Stream'.tail two))
      (fun _ _ _ => trivial)
  simp only [Mirror.bootstrap, Mirror.onSink, Mirror.onSource, wp_bind, wp_focus, wp_ensure,
    wp_get, wp_ite, wp_pure, wp_throw]
  refine wp_any (fun sinkStart tee₁ => ?_) (fun _ _ => trivial)
  show wp (LogSource.request >>= _) _ _ m.source
  simp only [wp_bind, wp_get, wp_pure]
  refine wp_mono (request_reads m.source) (fun _ source₁ one => ?_) (fun _ _ _ => trivial)
  show wp (LogSource.request >>= _) _ _ source₁
  simp only [wp_bind, wp_pure]
  refine wp_mono (request_reads source₁) (fun _ source₂ two => ?_) (fun _ _ _ => trivial)
  have two : source₂.answers = m.source.answers.tail.tail :=
    two.trans (congrArg Stream'.tail one)
  refine wp_any (fun furthest tee₂ => ?_) (fun _ _ => trivial)
  split
  · split
    · split
      · exact wp_any (fun _ _ => seeks _ source₂ two) (fun _ _ => trivial)
      · trivial
    · exact seeks _ source₂ two
  · trivial

end Progress

section Claim

variable {K N : Type} [Sink K] [LawfulSink K] [FixedHoles K] [Notifier N]

/-- Everybody has everything: the view and the observer each retained record, and each
destination those from its head on. -/
structure Replayed (start : CacheBinding) (source : LogSource) (full : Log) (openings : List Nat)
    (m : Mirror LogSource (TeeSink (Recorded K)) (Notified N)) : Prop where
  cache : m.sink.cache = some (start.applyAll source.retained)
  notified : m.notifier.notified = source.retained
  openings : m.sink.inners.map (·.sink.opening) = openings
  accepted : ∀ inner ∈ m.sink.inners,
    inner.sink.accepted = due inner.sink.opening source.retained
  /-- Where no record was removed from a head on, its destination has all there were. -/
  whole : ∀ inner ∈ m.sink.inners,
    (∀ r ∈ full.records, inner.sink.opening ≤ r.sourceOffset → r ∈ source.log.records) →
    inner.sink.accepted = due inner.sink.opening full.records

/-- A run that ends without a gap, and with everything given to everybody once it read it all. -/
def Replays (start : CacheBinding) (full : Log) (events : List LoopEvent)
    (m : Mirror LogSource (TeeSink (Recorded K)) (Notified N)) : Prop :=
  wp (Mirror.runMirrorWithNotifier events)
    (fun _ m' =>
      (m'.source.AtEnd → Replayed start m.source full (m.sink.heads.map (·.2)) m')
        ∧ (m.source.retained.length ≤ readingPolls m.source.answers.tail.tail.tail events →
          m'.source.AtEnd))
    (fun halt _ => halt.cutOff = false) m

/-- Records that were all retained are due from the retained log as from the full one. -/
theorem due_retained {full : Log} {source : LogSource} {opening : Nat}
    (compacted : source.log.records.Sublist full.records)
    (fromLow : source.lowWatermark ≤ opening)
    (spared : ∀ r ∈ full.records, opening ≤ r.sourceOffset → r ∈ source.log.records) :
    due opening source.retained = due opening full.records := by
  have retained : due opening source.retained = due opening source.log.records := by
    simp only [due, LogSource.retained, Log.between, Window.between, List.filter_filter]
    refine List.filter_congr fun r mem => ?_
    have := source.log.numbered r mem
    simp only [← Bool.decide_and, decide_eq_decide]
    omega
  have part : (due opening source.log.records).Sublist (due opening full.records) :=
    compacted.filter _
  have nodup : (due opening full.records).Nodup :=
    (full.increasing.sublist List.filter_sublist).imp fun less same => by
      rw [same] at less
      exact Nat.lt_irrefl _ less
  have every : due opening full.records ⊆ due opening source.log.records := by
    intro r mem
    obtain ⟨listed, above⟩ := List.mem_filter.mp mem
    exact List.mem_filter.mpr ⟨spared r listed (by simpa using above), above⟩
  rw [retained]
  exact part.eq_of_length_le (List.subperm_of_subset nodup every).length_le

omit [Sink K] [LawfulSink K] [FixedHoles K] [Notifier N] in
/-- At the end of the log everybody has everything. -/
theorem replayed_of_handedOut {start : CacheBinding} {source : LogSource} {full : Log}
    {tee : TeeSink (Recorded K)} {m : Mirror LogSource (TeeSink (Recorded K)) (Notified N)}
    (compacted : source.log.records.Sublist full.records)
    (above : source.lowWatermark ≤ tee.minHead)
    (given : HandedOut start source (tee.heads.map (·.2)) m) (ended : m.source.AtEnd) :
    Replayed start source full (tee.heads.map (·.2)) m := by
  have read := readSoFar_of_atEnd given.sameLog ended
  obtain ⟨sameLog, served, notified, cache, -⟩ := given
  rw [read] at served notified cache
  refine ⟨cache, notified, served.openings, served.accepted, fun inner mem spared => ?_⟩
  -- A destination's opening head is the head of one of the tee's.
  have opened : inner.sink.opening ∈ tee.heads.map (·.2) :=
    served.openings ▸ List.mem_map_of_mem mem
  simp only [TeeSink.heads, List.map_map, List.mem_map, Function.comp] at opened
  obtain ⟨slot, listed, same⟩ := opened
  have := TeeSink.minHead_le listed
  rw [served.accepted inner mem]
  exact due_retained compacted (by omega) spared

section Reopened

variable {start : CacheBinding} {sinks : List (String × K)} {tee : TeeSink (Recorded K)}
  {left : List (InnerSink (Recorded K))} {source : LogSource}

/-- A tee just opened for a mirror that serves a cache, with its floor at the low watermark. -/
def reopened (source : LogSource) (tee : TeeSink (Recorded K)) (notifier : N) :
    Mirror LogSource (TeeSink (Recorded K)) (Notified N) :=
  ⟨source, tee.withFloor (some source.lowWatermark), ⟨notifier, []⟩⟩

omit [Notifier N] in
/-- A run of a reopened mirror starts with everybody having nothing of the source yet. -/
theorem startup_replaying (owned : ∀ sink ∈ sinks, LawfulSink.owned sink.2)
    (opened : TeeSink.openTee (some start) (untouched sinks) = .ok tee left)
    (intolerant : ∃ inner ∈ tee.inners, Sink.allowsOffsetHoles inner.sink = false)
    (notifier : N) :
    wp Mirror.bootstrap
      (fun next m' => Replaying start source (tee.heads.map (·.2)) next m'
        ∧ next = source.lowWatermark ∧ source.lowWatermark ≤ tee.minHead)
      (fun halt _ => halt.cutOff = true → ¬ source.lowWatermark ≤ tee.minHead)
      (reopened source tee notifier) := by
  obtain ⟨fed, openings, -⟩ := wp_of_ok (openTee_fed owned) opened
  have cached : wp (TeeSink.openTee (some start)) (fun tee _ => tee.cache = some start)
      (fun _ _ => True) (untouched sinks) := by
    simp only [TeeSink.openTee, wp_bind, wp_get, wp_ensure, wp_pure]
    split
    · exact wp_any (fun _ _ => trivial) (fun _ _ => trivial)
    · trivial
  have kept := wp_of_ok cached opened
  have holes : Sink.allowsOffsetHoles tee = false := by
    obtain ⟨inner, mem, strict⟩ := intolerant
    exact List.all_eq_false.mpr ⟨inner, mem, by simp [strict]⟩
  exact bootstrap_replaying (m := reopened source tee notifier) rfl rfl rfl fed openings kept
    holes rfl

/--
A replay below the destinations succeeds when nothing is missing of what it reads.

It never ends for a hole, and gives everybody everything, when no destination is below the low
watermark and the log is unbroken from there. A run that reads to the end, and that nothing but a
hole could end, shows that this is so.
-/
theorem replay_iff_unbroken (owned : ∀ sink ∈ sinks, LawfulSink.owned sink.2)
    (opened : TeeSink.openTee (some start) (untouched sinks) = .ok tee left)
    (intolerant : ∃ inner ∈ tee.inners, Sink.allowsOffsetHoles inner.sink = false)
    {full : Log} (compacted : source.log.records.Sublist full.records) (notifier : N) :
    (source.lowWatermark ≤ tee.minHead ∧ source.log.Unbroken source.lowWatermark →
        ∀ events, Replays start full events (reopened source tee notifier))
      ∧ ∀ events,
        source.retained.length ≤ readingPolls source.answers.tail.tail.tail events →
        wp (Mirror.runMirrorWithNotifier events) (fun _ _ => True)
          (fun halt _ => halt.cutOff = true) (reopened source tee notifier) →
        Replays start full events (reopened source tee notifier) →
        source.lowWatermark ≤ tee.minHead ∧ source.log.Unbroken source.lowWatermark := by
  have started := wp_and (startup_replaying owned opened intolerant notifier)
    (bootstrap_reads (m := reopened source tee notifier))
  constructor
  · rintro ⟨above, unbroken⟩ events
    simp only [Replays, Mirror.runMirrorWithNotifier, wp_bind]
    refine wp_mono started ?_ ?_
    · rintro next m ⟨⟨holds, at_low, _⟩, answers⟩
      subst at_low
      have ran := loop_handedOut events holds
      have reads : source.retained.length ≤ readingPolls source.answers.tail.tail.tail events →
          wp (Mirror.loop events source.lowWatermark) (fun _ m' => m'.source.AtEnd)
            (fun _ _ => True) m := by
        intro enough
        refine loop_reads events holds ?_
        rw [answers]
        exact enough
      refine wp_intro (fun progress m' run => ⟨fun ended => ?_, fun enough => ?_⟩)
        (fun halt m' run => ?_)
      · have given := wp_of_ok ran run
        exact replayed_of_handedOut compacted above given ended
      · have ended := wp_of_ok (reads enough) run
        exact ended
      · cases cut : halt.cutOff with
        | false => rfl
        | true => exact absurd unbroken (wp_of_error ran run cut)
    · rintro halt _ ⟨failed, _⟩
      cases cut : halt.cutOff with
      | false => rfl
      | true => exact absurd above (failed cut)
  · intro events enough unhindered replays
    have begins : wp (Mirror.runMirrorWithNotifier events)
        (fun _ m' => HandedOut start source (tee.heads.map (·.2)) m'
          ∧ source.lowWatermark ≤ tee.minHead) (fun _ _ => True) (reopened source tee notifier) := by
      simp only [Mirror.runMirrorWithNotifier, wp_bind]
      refine wp_mono started ?_ (fun _ _ _ => trivial)
      rintro next m ⟨⟨holds, _, above⟩, _⟩
      exact wp_mono (loop_handedOut events holds) (fun _ _ given => ⟨given, above⟩)
        (fun _ _ _ => trivial)
    -- Nothing but a hole ends this run, and no hole does, so it ends where the log does.
    cases run : Mirror.runMirrorWithNotifier events (reopened source tee notifier) with
    | error halt m' =>
      have cut := wp_of_error unhindered run
      have uncut := wp_of_error replays run
      exact absurd (cut.symm.trans uncut) (by decide)
    | ok progress m' =>
      obtain ⟨given, above⟩ := wp_of_ok begins run
      have ended := (wp_of_ok replays run).2 enough
      refine ⟨above, fun r mem offset low below => given.whole offset low ?_⟩
      -- At its end the source was read past its last record.
      have found : m'.source.log.next m'.source.position = none := ended
      rw [given.sameLog.1] at found
      have passed := List.find?_eq_none.mp found r mem
      have : r.sourceOffset < m'.source.position := by simpa using passed
      omega

end Reopened

end Claim

namespace Sample

/-- A log of four records, one at every offset. -/
def fourRecords : Log where
  records := [keyed 0, keyed 1, keyed 2, keyed 3]
  increasing := by simp [keyed]
  numbered := by simp [keyed]

/-- That log after records below the third were removed, behind a broker that always answers. -/
def compactedTo (kept : List Nat) (low : Nat) : LogSource where
  log :=
    { records := fourRecords.records.filter fun r => r.sourceOffset ∈ kept
      increasing := fourRecords.increasing.sublist List.filter_sublist
      numbered := fun r mem => fourRecords.numbered r (List.mem_filter.mp mem).1 }
  position := 0
  lowWatermark := low
  answers _ := ⟨none, false, 4⟩

/-- A Kafka destination that has the first three records. -/
def threeProduced : KafkaSink Partition :=
  ⟨⟨[keyed 0, keyed 1, keyed 2].map kafka.futureRecord, fun _ => ⟨none, false, false⟩⟩,
    producerConfig "broker:9092", watermarkConfig "broker:9092", kafka, none⟩

/-- The tee over it, for a mirror that serves a cache. -/
def toKafka : TeeSink (Recorded (KafkaSink Partition)) :=
  ⟨[⟨"kafka", .start threeProduced, 3⟩], some serving, none⟩

/-- Opened, the tee has the head its destination answers. -/
theorem opened_toKafka :
    TeeSink.openTee (some serving) (untouched [("kafka", threeProduced)])
      = .ok toKafka toKafka.inners := rfl

/-- Trimmed up to the second record, the log is read again and the last record produced. -/
theorem replay_iff_unbroken_sample :
    Replays serving fourRecords [.poll, .poll, .poll, .shutdown]
      (reopened (compactedTo [1, 2, 3] 1) toKafka NoOpNotifier.mk) := by
  have owned : ∀ sink ∈ [("kafka", threeProduced)], LawfulSink.owned sink.2 := by
    intro sink mem
    obtain rfl := List.mem_singleton.mp mem
    exact producerConfig_noRetries "broker:9092"
  refine (replay_iff_unbroken owned opened_toKafka ⟨_, List.mem_singleton_self _, rfl⟩
    List.filter_sublist NoOpNotifier.mk).1 ⟨by decide, ?_⟩ _
  intro r mem offset low below
  have records : (compactedTo [1, 2, 3] 1).log.records = [keyed 1, keyed 2, keyed 3] := by decide
  rw [records] at mem ⊢
  have low : 1 ≤ offset := low
  have last : ∀ r ∈ [keyed 1, keyed 2, keyed 3], r.sourceOffset ≤ 3 := by decide
  have := last r mem
  -- Each offset in between has its record.
  simp only [List.mem_cons, List.not_mem_nil, or_false, exists_eq_or_imp, exists_eq_left, keyed]
  omega

/-- With the second record gone the replay ends at the third, which the destination has. -/
theorem replay_fails_on_hole :
    (∃ m, Mirror.runMirrorWithNotifier [.poll, .poll, .poll]
        (reopened (compactedTo [0, 2, 3] 0) toKafka NoOpNotifier.mk)
      = .error (.failed (.sourceGapAboveExpected 1 2)) m)
    ∧ ¬ Replays serving fourRecords [.poll, .poll, .poll]
      (reopened (compactedTo [0, 2, 3] 0) toKafka NoOpNotifier.mk) := by
  have failed : (match Mirror.runMirrorWithNotifier [.poll, .poll, .poll]
      (reopened (compactedTo [0, 2, 3] 0) toKafka NoOpNotifier.mk) with
    | .error halt _ => halt == .failed (.sourceGapAboveExpected 1 2)
    | .ok _ _ => false) = true := by decide +kernel
  cases run : Mirror.runMirrorWithNotifier [.poll, .poll, .poll]
      (reopened (compactedTo [0, 2, 3] 0) toKafka NoOpNotifier.mk) with
  | ok progress m =>
    rw [run] at failed
    cases failed
  | error halt m =>
    rw [run] at failed
    obtain rfl := eq_of_beq failed
    refine ⟨⟨m, rfl⟩, fun replays => ?_⟩
    have uncut := wp_of_error replays run
    exact absurd uncut (by decide)

end Sample

end MirrorV3
