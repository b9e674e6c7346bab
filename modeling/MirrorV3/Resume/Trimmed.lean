import MirrorV3.Core.RunLoop
import MirrorV3.Envelope.Sample
import MirrorV3.Fs.Store
import MirrorV3.Resume.Settled

/-! Starting a tee on a source that was trimmed past some of its destinations. -/

namespace MirrorV3

open Effect

variable {K N : Type} [Sink K] [LawfulSink K] {settled : K → Prop}

/-- A slot of a tee that was just opened, with the head its destination answered. -/
structure Opened (settled : K → Prop) (inner : InnerSink K) : Prop where
  settled : settled inner.sink
  head : inner.head = LawfulSink.position inner.sink

/-- A slot that was asked something, and stands where it stood. -/
structure Asked (settled : K → Prop) (before after : InnerSink K) : Prop where
  opened : Opened settled after
  head : after.head = before.head
  allows : Sink.allowsCompactedSource after.sink = Sink.allowsCompactedSource before.sink

namespace Asked

variable {first second third : InnerSink K}

/-- Two questions are like one. -/
theorem trans (one : Asked settled first second) (other : Asked settled second third) :
    Asked settled first third :=
  ⟨other.opened, other.head.trans one.head, other.allows.trans one.allows⟩

end Asked

section Slots

variable {inner : InnerSink K}

/-- Asked for its position, a destination confirms its head. -/
theorem refreshHead_asked (answering : Answering settled) (opened : Opened settled inner) :
    wp InnerSink.refreshHead (fun _ inner' => Asked settled inner inner') (fun _ _ => False)
      inner := by
  simp only [InnerSink.refreshHead, wp_bind, wp_focus, wp_get, wp_ensure, wp_set]
  refine wp_mono (answering.nextExpectedOffset inner.sink opened.settled)
    (fun next sink ⟨settled, position, allows, answered⟩ => ?_) (fun _ _ failed => failed)
  have same : next = inner.head := answered.trans opened.head.symm
  have kept : (InnerSink.sinkPart.set sink inner).head = inner.head := rfl
  rw [if_pos (Nat.le_of_eq (kept.trans same.symm))]
  exact ⟨⟨settled, same.trans (opened.head.trans position.symm)⟩, same, allows⟩

/-- Asked for its furthest part, a destination tells its head. -/
theorem furthest_asked (answering : Answering settled) (opened : Opened settled inner) :
    wp InnerSink.furthest (fun furthest inner' => Asked settled inner inner'
      ∧ furthest = inner.head) (fun _ _ => False) inner := by
  simp only [InnerSink.furthest, wp_bind, wp_focus, wp_get, wp_pure]
  refine wp_mono (answering.furthestNextOffset inner.sink opened.settled)
    (fun furthest sink ⟨settled, position, allows, answered⟩ => ?_) (fun _ _ failed => failed)
  refine ⟨⟨⟨settled, opened.head.trans position.symm⟩, rfl, allows⟩, ?_⟩
  show furthest.getD inner.head = inner.head
  rw [opened.head, answered]

/-- What an alignment that succeeded leaves of a slot, whose head the tee moves afterwards. -/
structure Aligned (settled : K → Prop) (lowWatermark : Nat) (before after : InnerSink K) :
    Prop where
  settled : settled after.sink
  position : LawfulSink.position after.sink = lowWatermark
  allows : Sink.allowsCompactedSource after.sink = Sink.allowsCompactedSource before.sink

/-- A destination is aligned, or it refuses since it stands above already. -/
theorem align_aligned (answering : Answering settled) {lowWatermark : Nat}
    (opened : Opened settled inner) (allows : Sink.allowsCompactedSource inner.sink = true) :
    wp (InnerSink.align lowWatermark) (fun _ inner' => Aligned settled lowWatermark inner inner')
      (fun _ _ => lowWatermark < inner.head) inner := by
  simp only [InnerSink.align, wp_bind, wp_get, wp_focus]
  exact wp_mono (answering.align lowWatermark inner.sink opened.settled allows)
    (fun _ sink ⟨settled, position, same⟩ => ⟨settled, position, same⟩)
    (fun _ _ above => opened.head ▸ above)

/-- A slot that passes its destination exactly the records from a position on, which it takes. -/
structure TakesFrom (lowest : Nat) (inner : InnerSink K) : Prop where
  head : inner.head = lowest
  position : LawfulSink.position inner.sink = lowest
  /-- A record below the position reaches nobody. -/
  below : ∀ record : Record, record.sourceOffset < lowest →
    wp (InnerSink.write record) (fun _ inner' => inner' = inner) (fun _ _ => False) inner
  /-- The first record at or above the position is not refused for its offset. -/
  above : ∀ record : Record, lowest ≤ record.sourceOffset →
    wp (Sink.write record) (fun _ _ => True) (fun e _ => e.refusesPosition = false) inner.sink

/-- A slot in step with a destination that answers takes records from its head on. -/
theorem Opened.takesFrom (answering : Answering settled) (opened : Opened settled inner)
    (allows : Sink.allowsCompactedSource inner.sink = true) : TakesFrom inner.head inner where
  head := rfl
  position := opened.head.symm
  below record low := by
    simp only [InnerSink.write, wp_bind, wp_get, wp_ite, wp_pure]
    rw [if_neg (Nat.not_le_of_lt low)]
    trivial
  above record high := answering.write record inner.sink opened.settled allows (opened.head ▸ high)

end Slots

/-- The greatest of positions that are all below a bound is below it as well. -/
theorem foldl_max_le {positions : List Nat} {first bound : Nat} (start : first ≤ bound)
    (each : ∀ p ∈ positions, p ≤ bound) : positions.foldl max first ≤ bound := by
  induction positions generalizing first with
  | nil => exact start
  | cons p rest ih =>
    have here := each p List.mem_cons_self
    exact ih (by omega) fun q mem => each q (List.mem_cons_of_mem _ mem)

section Tee

variable {tee : TeeSink K}

/-- A tee resumes where it did when no head and no cursor moved. -/
theorem resumePosition_of_asked {tee' : TeeSink K}
    (asked : List.Forall₂ (Asked settled) tee.inners tee'.inners)
    (cursor : tee'.resumeCursor = tee.resumeCursor) :
    tee'.resumePosition = tee.resumePosition := by
  have heads : tee'.inners.map (·.head) = tee.inners.map (·.head) :=
    map_eq_of_forall₂ asked fun _ _ step => step.head
  simp only [TeeSink.resumePosition, TeeSink.minHead, heads, cursor]

/-- Asked for its position, a tee answers where it resumes. -/
theorem nextExpectedOffset_asked (answering : Answering settled)
    (opened : ∀ inner ∈ tee.inners, Opened settled inner) :
    wp (Sink.nextExpectedOffset : Program SinkError (TeeSink K) _)
      (fun next tee' => List.Forall₂ (Asked settled) tee.inners tee'.inners
        ∧ tee'.resumeCursor = tee.resumeCursor ∧ next = tee.resumePosition)
      (fun _ _ => False) tee := by
  show wp (do
    let _ ← focus TeeSink.innersPart id (forEach InnerSink.refreshHead)
    return (← get).resumePosition) _ _ tee
  simp only [wp_bind, wp_focus, wp_get, wp_pure]
  have each : ∀ inner ∈ tee.inners, wp InnerSink.refreshHead
      (fun _ inner' => Asked settled inner inner' ∧ True) (fun _ _ => False) inner :=
    fun inner mem => wp_mono (refreshHead_asked answering (opened inner mem))
      (fun _ _ asked => ⟨asked, trivial⟩) (fun _ _ failed => failed)
  exact wp_mono (wp_forEach_total each)
    (fun _ inners ⟨asked, _⟩ => ⟨asked, rfl, resumePosition_of_asked asked rfl⟩)
    (fun _ _ failed => failed)

/-- Asked for its furthest part, a tee tells no more than the highest head. -/
theorem furthestNextOffset_asked (answering : Answering settled) {high : Nat}
    (opened : ∀ inner ∈ tee.inners, Opened settled inner)
    (below : ∀ inner ∈ tee.inners, inner.head ≤ high) :
    wp (Sink.furthestNextOffset : Program SinkError (TeeSink K) _)
      (fun furthest tee' => List.Forall₂ (Asked settled) tee.inners tee'.inners
        ∧ tee'.resumeCursor = tee.resumeCursor ∧ ∃ far, furthest = some far ∧ far ≤ high)
      (fun _ _ => False) tee := by
  show wp (do
    let heads ← focus TeeSink.innersPart id (forEach InnerSink.furthest)
    return some (heads.foldl max 0)) _ _ tee
  simp only [wp_bind, wp_focus, wp_pure]
  have each : ∀ inner ∈ tee.inners, wp InnerSink.furthest
      (fun furthest inner' => Asked settled inner inner' ∧ inner'.head = furthest)
      (fun _ _ => False) inner :=
    fun inner mem => wp_mono (furthest_asked answering (opened inner mem))
      (fun _ _ ⟨asked, told⟩ => ⟨asked, asked.head.trans told.symm⟩) (fun _ _ failed => failed)
  refine wp_mono (wp_forEach_total each)
    (fun heads inners ⟨asked, told⟩ => ⟨asked, rfl, _, rfl, ?_⟩) (fun _ _ failed => failed)
  -- What the inner sinks told are the heads they had.
  have values : inners.map (·.head) = heads := by
    rw [← List.forall₂_eq_eq_eq, List.forall₂_map_left_iff]
    exact told
  have same : inners.map (·.head) = tee.inners.map (·.head) :=
    map_eq_of_forall₂ asked fun _ _ step => step.head
  rw [← values, same]
  refine foldl_max_le (Nat.zero_le high) fun head mem => ?_
  obtain ⟨inner, listed, rfl⟩ := List.mem_map.mp mem
  exact below inner listed

/-- A tee is aligned, or one of its destinations stands above already and refuses. -/
theorem align_aligned_tee (answering : Answering settled) {lowWatermark : Nat}
    (opened : ∀ inner ∈ tee.inners, Opened settled inner)
    (allows : ∀ inner ∈ tee.inners, Sink.allowsCompactedSource inner.sink = true) :
    wp (Sink.alignToSourceLowWatermark lowWatermark : Program SinkError (TeeSink K) _)
      (fun _ tee' => List.Forall₂ (fun inner inner' => Opened settled inner'
          ∧ inner'.head = lowWatermark
          ∧ Sink.allowsCompactedSource inner'.sink = Sink.allowsCompactedSource inner.sink)
          tee.inners tee'.inners
        ∧ tee'.resumeCursor = tee.resumeCursor)
      (fun _ _ => ∃ inner ∈ tee.inners, lowWatermark < inner.head) tee := by
  show wp (do
    focus TeeSink.innersPart id (forAll (InnerSink.align lowWatermark))
    modify fun s => { s with inners := s.inners.map ({ · with head := lowWatermark }) }) _ _ tee
  simp only [wp_bind, wp_focus, wp_modify]
  have each : ∀ inner ∈ tee.inners, wp (InnerSink.align lowWatermark)
      (fun _ inner' => Aligned settled lowWatermark inner inner')
      (fun _ _ => (∃ inner ∈ tee.inners, lowWatermark < inner.head) ∧ True) inner :=
    fun inner mem => wp_mono (align_aligned answering (opened inner mem) (allows inner mem))
      (fun _ _ aligned => aligned) (fun _ _ above => ⟨⟨inner, mem, above⟩, trivial⟩)
  refine wp_mono (wp_forAll (fun _ => ∃ inner ∈ tee.inners, lowWatermark < inner.head)
    (fun _ _ _ => trivial) each) (fun _ inners aligned => ⟨?_, rfl⟩) (fun _ _ failed => failed.1)
  rw [List.forall₂_map_right_iff]
  exact aligned.imp fun _ _ step => ⟨⟨step.settled, step.position.symm⟩, rfl, step.allows⟩

end Tee

/-- Slots that were asked something are those of the destinations they were. -/
theorem opened_of_asked {inners inners' : List (InnerSink K)}
    (asked : List.Forall₂ (Asked settled) inners inners') :
    ∀ inner' ∈ inners', Opened settled inner' :=
  forall_mem_of_forall₂ asked fun _ _ step => step.opened

/-- Slots that were asked something stand no higher than they stood. -/
theorem below_of_asked {inners inners' : List (InnerSink K)} {high : Nat}
    (asked : List.Forall₂ (Asked settled) inners inners')
    (below : ∀ inner ∈ inners, inner.head ≤ high) : ∀ inner' ∈ inners', inner'.head ≤ high := by
  intro inner' mem
  obtain ⟨inner, listed, step⟩ := exists_of_forall₂ asked mem
  exact step.head ▸ below inner listed

/-- A tee that was asked something does with a compacted source what it did. -/
theorem allows_of_asked {tee tee' : TeeSink K}
    (asked : List.Forall₂ (Asked settled) tee.inners tee'.inners) :
    Sink.allowsCompactedSource tee' = Sink.allowsCompactedSource tee := by
  have same : tee'.inners.map (fun inner => Sink.allowsCompactedSource inner.sink)
      = tee.inners.map fun inner => Sink.allowsCompactedSource inner.sink :=
    map_eq_of_forall₂ asked fun _ _ step => step.allows
  show (tee'.inners.all fun inner => Sink.allowsCompactedSource inner.sink)
    = tee.inners.all fun inner => Sink.allowsCompactedSource inner.sink
  have all : ∀ inners : List (InnerSink K),
      (inners.all fun inner => Sink.allowsCompactedSource inner.sink)
        = (inners.map fun inner => Sink.allowsCompactedSource inner.sink).all id := by
    intro inners
    rw [List.all_map]
    rfl
  rw [all, all, same]

section Startup

/-- A mirror whose tee was just opened, on a source that answers for a log that reaches it. -/
structure Starting (settled : K → Prop) (m : Mirror LogSource (TeeSink K) N) : Prop where
  nonempty : m.sink.inners ≠ []
  opened : ∀ inner ∈ m.sink.inners, Opened settled inner
  high : ∃ high, m.source.Answers high ∧ ∀ inner ∈ m.sink.inners, inner.head ≤ high

/-- How the startup of a mirror on a trimmed source ends. -/
def Bootstrapped (settled : K → Prop) (m : Mirror LogSource (TeeSink K) N) (expected : Nat)
    (m' : Mirror LogSource (TeeSink K) N) : Prop :=
  m'.source.position = expected ∧ m'.sink.resumeCursor = m.sink.resumeCursor ∧
    (m.source.lowWatermark ≤ m.sink.resumePosition ∧ expected = m.sink.resumePosition
        ∧ List.Forall₂ (Asked settled) m.sink.inners m'.sink.inners
      ∨ m.sink.resumePosition < m.source.lowWatermark ∧ expected = m.source.lowWatermark
        ∧ Sink.allowsCompactedSource m.sink = true
        ∧ List.Forall₂ (fun inner inner' => Opened settled inner'
            ∧ inner'.head = m.source.lowWatermark
            ∧ Sink.allowsCompactedSource inner'.sink = Sink.allowsCompactedSource inner.sink)
          m.sink.inners m'.sink.inners)

/-- The startup resumes or aligns, and fails where it may not align or a destination refuses to. -/
theorem bootstrap_trimmed (answering : Answering settled) {m : Mirror LogSource (TeeSink K) N}
    (starting : Starting settled m) :
    wp Mirror.bootstrap (Bootstrapped settled m)
      (fun halt _ => m.sink.resumePosition < m.source.lowWatermark
        ∧ if Sink.allowsCompactedSource m.sink then
            (∃ e, halt = .failed (.sink e))
              ∧ ∃ inner ∈ m.sink.inners, m.source.lowWatermark < inner.head
          else ∃ start low below, halt = .failed (.sourceCompactedBelowExpected start low below))
      m := by
  obtain ⟨high, answers, reaches⟩ := starting.high
  simp only [Mirror.bootstrap, Mirror.onSink, Mirror.onSource, wp_bind, wp_focus, wp_ensure,
    wp_get, wp_ite, wp_pure, wp_throw]
  refine wp_mono (nextExpectedOffset_asked answering starting.opened)
    (fun next tee₁ ⟨asked₁, cursor₁, at_resume⟩ => ?_) (fun _ _ failed => failed.elim)
  refine wp_mono (LogSource.lowWatermark_answers answers)
    (fun low source₁ ⟨answers₁, at_low⟩ => ?_) (fun _ _ failed => failed.elim)
  refine wp_mono (LogSource.highWatermark_answers answers₁)
    (fun watermark source₂ ⟨answers₂, above⟩ => ?_) (fun _ _ failed => failed.elim)
  refine wp_mono (furthestNextOffset_asked answering (opened_of_asked asked₁)
    (below_of_asked asked₁ reaches)) (fun furthest tee₂ ⟨asked₂, cursor₂, far, told, bound⟩ => ?_)
    (fun _ _ failed => failed.elim)
  have asked : List.Forall₂ (Asked settled) m.sink.inners tee₂.inners :=
    forall₂_trans asked₁ asked₂ fun _ _ _ => Asked.trans
  have cursor : tee₂.resumeCursor = m.sink.resumeCursor := cursor₂.trans cursor₁
  -- No destination is above what the source has.
  rw [told, if_pos (by simpa using Nat.le_trans bound above), at_resume, at_low]
  have seeks := fun expected => LogSource.seek_answers expected answers₂
  have same : Sink.allowsCompactedSource tee₂ = Sink.allowsCompactedSource m.sink :=
    allows_of_asked asked
  split
  · rename_i trimmed
    split
    · rename_i allows
      have allows : Sink.allowsCompactedSource m.sink = true := same ▸ allows
      have every : ∀ inner ∈ tee₂.inners, Sink.allowsCompactedSource inner.sink = true :=
        List.all_eq_true.mp (same.trans allows)
      refine wp_mono (align_aligned_tee answering (opened_of_asked asked) every)
        (fun _ tee₃ ⟨aligned, cursor₃⟩ => ?_) (fun e _ refused => ⟨trimmed, ?_⟩)
      · refine wp_mono (seeks m.source.lowWatermark) (fun _ source₃ moved => ?_)
          (fun _ _ failed => failed.elim)
        refine ⟨moved, cursor₃.trans cursor, .inr ⟨trimmed, rfl, allows, ?_⟩⟩
        exact forall₂_trans asked aligned fun _ _ _ step aligned =>
          ⟨aligned.1, aligned.2.1, aligned.2.2.trans step.allows⟩
      · rw [if_pos allows]
        obtain ⟨inner', mem, higher⟩ := refused
        obtain ⟨inner, listed, step⟩ := exists_of_forall₂ asked mem
        exact ⟨⟨e, rfl⟩, inner, listed, step.head ▸ higher⟩
    · rename_i refused
      refine ⟨trimmed, ?_⟩
      rw [if_neg (same ▸ refused)]
      exact ⟨_, _, _, rfl⟩
  · rename_i reached
    refine wp_mono (seeks m.sink.resumePosition) (fun _ source₃ moved => ?_)
      (fun _ _ failed => failed.elim)
    exact ⟨moved, cursor, .inl ⟨Nat.le_of_not_lt reached, rfl, asked⟩⟩

/--
A startup that a trimmed source does not disturb without need.

It fails for the source's sake only where a destination misses records, and with destinations that
can do without them it succeeds, leaves each at the later of its head and the low watermark, and
the loop where the tee stands.
-/
def StartsTrimmed (m : Mirror LogSource (TeeSink K) N) : Prop :=
  wp Mirror.bootstrap
    (fun _ m' => Sink.allowsCompactedSource m.sink = true →
      List.Forall₂ (fun inner inner' => TakesFrom (max inner.head m.source.lowWatermark) inner')
          m.sink.inners m'.sink.inners
        ∧ wp Sink.nextExpectedOffset (fun next _ => next = m'.source.position) (fun _ _ => False)
            m'.sink)
    (fun halt _ => Sink.allowsCompactedSource m.sink = false
      ∧ ((∃ start low below, halt = .failed (.sourceCompactedBelowExpected start low below)) →
        ∃ inner ∈ m.sink.inners, Sink.allowsCompactedSource inner.sink = false
          ∧ inner.head < m.source.lowWatermark))
    m

/-- The states in which the startup does what a trimmed source asks of it. -/
def FitsTrimmed (m : Mirror LogSource (TeeSink K) N) : Prop :=
  m.source.lowWatermark ≤ m.sink.resumePosition
    ∨ if Sink.allowsCompactedSource m.sink then
        (∀ inner ∈ m.sink.inners, inner.head ≤ m.source.lowWatermark)
          ∧ ∀ floor, m.sink.resumeCursor = some floor → m.source.lowWatermark ≤ floor
      else
        ∃ inner ∈ m.sink.inners, Sink.allowsCompactedSource inner.sink = false
          ∧ inner.head < m.source.lowWatermark

variable {m : Mirror LogSource (TeeSink K) N}

/-- A startup as it has to be was in a state for it. -/
theorem fits_of_starts (answering : Answering settled) (starting : Starting settled m)
    (starts : StartsTrimmed m) : FitsTrimmed m := by
  rcases Nat.lt_or_ge m.sink.resumePosition m.source.lowWatermark with trimmed | reached
  · right
    cases run : (Mirror.bootstrap : Program Halt (Mirror LogSource (TeeSink K) N) Nat) m with
    | error halt m' =>
      obtain ⟨refuses, explained⟩ := wp_of_error starts run
      obtain ⟨-, outcome⟩ := wp_of_error (bootstrap_trimmed answering starting) run
      rw [if_neg (by simp [refuses])] at outcome ⊢
      exact explained outcome
    | ok expected m' =>
      obtain ⟨moved, cursor, untrimmed | ⟨-, at_low, allows, aligned⟩⟩ :=
        wp_of_ok (bootstrap_trimmed answering starting) run
      · omega
      · obtain ⟨takes, answers⟩ := wp_of_ok starts run allows
        rw [if_pos allows]
        constructor
        · -- Aligned to the low watermark, no destination was above it before.
          intro inner mem
          obtain ⟨inner', mem', taking⟩ := exists_after_of_forall₂ takes mem
          obtain ⟨before, -, -, head, -⟩ := exists_of_forall₂ aligned mem'
          have := taking.head
          omega
        · intro floor floored
          have opened : ∀ inner' ∈ m'.sink.inners, Opened settled inner' :=
            forall_mem_of_forall₂ aligned fun _ _ step => step.1
          have both := wp_and answers (nextExpectedOffset_asked answering opened)
          cases asked : (Sink.nextExpectedOffset : Program SinkError (TeeSink K) Nat) m'.sink with
          | error e tee => exact (wp_of_error both asked).1.elim
          | ok next tee =>
            obtain ⟨here, -, -, resumes⟩ := wp_of_ok both asked
            simp only [TeeSink.resumePosition, cursor, floored] at resumes
            omega
  · exact .inl reached

/-- In a state for it the startup is as it has to be. -/
theorem starts_of_fits (answering : Answering settled) (starting : Starting settled m)
    (fits : FitsTrimmed m) : StartsTrimmed m := by
  refine wp_mono (bootstrap_trimmed answering starting) (fun expected m' outcome allows => ?_)
    (fun halt _ ⟨trimmed, outcome⟩ => ?_)
  · have every : ∀ inner ∈ m.sink.inners, Sink.allowsCompactedSource inner.sink = true :=
      List.all_eq_true.mp allows
    obtain ⟨moved, cursor, ⟨reached, at_resume, asked⟩ | ⟨trimmed, at_low, -, aligned⟩⟩ := outcome
    · constructor
      · refine forall₂_of_mem asked fun inner inner' mem step => ?_
        -- Nothing of this destination is missing, so its head is the later of the two.
        have here := TeeSink.resumePosition_le mem
        have later : max inner.head m.source.lowWatermark = inner'.head := by
          have := step.head
          omega
        rw [later]
        exact step.opened.takesFrom answering (step.allows.trans (every inner mem))
      · refine wp_mono (nextExpectedOffset_asked answering (opened_of_asked asked))
          (fun next _ ⟨_, _, resumes⟩ => ?_) (fun _ _ failed => failed)
        rw [resumes, resumePosition_of_asked asked cursor, moved, at_resume]
    · obtain reached | fits := fits
      · omega
      · rw [if_pos allows] at fits
        have opened : ∀ inner' ∈ m'.sink.inners, Opened settled inner' :=
          forall_mem_of_forall₂ aligned fun _ _ step => step.1
        constructor
        · refine forall₂_of_mem aligned fun inner inner' mem ⟨opened, head, same⟩ => ?_
          have low := fits.1 inner mem
          have later : max inner.head m.source.lowWatermark = inner'.head := by omega
          rw [later]
          exact opened.takesFrom answering (same.trans (every inner mem))
        · refine wp_mono (nextExpectedOffset_asked answering opened)
            (fun next _ ⟨_, _, resumes⟩ => ?_) (fun _ _ failed => failed)
          -- Every head is at the low watermark, and no floor is below it.
          obtain ⟨first, listed⟩ := List.exists_mem_of_ne_nil _ starting.nonempty
          obtain ⟨first', listed', -⟩ := exists_after_of_forall₂ aligned listed
          obtain ⟨slowest, mem, least⟩ := TeeSink.exists_minHead (List.ne_nil_of_mem listed')
          obtain ⟨before, -, -, head, -⟩ := exists_of_forall₂ aligned mem
          rw [resumes, moved, at_low, TeeSink.resumePosition, cursor, ← least, head]
          cases floored : m.sink.resumeCursor with
          | none => rfl
          | some floor =>
            have := fits.2 floor floored
            simp only
            omega
  · obtain reached | fits := fits
    · omega
    · split at outcome
      · rename_i allows
        rw [if_pos allows] at fits
        obtain ⟨-, inner, mem, above⟩ := outcome
        have := fits.1 inner mem
        omega
      · rename_i refuses
        rw [if_neg refuses] at fits
        exact ⟨by simpa using refuses, fun _ => fits⟩

/-- A trimmed source is handled as it has to be in exactly these states. -/
theorem starts_trimmed_iff (answering : Answering settled) (starting : Starting settled m) :
    StartsTrimmed m ↔ FitsTrimmed m :=
  ⟨fits_of_starts answering starting, starts_of_fits answering starting⟩

end Startup

namespace Sample

/-- A mirror to blob destinations, appending or compacted, on a source trimmed up to offset 5. -/
def onTrimmed (heads : List (Option CompactionMode × Nat)) (floor : Option Nat) :
    Mirror LogSource (TeeSink (BlobSink ObjectStore)) NoOpNotifier :=
  ⟨⟨⟨[], .nil, by simp⟩, 0, 5, fun _ => ⟨none, false, 100⟩⟩,
    ⟨heads.map fun head => ⟨"blob", blobAt head.1 head.2, head.2⟩, none, floor⟩, ⟨⟩⟩

/-- Such destinations answer whatever they are asked. -/
theorem starting_onTrimmed {heads : List (Option CompactionMode × Nat)} {floor : Option Nat}
    (some_ : heads ≠ []) (below : ∀ head ∈ heads, head.2 ≤ 100) :
    Starting BlobSink.Settled (onTrimmed heads floor) where
  nonempty := by simpa [onTrimmed] using some_
  opened inner mem := by
    obtain ⟨head, listed, rfl⟩ := List.mem_map.mp mem
    have early : 0 - 0 < driftCheckInterval := by decide
    exact ⟨⟨rfl, fun _ => early⟩, rfl⟩
  high := ⟨100, fun n => ⟨rfl, Nat.le_refl _⟩, fun inner mem => by
    obtain ⟨head, listed, rfl⟩ := List.mem_map.mp mem
    exact below head listed⟩

/-- Two compacted destinations below the low watermark are both aligned to it. -/
theorem starts_trimmed_iff_sample :
    FitsTrimmed (onTrimmed [(some .log, 2), (some .log, 5)] (some 7))
      ∧ (StartsTrimmed (onTrimmed [(some .log, 2), (some .log, 5)] (some 7))
        ↔ FitsTrimmed (onTrimmed [(some .log, 2), (some .log, 5)] (some 7))) := by
  refine ⟨.inr ?_, starts_trimmed_iff BlobSink.answering (starting_onTrimmed (by simp) (by simp))⟩
  rw [if_pos (by decide)]
  exact ⟨by decide, fun floor floored => by cases floored; decide⟩

/--
Three mirrors that a trimmed source stops without need.

Two compacted destinations on either side of the low watermark; a replay floor below it, with the
only destination above; and a floor below it that the cursor keeps after the alignment.
-/
theorem trimmed_source_disturbs :
    ¬ StartsTrimmed (onTrimmed [(some .log, 2), (some .log, 10)] none)
      ∧ ¬ StartsTrimmed (onTrimmed [(none, 10)] (some 3))
      ∧ ¬ StartsTrimmed (onTrimmed [(some .log, 4)] (some 3)) := by
  refine ⟨fun starts => ?_, fun starts => ?_, fun starts => ?_⟩
  · obtain reached | fits := fits_of_starts BlobSink.answering
      (starting_onTrimmed (by simp) (by simp)) starts
    · exact absurd reached (by decide)
    · rw [if_pos (by decide)] at fits
      exact absurd (fits.1 _ (List.mem_cons_of_mem _ List.mem_cons_self)) (by decide)
  · obtain reached | fits := fits_of_starts BlobSink.answering
      (starting_onTrimmed (by simp) (by simp)) starts
    · exact absurd reached (by decide)
    · rw [if_neg (by decide)] at fits
      obtain ⟨inner, mem, -, below⟩ := fits
      obtain rfl := List.mem_singleton.mp mem
      exact absurd below (by decide)
  · obtain reached | fits := fits_of_starts BlobSink.answering
      (starting_onTrimmed (by simp) (by simp)) starts
    · exact absurd reached (by decide)
    · rw [if_pos (by decide)] at fits
      exact absurd (fits.2 3 rfl) (by decide)

end Sample

end MirrorV3
