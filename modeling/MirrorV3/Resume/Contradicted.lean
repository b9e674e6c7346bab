import MirrorV3.Kafka.Intrusion
import MirrorV3.Resume.Standing

/-! What a mirror that is opened again makes of destinations that another writer appended to. -/

namespace MirrorV3

open Effect Results

section Restart

variable [EnvelopeLibraries]

/-- A slot at rest, with its head where what the destination holds says that it stands. -/
structure Stood (inner : InnerSink DestinationSink) : Prop where
  stands : (DestinationSink.left inner.sink).stands = .ok inner.head
  atRest : AtRest inner.head inner.sink

/-- A slot over a destination that a drift check stops at one of the next queries. -/
def InnerSink.Drifts (queries : Nat) (inner : InnerSink DestinationSink) : Prop :=
  MirrorV3.Drifts queries inner.sink

/-- What any question leaves of a slot: its name, and what the destination holds. -/
structure Unwritten (before after : InnerSink DestinationSink) : Prop where
  name : after.name = before.name
  left : DestinationSink.left after.sink = DestinationSink.left before.sink

/-- What a question leaves of a slot: its name, its head and what the destination holds. -/
structure Kept (before after : InnerSink DestinationSink) : Prop where
  name : after.name = before.name
  head : after.head = before.head
  left : DestinationSink.left after.sink = DestinationSink.left before.sink
  stood : Stood after

/-- Slots that were only asked leave what they would have left. -/
theorem left_of_kept {tee tee' : TeeSink DestinationSink}
    (kept : List.Forall₂ Kept tee.inners tee'.inners) : tee'.left = tee.left :=
  map_eq_of_forall₂ kept fun _ _ step => by rw [step.name, step.left]

omit [EnvelopeLibraries] in
/-- Whether a destination compacts is known from what it would leave. -/
theorem compacts_left [EnvelopeLibraries] (sink : DestinationSink) :
    (DestinationSink.left sink).compacts = Sink.allowsCompactedSource sink := by
  cases sink <;> rfl

omit [EnvelopeLibraries] in
/-- Slots that were not written to leave what they would have left. -/
theorem map_left_of_unwritten {inners inners' : List (InnerSink DestinationSink)}
    (unwritten : List.Forall₂ Unwritten inners inners') :
    inners'.map (fun inner => (inner.name, DestinationSink.left inner.sink))
      = inners.map fun inner => (inner.name, DestinationSink.left inner.sink) :=
  map_eq_of_forall₂ unwritten fun _ _ step => by rw [step.name, step.left]

/-- A slot over an opened sink is asked for its head, and has it unless a drift check stops it. -/
theorem queryHead_stood {inner : InnerSink DestinationSink} {position : Nat}
    (stands : (DestinationSink.left inner.sink).stands = .ok position)
    (rest : AtRest position inner.sink) :
    wp InnerSink.queryHead (fun _ inner' => Unwritten inner inner' ∧ Stood inner'
        ∧ (inner'.Drifts 1 ↔ inner.Drifts 2))
      (fun e inner' => (e.isTransient = false ∧ inner.Drifts 1) ∧ Unwritten inner inner') inner := by
  simp only [InnerSink.queryHead, wp_bind, wp_focus, wp_modify]
  refine wp_mono (nextExpectedOffset_atRest rest) ?_ ?_
  · rintro next sink ⟨answered, same, rest, -, later⟩
    subst answered
    exact ⟨⟨rfl, same⟩, ⟨same ▸ stands, rest⟩, later 1⟩
  · rintro e sink ⟨same, final, drifts⟩
    exact ⟨⟨final, drifts⟩, rfl, same⟩

/-- A slot that is asked again keeps its head, unless a drift check stops it. -/
theorem refreshHead_kept {inner : InnerSink DestinationSink} (stood : Stood inner) :
    wp InnerSink.refreshHead (fun _ inner' => (Kept inner inner' ∧ ¬ inner.Drifts 1) ∧ True)
      (fun e inner' => (e.isTransient = false ∧ inner.Drifts 1) ∧ Unwritten inner inner')
      inner := by
  simp only [InnerSink.refreshHead, wp_bind, wp_focus, wp_get, wp_ensure, wp_set]
  refine wp_mono (nextExpectedOffset_atRest stood.atRest) ?_ ?_
  · rintro next sink ⟨answered, same, rest, straight, -⟩
    subst answered
    rw [if_pos (show (InnerSink.sinkPart.set sink inner).head ≤ inner.head from Nat.le_refl _)]
    exact ⟨⟨⟨rfl, rfl, same, same ▸ stood.stands, rest⟩, straight⟩, trivial⟩
  · rintro e sink ⟨same, final, drifts⟩
    exact ⟨⟨final, drifts⟩, rfl, same⟩

/-- A slot tells its head as the furthest it is. -/
theorem furthest_kept {inner : InnerSink DestinationSink} (stood : Stood inner) :
    wp InnerSink.furthest (fun furthest inner' => Kept inner inner' ∧ furthest = inner'.head)
      (fun _ _ => False) inner := by
  simp only [InnerSink.furthest, SinglePart.furthest, wp_bind, wp_focus, wp_get, wp_pure]
  exact ⟨⟨rfl, rfl, rfl, stood⟩, rfl⟩

/-- A destination that compacts is moved up, unless it is past where it should be moved to. -/
theorem align_kept {inner : InnerSink DestinationSink} (stood : Stood inner) {low : Nat}
    (compacts : (DestinationSink.left inner.sink).compacts = true) :
    wp (InnerSink.align low)
      (fun _ inner' => inner.head ≤ low ∧ inner'.name = inner.name
        ∧ DestinationSink.left inner'.sink = DestinationSink.left inner.sink)
      (fun e inner' => (e.isTransient = false ∧ low < inner.head) ∧ inner'.name = inner.name
        ∧ DestinationSink.left inner'.sink = DestinationSink.left inner.sink) inner := by
  obtain ⟨name, sink, head⟩ := inner
  simp only [InnerSink.align, wp_bind, wp_get, wp_focus]
  -- Only a compacted directory is aligned, and that it is when it is not ahead of the watermark.
  cases sink with
  | inr s => exact absurd compacts Bool.false_ne_true
  | inl s =>
    show wp (onEither (BlobSink.alignToSourceLowWatermark low) _) _ _ (.inl s)
    obtain ⟨unbuffered, durable, -, -, -⟩ := stood.atRest
    have durable : s.durablePosition = head := durable
    have compacts : s.spec.compaction = some .log := of_decide_eq_true compacts
    simp only [wp_onEither_inl, BlobSink.alignToSourceLowWatermark, wp_bind, wp_get, wp_ensure,
      wp_set]
    rw [if_pos compacts]
    split
    · rename_i behind
      exact ⟨durable ▸ behind.2, rfl, rfl⟩
    · rename_i beyond
      refine ⟨⟨rfl, ?_⟩, rfl, rfl⟩
      show low < head
      by_contra behind
      exact beyond ⟨unbuffered, by omega⟩

/-- What the heads of a tee are to a source that cannot continue them. -/
def TeeSink.Unfit (low high : Nat) (tee : TeeSink DestinationSink) : Prop :=
  (∃ inner ∈ tee.inners, high < inner.head)
    ∨ (∃ inner ∈ tee.inners, inner.head < low)
      ∧ ((∃ inner ∈ tee.inners, (DestinationSink.left inner.sink).compacts = false)
        ∨ ∃ inner ∈ tee.inners, low < inner.head)

/-- A tee whose slots are at rest, opened without a view and without a floor. -/
structure TeeStood (tee : TeeSink DestinationSink) : Prop where
  stood : ∀ inner ∈ tee.inners, Stood inner
  nonempty : tee.inners ≠ []
  unfloored : tee.resumeCursor = none

omit [EnvelopeLibraries] in
/-- The heads of a tee are where its destinations end. -/
theorem unfit_iff {tee : TeeSink DestinationSink} {low high : Nat} :
    Unfit low high tee.left (tee.inners.map (·.head)) ↔ tee.Unfit low high := by
  simp only [Unfit, TeeSink.Unfit, TeeSink.left, List.mem_map, exists_exists_and_eq_and]

/-- What the heads stand at is what the destinations say of themselves. -/
theorem contradicted_iff {tee : TeeSink DestinationSink} (stood : ∀ inner ∈ tee.inners, Stood inner)
    {clocks : Nat → Clocks} {low high : Nat} : Contradicted clocks low high tee.left
      ↔ (∃ i entry, tee.left[i]? = some entry ∧ (clocks i).ChecksDrift ∧ entry.2.strays = true)
        ∨ tee.Unfit low high := by
  have ends : tee.left.mapM (·.2.stands) = .ok (tee.inners.map (·.head)) := by
    unfold TeeSink.left
    rw [List.mapM_map]
    exact mapM_ok fun inner mem => (stood inner mem).stands
  unfold Contradicted
  rw [ends, ← unfit_iff]

/-- Asked in order, the slots answer and keep what they are. -/
theorem forEach_kept {α : Type} {question : Program SinkError (InnerSink DestinationSink) α}
    {answer : InnerSink DestinationSink → α → Prop} {inners : List (InnerSink DestinationSink)}
    (stood : ∀ inner ∈ inners, Stood inner)
    (asks : ∀ inner, Stood inner → wp question (fun a inner' => Kept inner inner' ∧ answer inner' a)
      (fun _ _ => False) inner) :
    wp (forEach question)
      (fun answers inners' => List.Forall₂ Kept inners inners'
        ∧ List.Forall₂ answer inners' answers) (fun _ _ => False) inners :=
  wp_forEach_total fun inner mem => asks inner (stood inner mem)

omit [EnvelopeLibraries] in
/-- A source at rest answers its low watermark. -/
theorem lowWatermark_answering (log : Log) (low high : Nat) :
    (Source.lowWatermark : Program SourceError LogSource Nat) (.answering log low high)
      = .ok low (.answering log low high) := rfl

omit [EnvelopeLibraries] in
/-- A source at rest answers its high watermark. -/
theorem highWatermark_answering (log : Log) (low high : Nat) :
    (Source.highWatermark : Program SourceError LogSource Nat) (.answering log low high)
      = .ok high (.answering log low high) := rfl

omit [EnvelopeLibraries] in
/-- A source at rest is positioned anywhere. -/
theorem seek_answering (log : Log) (low high position : Nat) :
    (Source.seek position : Program SourceError LogSource Unit) (.answering log low high)
      = .ok () { LogSource.answering log low high with position } := rfl

/-- A tee at rest answers with its slowest head and keeps what it is, unless a drift check stops it. -/
theorem nextExpectedOffset_kept {tee : TeeSink DestinationSink} (stood : TeeStood tee) :
    wp (Sink.nextExpectedOffset : Program SinkError (TeeSink DestinationSink) Nat)
      (fun start tee' => List.Forall₂ Kept tee.inners tee'.inners ∧ start = tee.minHead
        ∧ ∀ inner ∈ tee.inners, ¬ inner.Drifts 1)
      (fun e tee' => e.isTransient = false ∧ (∃ inner ∈ tee.inners, inner.Drifts 1)
        ∧ tee'.left = tee.left) tee := by
  show wp (focus TeeSink.innersPart id (forEach InnerSink.refreshHead) >>= _) _ _ tee
  simp only [wp_bind, wp_focus, wp_get, wp_pure]
  -- The first slot whose check is due and finds something strayed ends the query.
  have each : ∀ inner ∈ tee.inners, wp InnerSink.refreshHead
      (fun _ inner' => (Kept inner inner' ∧ ¬ inner.Drifts 1) ∧ True)
      (fun e inner' => (e.isTransient = false ∧ ∃ inner ∈ tee.inners, inner.Drifts 1)
        ∧ Unwritten inner inner') inner :=
    fun inner mem => wp_mono (refreshHead_kept (stood.stood inner mem)) (fun _ _ kept => kept)
      (fun _ _ ⟨⟨final, drifts⟩, same⟩ => ⟨⟨final, inner, mem, drifts⟩, same⟩)
  refine wp_mono (wp_forEach (fun _ _ => True) _ (fun _ _ => ⟨rfl, rfl⟩)
    (fun _ _ kept => ⟨kept.1.name, kept.1.left⟩) each) ?_ ?_
  · rintro _ inners ⟨kept, -⟩
    have heads : inners.map (·.head) = tee.inners.map (·.head) :=
      map_eq_of_forall₂ kept fun _ _ step => step.1.head
    refine ⟨kept.imp fun _ _ step => step.1, ?_, fun inner mem => ?_⟩
    · show TeeSink.resumePosition ⟨inners, tee.cache, tee.resumeCursor⟩ = _
      simp only [TeeSink.resumePosition, stood.unfloored, TeeSink.minHead, heads]
    · obtain ⟨_, _, _, straight⟩ := exists_after_of_forall₂ kept mem
      exact straight
  · rintro e inners ⟨⟨final, drifts⟩, unwritten⟩
    exact ⟨final, drifts, map_left_of_unwritten unwritten⟩

/-- A tee at rest tells its furthest head, and keeps what it is. -/
theorem furthestNextOffset_kept {tee : TeeSink DestinationSink}
    (stood : ∀ inner ∈ tee.inners, Stood inner) :
    wp (Sink.furthestNextOffset : Program SinkError (TeeSink DestinationSink) (Option Nat))
      (fun furthest tee' => List.Forall₂ Kept tee.inners tee'.inners
        ∧ furthest = some ((tee.inners.map (·.head)).foldl max 0)) (fun _ _ => False) tee := by
  show wp (focus TeeSink.innersPart id (forEach InnerSink.furthest) >>= _) _ _ tee
  simp only [wp_bind, wp_focus, wp_pure]
  refine wp_mono (@forEach_kept _ _ _ (fun inner furthest => furthest = inner.head) _ stood
    fun inner stood => furthest_kept stood) (fun answers inners ⟨kept, told⟩ => ⟨kept, ?_⟩)
    (fun _ _ failed => failed)
  have heads : inners.map (·.head) = tee.inners.map (·.head) :=
    map_eq_of_forall₂ kept fun _ _ step => step.head
  rw [eq_map_of_forall₂ told, heads]

/-- Compacting slots are all moved up, or one of them is past where they should be. -/
theorem align_contradicted {tee : TeeSink DestinationSink}
    (stood : ∀ inner ∈ tee.inners, Stood inner) {low : Nat}
    (compacts : ∀ inner ∈ tee.inners, (DestinationSink.left inner.sink).compacts = true) :
    wp (Sink.alignToSourceLowWatermark low : Program SinkError (TeeSink DestinationSink) Unit)
      (fun _ _ => ∀ inner ∈ tee.inners, inner.head ≤ low)
      (fun e tee' => e.isTransient = false ∧ (∃ inner ∈ tee.inners, low < inner.head)
        ∧ tee'.left = tee.left) tee := by
  show wp (focus TeeSink.innersPart id (forAll (InnerSink.align low)) >>= _) _ _ tee
  simp only [wp_bind, wp_focus, wp_modify]
  -- A head beyond the watermark is refused by its own slot, and all others are aligned beside it.
  have each : ∀ inner ∈ tee.inners, wp (InnerSink.align low)
      (fun _ inner' => inner.head ≤ low ∧ inner'.name = inner.name
        ∧ DestinationSink.left inner'.sink = DestinationSink.left inner.sink)
      (fun e inner' => (e.isTransient = false ∧ ∃ inner ∈ tee.inners, low < inner.head)
        ∧ inner'.name = inner.name
        ∧ DestinationSink.left inner'.sink = DestinationSink.left inner.sink) inner :=
    fun inner mem => wp_mono (align_kept (stood inner mem) (compacts inner mem))
      (fun _ _ aligned => aligned)
      (fun _ _ ⟨⟨final, beyond⟩, same⟩ => ⟨⟨final, inner, mem, beyond⟩, same⟩)
  refine wp_mono (wp_forAll _ (fun _ _ aligned => aligned.2) each)
    (fun _ inners aligned inner mem => ?_)
    (fun e inners ⟨⟨final, beyond⟩, same⟩ => ⟨final, beyond, ?_⟩)
  · obtain ⟨_, _, atMost, _⟩ := exists_after_of_forall₂ aligned mem
    exact atMost
  · exact map_eq_of_forall₂ same fun _ _ step => by rw [step.1, step.2]

omit [EnvelopeLibraries] in
/-- The furthest head is above a watermark when some head is. -/
theorem lt_furthestHead_iff {tee : TeeSink DestinationSink} {high : Nat} :
    high < (tee.inners.map (·.head)).foldl max 0 ↔ ∃ inner ∈ tee.inners, high < inner.head := by
  simp [lt_foldl_max_iff]

omit [EnvelopeLibraries] in
/-- The slowest head is below a watermark when some head is. -/
theorem minHead_lt_iff {tee : TeeSink DestinationSink} (nonempty : tee.inners ≠ []) {low : Nat} :
    tee.minHead < low ↔ ∃ inner ∈ tee.inners, inner.head < low := by
  constructor
  · intro behind
    obtain ⟨inner, mem, slowest⟩ := TeeSink.exists_minHead nonempty
    exact ⟨inner, mem, slowest ▸ behind⟩
  · rintro ⟨inner, mem, behind⟩
    exact Nat.lt_of_le_of_lt (TeeSink.minHead_le mem) behind

/-- A mirror at rest resumes, or is stopped with what its destinations hold as it was. -/
theorem bootstrap_contradicted {log : Log} {low high : Nat}
    {m : Mirror LogSource (TeeSink DestinationSink) NoOpNotifier}
    (answering : m.source = .answering log low high) (stood : TeeStood m.sink) :
    wp Mirror.bootstrap
      (fun _ _ => ¬ ((∃ inner ∈ m.sink.inners, inner.Drifts 1) ∨ m.sink.Unfit low high))
      (fun halt m' => ((∃ inner ∈ m.sink.inners, inner.Drifts 1) ∨ m.sink.Unfit low high)
        ∧ m'.sink.left = m.sink.left ∧ ∃ e, halt = .failed e ∧ e.isTransient = false) m := by
  simp only [Mirror.bootstrap, Mirror.onSink, Mirror.onSource, wp_bind, wp_focus,
    Mirror.sinkPart, Mirror.sourcePart, answering, wp_eq_of_ok (lowWatermark_answering log low high),
    wp_eq_of_ok (highWatermark_answering log low high), wp_ensure, wp_get]
  refine wp_mono (nextExpectedOffset_kept stood) ?_
    (fun _ _ failed => ⟨.inl failed.2.1, failed.2.2, _, rfl, failed.1⟩)
  rintro start tee ⟨kept, started, straight⟩
  have straight : ¬ ∃ inner ∈ m.sink.inners, inner.Drifts 1 := by
    rintro ⟨inner, mem, drifts⟩
    exact straight inner mem drifts
  rw [or_iff_right straight]
  have stood₁ : ∀ inner ∈ tee.inners, Stood inner :=
    forall_mem_of_forall₂ kept fun _ _ step => step.stood
  refine wp_mono (furthestNextOffset_kept stood₁) ?_ (fun _ _ failed => failed.elim)
  rintro furthest tee₂ ⟨kept₂, told⟩
  have stood₂ : ∀ inner ∈ tee₂.inners, Stood inner :=
    forall_mem_of_forall₂ kept₂ fun _ _ step => step.stood
  have same : tee₂.left = m.sink.left := (left_of_kept kept₂).trans (left_of_kept kept)
  -- The questions moved no head, so what is decided is about the tee as it was opened.
  have heads : tee₂.inners.map (·.head) = m.sink.inners.map (·.head) :=
    (map_eq_of_forall₂ kept₂ fun _ _ step => step.head).trans
      (map_eq_of_forall₂ kept fun _ _ step => step.head)
  have unmoved : m.sink.Unfit low high ↔ tee₂.Unfit low high := by
    rw [← unfit_iff, ← unfit_iff, same, heads]
  rw [unmoved]
  have furthest_eq : furthest = some ((tee₂.inners.map (·.head)).foldl max 0) := by
    rw [told, map_eq_of_forall₂ kept₂ fun _ _ step => step.head]
  have start_eq : start = tee₂.minHead := by
    rw [started]
    simp only [TeeSink.minHead, heads]
  have nonempty : tee₂.inners ≠ [] := by
    intro empty
    rw [empty] at heads
    exact stood.nonempty (List.map_eq_nil_iff.mp heads.symm)
  rw [furthest_eq, start_eq, Option.getD_some]
  clear furthest_eq start_eq
  split
  · rename_i within
    have noneBeyond : ¬ ∃ inner ∈ tee₂.inners, high < inner.head :=
      fun beyond => Nat.not_lt.mpr within (lt_furthestHead_iff.mpr beyond)
    split
    · rename_i behind
      have someBehind := (minHead_lt_iff nonempty).mp behind
      split
      · rename_i allowed
        have compacts : ∀ inner ∈ tee₂.inners,
            (DestinationSink.left inner.sink).compacts = true :=
          fun inner mem => (compacts_left inner.sink).trans (List.all_eq_true.mp allowed inner mem)
        simp only [wp_bind, wp_focus, wp_pure]
        refine wp_mono (align_contradicted stood₂ compacts) (fun _ tee₃ atMost => ?_) ?_
        · rw [wp_eq_of_ok (seek_answering log low high low)]
          rintro (beyond | ⟨-, ⟨inner, mem, closed⟩ | ⟨inner, mem, past⟩⟩)
          · exact noneBeyond beyond
          · rw [compacts inner mem] at closed
            cases closed
          · exact absurd past (Nat.not_lt.mpr (atMost inner mem))
        · rintro e tee₃ ⟨final, beyond, kept₃⟩
          exact ⟨.inr ⟨someBehind, .inr beyond⟩, kept₃.trans same, _, rfl, final⟩
      · rename_i refused
        have closed : ∃ inner ∈ tee₂.inners,
            (DestinationSink.left inner.sink).compacts = false := by
          obtain ⟨inner, mem, closed⟩ := List.all_eq_false.mp (Bool.not_eq_true _ ▸ refused)
          exact ⟨inner, mem, (compacts_left inner.sink).trans (Bool.not_eq_true _ ▸ closed)⟩
        exact ⟨.inr ⟨someBehind, .inl closed⟩, same, _, rfl, rfl⟩
    · rename_i within
      simp only [wp_bind, wp_focus, wp_pure, wp_eq_of_ok (seek_answering log low high _)]
      rintro (beyond | ⟨behind, -⟩)
      · exact noneBeyond beyond
      · exact within ((minHead_lt_iff nonempty).mpr behind)
  · rename_i beyond
    exact ⟨.inl (lt_furthestHead_iff.mp (Nat.lt_of_not_le beyond)), same, _, rfl, rfl⟩

/-- A tee over opened sinks has a slot at rest for each, unless there is none. -/
theorem openTee_stood {sinks : List (String × DestinationSink)}
    (opened : ∀ entry ∈ sinks, ∃ position, (DestinationSink.left entry.2).stands = .ok position
      ∧ AtRest position entry.2) :
    wp (TeeSink.openTee none)
      (fun tee _ => TeeStood tee
        ∧ tee.left = sinks.map (fun entry => (entry.1, DestinationSink.left entry.2))
        ∧ ((∃ inner ∈ tee.inners, inner.Drifts 1) ↔ ∃ entry ∈ sinks, Drifts 2 entry.2))
      (fun e inners => e.isTransient = true ∧ sinks = []
        ∨ e.isTransient = false ∧ (∃ entry ∈ sinks, Drifts 1 entry.2)
          ∧ inners.map (fun inner => (inner.name, DestinationSink.left inner.sink))
            = sinks.map fun entry => (entry.1, DestinationSink.left entry.2))
      (TeeSink.slots sinks) := by
  -- The slots hold the sinks as they were opened, each with its head still to be asked for.
  have slots : (TeeSink.slots sinks).map (fun inner => (inner.name, DestinationSink.left inner.sink))
      = sinks.map fun entry => (entry.1, DestinationSink.left entry.2) := by
    rw [TeeSink.slots, List.map_map]
    rfl
  simp only [TeeSink.openTee, wp_bind, wp_get, wp_ensure, wp_pure]
  split
  · rename_i some_slot
    have each : ∀ inner ∈ TeeSink.slots sinks, wp InnerSink.queryHead
        (fun _ inner' => (Unwritten inner inner' ∧ Stood inner'
          ∧ (inner'.Drifts 1 ↔ inner.Drifts 2)) ∧ True)
        (fun e inner' => (e.isTransient = false ∧ ∃ entry ∈ sinks, Drifts 1 entry.2)
          ∧ Unwritten inner inner') inner := by
      intro inner mem
      obtain ⟨entry, among, rfl⟩ := List.mem_map.mp mem
      obtain ⟨position, stands, rest⟩ := opened entry among
      exact wp_mono (queryHead_stood stands rest) (fun _ _ asked => ⟨asked, trivial⟩)
        (fun _ _ failed => ⟨⟨failed.1.1, entry, among, failed.1.2⟩, failed.2⟩)
    refine wp_mono (wp_forEach (fun _ _ => True) _ (fun _ _ => ⟨rfl, rfl⟩)
      (fun _ _ asked => asked.1) each) ?_ ?_
    · rintro _ inners ⟨asked, _⟩
      refine ⟨⟨?_, ?_, rfl⟩, ?_, ?_⟩
      · exact forall_mem_of_forall₂ asked fun _ _ step => step.2.1
      · intro empty
        have empty : inners = [] := empty
        rw [empty] at asked
        exact some_slot (List.forall₂_nil_right_iff.mp asked)
      · exact (map_left_of_unwritten (asked.imp fun _ _ step => step.1)).trans slots
      · -- Each slot has one query less to come than the sink that was put into it.
        constructor
        · rintro ⟨inner, mem, drifts⟩
          obtain ⟨before, among, step⟩ := exists_of_forall₂ asked mem
          obtain ⟨entry, listed, rfl⟩ := List.mem_map.mp among
          exact ⟨entry, listed, step.2.2.mp drifts⟩
        · rintro ⟨entry, listed, drifts⟩
          obtain ⟨inner, mem, step⟩ := exists_after_of_forall₂ asked (List.mem_map_of_mem listed)
          exact ⟨inner, mem, step.2.2.mpr drifts⟩
    · rintro e inners ⟨⟨final, drifts⟩, unwritten⟩
      exact .inr ⟨final, drifts, (map_left_of_unwritten unwritten).trans slots⟩
  · rename_i no_slot
    exact .inl ⟨rfl, List.map_eq_nil_iff.mp (not_not.mp no_slot)⟩

/-- A mirror that is opened again is stopped exactly when its destinations are contradicted. -/
theorem restart_refused_iff {left : List (String × Leftover)}
    (numbered : ∀ entry ∈ left, entry.2.Numbered) (log : Log) (low high : Nat)
    (clocks : Nat → Clocks) :
    EndedForGood left (restart clocks (.answering log low high) left)
      ↔ Contradicted clocks low high left := by
  have opening := reopenAll_stands numbered clocks
  unfold restart
  cases reopened : reopenAll clocks left with
  | error failure =>
    -- What a destination holds cannot be opened, and nothing was written to find that out.
    rw [reopened] at opening
    obtain ⟨told, same⟩ := opening
    simp only [Contradicted, told, EndedForGood, same, and_true]
  | ok sinks =>
    rw [reopened] at opening
    obtain ⟨rfl, stands, checked⟩ := opening
    dsimp only
    have teed := openTee_stood stands
    unfold wp at teed
    generalize TeeSink.openTee none (TeeSink.slots sinks) = outcome at teed ⊢
    cases outcome with
    | error e inners =>
      rcases teed with ⟨retried, rfl⟩ | ⟨final, ⟨entry, mem, ⟨query, first, late⟩, strays⟩, same⟩
      · -- A mirror without destinations is told to be opened again.
        have uncontradicted : ¬ Contradicted clocks low high [] := by
          rintro (⟨i, entry, found, -⟩ | ⟨head, mem, -⟩ | ⟨⟨head, mem, -⟩, -⟩)
          · cases found
          · exact absurd mem List.not_mem_nil
          · exact absurd mem List.not_mem_nil
        refine ⟨fun refused => ?_, fun contradicted => absurd contradicted uncontradicted⟩
        have retried : (RunError.sink e).isTransient = true := retried
        rw [refused.1] at retried
        cases retried
      · -- A drift check at the first query stops the mirror before it is told to go on.
        have drifts : ∃ entry ∈ sinks, Drifts 2 entry.2 :=
          ⟨entry, mem, ⟨query, by omega, late⟩, strays⟩
        have ends : (sinks.map fun entry => (entry.1, DestinationSink.left entry.2)).mapM
            (·.2.stands) = .ok (sinks.map fun entry =>
              (DestinationSink.left entry.2).stands.toOption.getD 0) := by
          rw [List.mapM_map]
          refine mapM_ok fun entry mem => ?_
          obtain ⟨position, stands, -⟩ := stands entry mem
          exact stands.trans (by rw [stands]; rfl)
        refine ⟨fun _ => ?_, fun _ => ⟨final, same⟩⟩
        unfold Contradicted
        rw [ends]
        exact .inl (checked.mp drifts)
    | ok tee inners =>
      obtain ⟨stood, left, later⟩ := teed
      have started := @bootstrap_contradicted _ log low high ⟨.answering log low high, tee, {}⟩ rfl
        stood
      rw [← left] at checked ⊢
      rw [contradicted_iff stood.stood, ← checked, ← later]
      dsimp only
      unfold wp at started
      generalize Mirror.bootstrap (⟨.answering log low high, tee, {}⟩ :
        Mirror LogSource (TeeSink DestinationSink) NoOpNotifier) = outcome at started ⊢
      cases outcome with
      | ok expected m =>
        exact ⟨fun refused => refused.elim, fun contradicted => started contradicted⟩
      | error halt m =>
        obtain ⟨contradicted, same, e, rfl, final⟩ := started
        exact ⟨fun _ => contradicted, fun _ => ⟨final, same⟩⟩

section Runs

/-- Another writer appends to a destination: a record, or an object named like one of a chain. -/
inductive WrittenByOther : DestinationSink → DestinationSink → Prop where
  | record (s : KafkaSink Partition) (record : FutureRecord) :
      WrittenByOther (.inr s)
        (.inr { s with broker := { s.broker with records := s.broker.records ++ [record] } })
  | object (s : BlobSink ObjectStore) (name ext : String) (bytes : Bytes)
      (parseable : (parseBlobName name ext).isSome) (fresh : name ∉ s.store.stored.map (·.1)) :
      WrittenByOther (.inl s)
        (.inl { s with store := { s.store with stored := s.store.stored ++ [(name, bytes)] } })

/-- Another writer appends to one destination of a mirror. -/
def WrittenOn (m m' : Mirror LogSource (TeeSink DestinationSink) NoOpNotifier) : Prop :=
  ∃ before inner after sink, m.sink.inners = before ++ inner :: after
    ∧ WrittenByOther inner.sink sink
    ∧ m' = { m with sink := { m.sink with inners := before ++ { inner with sink } :: after } }

/--
The states of a run of a mirror that has destinations only, others writing to them at any moment.

Before the startup nothing is expected yet, and whether others wrote is remembered.
-/
inductive SharedRun (source : LogSource) (sinks : List (String × DestinationSink)) :
    Bool → Option Nat → Mirror LogSource (TeeSink DestinationSink) NoOpNotifier → Prop where
  | opened {tee : TeeSink DestinationSink} {inners : List (InnerSink DestinationSink)}
      (teed : TeeSink.openTee none (TeeSink.slots sinks) = .ok tee inners) :
      SharedRun source sinks false none ⟨source, tee, {}⟩
  | written {others : Bool} {expected : Option Nat}
      {m m' : Mirror LogSource (TeeSink DestinationSink) NoOpNotifier}
      (earlier : SharedRun source sinks others expected m) (intruded : WrittenOn m m') :
      SharedRun source sinks true expected m'
  | started {others : Bool} {expected : Nat}
      {m m' : Mirror LogSource (TeeSink DestinationSink) NoOpNotifier}
      (earlier : SharedRun source sinks others none m)
      (resumed : Mirror.bootstrap m = .ok expected m') :
      SharedRun source sinks others (some expected) m'
  | served {others : Bool} {expected next : Nat} {event : LoopEvent}
      {m m' : Mirror LogSource (TeeSink DestinationSink) NoOpNotifier}
      (earlier : SharedRun source sinks others (some expected) m)
      (ran : Mirror.loop [event] expected m = .ok (.running next) m') :
      SharedRun source sinks others (some next) m'

/-- A run that others wrote into ended with a failure, at its startup or at an event. -/
def EndedShared (source : LogSource) (sinks : List (String × DestinationSink)) (halt : Halt)
    (m' : Mirror LogSource (TeeSink DestinationSink) NoOpNotifier) : Prop :=
  (∃ m, SharedRun source sinks true none m ∧ Mirror.bootstrap m = .error halt m')
    ∨ ∃ expected m event, SharedRun source sinks true (some expected) m
      ∧ Mirror.loop [event] expected m = .error halt m'

/-- Whether a run ended because a destination is not what this mirror wrote. -/
def Halt.contradicts : Halt → Bool
  | .failed (.sink (.unexpectedPosition _ _)) => true
  | .failed (.sink (.inconsistent _)) => true
  | .failed (.destinationDrift _ _) => true
  | _ => false

/--
A contradicted mirror that is opened again ends for good exactly when it is seen from outside.

After a run that others wrote into ended with one of the errors that are documented to repeat, the
next one repeats an error, with nothing written, when what the destinations hold does not validate
or does not fit the source, and it goes on from behind what the others wrote when it does.
-/
theorem contradiction_repeats_iff {source : LogSource} {sinks : List (String × DestinationSink)} :
    ∀ halt m, EndedShared source sinks halt m → halt.contradicts = true →
      (∀ entry ∈ m.sink.left, entry.2.Numbered) → ∀ log low high clocks,
        EndedForGood m.sink.left (restart clocks (.answering log low high) m.sink.left)
          ↔ Contradicted clocks low high m.sink.left :=
  fun _ _ _ _ numbered => restart_refused_iff numbered

end Runs

end Restart

namespace Sample

/-- A mirror of two records to a partition that holds some, with everything it asks answered. -/
def copying (head : Nat) (source : LogSource) (records : List FutureRecord) :
    Mirror LogSource (TeeSink DestinationSink) NoOpNotifier :=
  ⟨source, ⟨[⟨"copy", .inr (kafkaSink records), head⟩], none, none⟩, {}⟩

/-- The source of it, before and after its first record was polled. -/
def twoLeft (position : Nat) : LogSource := { LogSource.answering twoRecords 0 2 with position }

/-- The record another producer adds. -/
def others : FutureRecord := kafka.futureRecord (keyed 7)

/-- How the run ends that finds it. -/
def outrun : Halt :=
  .failed (.sink (.inconsistent
    "inner sink copy: destination advanced: expected next-offset 0, found 1"))

/-- A record that another produced ends the run that wanted to produce its own there. -/
theorem ended_outrun :
    EndedShared (twoLeft 0) [("copy", .inr (kafkaSink []))] outrun
      (copying 0 (twoLeft 1) [others]) := by
  have opened : SharedRun (twoLeft 0) [("copy", .inr (kafkaSink []))] false none
      (copying 0 (twoLeft 0) []) := @SharedRun.opened _ _ _ ⟨_, none, none⟩ _ rfl
  have started := SharedRun.started opened (show Mirror.bootstrap _
    = .ok 0 (copying 0 (twoLeft 0) []) from rfl)
  have written := SharedRun.written started (show WrittenOn _ (copying 0 (twoLeft 0) [others]) from
    ⟨[], _, [], _, rfl, .record _ others, rfl⟩)
  exact .inr ⟨0, _, .poll, written, rfl⟩

/--
Opened again over a source that has as many records, the mirror resumes behind the other's record.

Its own first record is lost, and the error that was said to repeat does not.
-/
theorem outrun_resumed :
    EndedShared (twoLeft 0) [("copy", .inr (kafkaSink []))] outrun
        (copying 0 (twoLeft 1) [others])
      ∧ outrun.contradicts = true
      ∧ restart (fun _ => .still 0 0) (.answering twoRecords 0 2)
          (copying 0 (twoLeft 1) [others]).sink.left
        = .resumed 1 [("copy", .kafka kafka [others])]
      ∧ ¬ EndedForGood (copying 0 (twoLeft 1) [others]).sink.left
        (restart (fun _ => .still 0 0) (.answering twoRecords 0 2)
          (copying 0 (twoLeft 1) [others]).sink.left) :=
  ⟨ended_outrun, rfl, rfl, fun refused => refused⟩

/-- Once the source has dropped both records, the mirror is refused when it is opened again. -/
theorem contradiction_repeats_iff_sample :
    EndedForGood (copying 0 (twoLeft 1) [others]).sink.left
      (restart (fun _ => .still 0 0) (.answering twoRecords 2 2)
        (copying 0 (twoLeft 1) [others]).sink.left) := by
  have numbered : ∀ entry ∈ (copying 0 (twoLeft 1) [others]).sink.left, entry.2.Numbered := by
    intro entry mem
    rw [List.mem_singleton.mp mem]
    show [others].length < 2 ^ 63
    decide
  -- The one record is behind what the source still has, and the partition cannot leave a hole.
  have contradicted : Contradicted (fun _ => .still 0 0) 2 2
      (copying 0 (twoLeft 1) [others]).sink.left :=
    .inr (.inr ⟨⟨1, List.mem_cons_self, by decide⟩, .inl ⟨_, List.mem_cons_self, rfl⟩⟩)
  exact (contradiction_repeats_iff outrun _ ended_outrun rfl numbered twoRecords 2 2
    fun _ => .still 0 0).mpr
    contradicted

end Sample

end MirrorV3
