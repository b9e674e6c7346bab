import MirrorV3.Bin.Registration
import MirrorV3.Flush.Observer
import MirrorV3.Fs.Store

/-! A mirror is opened over one sink for each destination, and some of them tell when they flush. -/

namespace MirrorV3

open Config Effect Results

/-- Any of the sinks a tee is opened over. -/
abbrev AnySink (σ β : Type) : Type := BlobSink σ ⊕ (KafkaSink β ⊕ NoDestinationSink)

/-- Whether a sink is of the kind a destination is opened as. -/
def Config.Destination.OpensAs {σ β : Type} : Destination → AnySink σ β → Prop
  | .kafka _, .inr (.inl _) => True
  | .filesystem _, .inl _ => True
  | .s3 _, .inl _ => True
  | _, _ => False

/-- Whether a tee is over the destinations of a mirror, or over a position in memory without any. -/
def Config.Mirror.OpensAs {σ β : Type} (m : Config.Mirror) (tee : TeeSink (AnySink σ β)) : Prop :=
  match m.destinations with
  | [] => ∃ position, tee.inners.map (·.sink) = [.inr (.inr position)]
  | destinations => List.Forall₂
      (fun d inner => inner.name = d.effectiveName m.name ∧ d.OpensAs inner.sink) destinations
      tee.inners

/-- Whether a mirror notifies when its destinations have flushed. -/
def Config.Mirror.notifiesOnFlush (m : Config.Mirror) : Bool :=
  m.notify.any fun notify => notify.trigger.on = .destinationFlush

section Fields

variable [ConfigLibraries] {m : Config.Mirror}

/-- A requirement that passed holds. -/
theorem of_require {condition : Bool} {message : String}
    (passed : require m condition message = .ok ()) : condition = true := by
  unfold require at passed
  split at passed
  · assumption
  · cases passed

/-- Fields that were not rejected are not set. -/
theorem of_rejectFields {fields : List (String × Bool)} {message : String → String}
    (passed : rejectFields m fields message = .ok ()) : ∀ field ∈ fields, field.2 = false := by
  intro field mem
  unfold rejectFields at passed
  split at passed
  · rename_i absent
    simpa using List.find?_eq_none.mp absent field mem
  · exact absurd (of_require passed) Bool.false_ne_true

/-- A mirror that passed sets its flush triggers exactly when a destination flushes by them. -/
theorem flush_iff_hasBlob (valid : validateMirror m = .ok ()) :
    m.flush.isSome = m.destinations.any Destination.isBlob := by
  unfold validateMirror at valid
  split at valid
  · -- Without destinations there is nothing for the triggers to apply to.
    rename_i none
    obtain ⟨⟨⟩, shape, -⟩ := of_bind_ok valid
    obtain ⟨⟨⟩, -, shape⟩ := of_bind_ok shape
    obtain ⟨⟨⟩, rejected, -⟩ := of_bind_ok shape
    have unset := of_rejectFields rejected ("flush", m.flush.isSome) (by simp)
    simpa [none] using unset
  · obtain ⟨⟨⟩, shape, -⟩ := of_bind_ok valid
    obtain ⟨⟨⟩, -, shape⟩ := of_bind_ok shape
    obtain ⟨⟨⟩, -, shape⟩ := of_bind_ok shape
    cases blob : m.destinations.any Destination.isBlob with
    | false =>
      simp only [blob, if_true] at shape
      obtain ⟨⟨⟩, rejected, -⟩ := of_bind_ok shape
      exact of_rejectFields rejected ("flush", m.flush.isSome) (by simp)
    | true =>
      simp only [blob, Bool.true_eq_false, if_false, if_true] at shape
      obtain ⟨⟨⟩, -, shape⟩ := of_bind_ok shape
      obtain ⟨⟨⟩, required, -⟩ := of_bind_ok shape
      exact of_require required

end Fields

section Observers

variable {σ β : Type} {tee : TeeSink (AnySink σ β)} {m : Config.Mirror}

/-- Whether an observer that is handed to a tee reaches a destination that will call it. -/
def TeeSink.Observed (tee : TeeSink (AnySink σ β)) : Prop :=
  tee.flushWiring ≠ .nobody
    ∧ ∃ inner ∈ tee.setFlushObserver.inners, ∃ blob, inner.sink = .inl blob
      ∧ blob.flushObserver.isSome = true

/-- A blob destination among them, a tee has an index of one that flushes. -/
theorem supporting_ne_nil {inner : InnerSink (AnySink σ β)} {blob : BlobSink σ}
    (mem : inner ∈ tee.inners) (flushes : inner.sink = .inl blob) : tee.supporting ≠ [] := by
  obtain ⟨i, here⟩ := List.mem_iff_getElem?.mp mem
  apply List.ne_nil_of_mem
  exact (mem_supporting here).mpr (by rw [flushes]; rfl)

/-- A blob destination among them, the observer that is handed to a tee reaches it. -/
theorem TeeSink.observed {inner : InnerSink (AnySink σ β)} {blob : BlobSink σ}
    (mem : inner ∈ tee.inners) (flushes : inner.sink = .inl blob) : tee.Observed := by
  constructor
  · have some_ := supporting_ne_nil mem flushes
    unfold TeeSink.flushWiring
    -- One such destination has the observer itself, and several share a coordinator.
    split
    · exact absurd ‹_› some_
    · simp
    · simp
  · have supports : FlushingSink.supportsFlushObserver inner.sink = true := by
      rw [flushes]
      rfl
    refine ⟨_, List.mem_map_of_mem mem, FlushingSink.setFlushObserver blob, ?_, rfl⟩
    rw [if_pos supports]
    show FlushingSink.setFlushObserver inner.sink = _
    rw [flushes]
    rfl

/-- The tee of a mirror with a blob destination is over such a one. -/
theorem Config.Mirror.OpensAs.exists_blob (opens : m.OpensAs tee)
    (blob : m.destinations.any Destination.isBlob = true) :
    ∃ inner ∈ tee.inners, ∃ sink, inner.sink = .inl sink := by
  obtain ⟨d, mem, isBlob⟩ := List.any_eq_true.mp blob
  unfold Config.Mirror.OpensAs at opens
  split at opens
  · rename_i none
    rw [none] at mem
    exact absurd mem List.not_mem_nil
  · obtain ⟨inner, listed, -, kind⟩ := exists_after_of_forall₂ opens mem
    refine ⟨inner, listed, ?_⟩
    -- Of the three kinds of destination, Kafka is the one that is no blob destination.
    cases sink : inner.sink with
    | inl blob => exact ⟨blob, rfl⟩
    | inr other =>
      rw [sink] at kind
      cases d with
      | kafka => exact absurd isBlob Bool.false_ne_true
      | filesystem => exact kind.elim
      | s3 => exact kind.elim

end Observers

/--
When every mirror that notifies on a flush has a destination that flushes.

It then is over a blob destination, and an observer handed to its tee is installed there.
The validator admits a mirror of Kafka destinations alone as well, which sets no flush triggers.
-/
theorem destination_flush_fires_iff (σ β : Type) [ConfigLibraries] {env : String → Option String}
    {yaml : String} {cfg : Config} (loaded : loadFromStr env yaml = .ok cfg) :
    (∀ m ∈ cfg.mirrors, m.notifiesOnFlush = true →
        m.destinations.any Destination.isBlob = true
          ∧ ∀ tee : TeeSink (AnySink σ β), m.OpensAs tee → tee.Observed)
      ↔ ∀ m ∈ cfg.mirrors, m.notifiesOnFlush = true → m.flush.isSome = true := by
  obtain ⟨⟨⟩, mirrors, -⟩ := of_bind_ok (validate_of_loadFromStr loaded)
  have valid := (of_validateMirrors mirrors).1
  constructor
  · intro fires m mem notifies
    rw [flush_iff_hasBlob (valid m mem).2]
    exact (fires m mem notifies).1
  · intro flushes m mem notifies
    have blob := flushes m mem notifies
    rw [flush_iff_hasBlob (valid m mem).2] at blob
    refine ⟨blob, fun tee opens => ?_⟩
    obtain ⟨inner, listed, sink, is⟩ := opens.exists_blob blob
    exact TeeSink.observed listed is

namespace FlushSample

/-- A mirror to another topic that notifies when its destination flushes, which it never does. -/
def kafkaOnly : Config.Mirror :=
  { Sample.notifyAndServe with
    destinations := [.kafka ⟨none, "broker:9092", some "copy", true⟩]
    notify := some {
      api := .kkvV1
      targets := [⟨"http://hook", .none⟩]
      trigger := ⟨.destinationFlush, none⟩
      timeoutMs := 5000
      retry := ⟨5, 100⟩
      outcomes := ⟨⟨true, .fail⟩, ⟨true, .fail⟩, ⟨false, .accept⟩, ⟨false, .fail⟩,
        ⟨false, .fail⟩, ⟨true, .fail⟩⟩ } }

/-- The same to a directory, with flush triggers. -/
def toDirectory : Config.Mirror :=
  { kafkaOnly with
    destinations := [.filesystem ⟨none, "/data", true⟩]
    flush := some ⟨60000, 1000000, 1000, none⟩ }

/-- Libraries that read the two texts there are. -/
scoped instance configLibraries : ConfigLibraries where
  fromStr text :=
    if text = "kafka" then .ok ⟨[kafkaOnly]⟩
    else if text = "directory" then .ok ⟨[toDirectory]⟩
    else .error "not a sample"
  parseUrl text :=
    if text = "http://hook" then .ok ⟨"http", some "hook"⟩ else .error "not a sample"
  debug := String.quote

/-- To a directory, the mirror notifies when it flushes. -/
theorem destination_flush_fires_iff_sample :
    toDirectory.notifiesOnFlush = true ∧ toDirectory.destinations.any Destination.isBlob = true
      ∧ ∀ tee : TeeSink (AnySink ObjectStore Partition), toDirectory.OpensAs tee → tee.Observed := by
  have loaded : loadFromStr (fun _ => none) "directory" = .ok ⟨[toDirectory]⟩ := by decide +kernel
  refine ⟨rfl, (destination_flush_fires_iff ObjectStore Partition loaded).mpr (fun m mem _ => ?_)
    toDirectory List.mem_cons_self rfl⟩
  rw [List.mem_singleton.mp mem]
  rfl

/-- To another topic it is accepted just the same, and nobody will ever call its observer. -/
theorem kafkaOnly_accepted :
    loadFromStr (fun _ => none) "kafka" = .ok ⟨[kafkaOnly]⟩ ∧ kafkaOnly.notifiesOnFlush = true
      ∧ ¬ kafkaOnly.destinations.any Destination.isBlob = true
      ∧ ∀ tee : TeeSink (AnySink ObjectStore Partition), kafkaOnly.OpensAs tee →
        tee.flushWiring = .nobody := by
  refine ⟨by decide +kernel, rfl, by decide, fun tee opens => ?_⟩
  obtain ⟨inners, cache, resumeCursor⟩ := tee
  have one : List.Forall₂ (fun (d : Destination) (inner : InnerSink _) =>
      inner.name = d.effectiveName kafkaOnly.name ∧ d.OpensAs inner.sink)
      kafkaOnly.destinations inners := opens
  cases one with
  | @cons _ inner _ _ step rest =>
    cases rest
    obtain ⟨name, sink, head⟩ := inner
    -- The only sink of the tee is the Kafka one.
    rcases sink with blob | kafka | position
    · exact step.2.elim
    · rfl
    · exact step.2.elim

end FlushSample

end MirrorV3
