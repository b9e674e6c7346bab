import Mathlib.Data.Stream.Defs
import MirrorV3.Kafka.RestoreProducer

/-! What a queueing broker promises: a record is stored where its delivery report says. -/

namespace MirrorV3

open Effect

/-- Everything that a producer's queue took, each record at the place its ticket names. -/
class QueueHistory (β : Type) where
  queued : β → List FutureRecord

export QueueHistory (queued)

/-- The queue is as it was, and the partition has at most grown. -/
def OnlyGrew {β : Type} [PartitionHistory β] [QueueHistory β] (s s' : β) : Prop :=
  queued s' = queued s ∧ stored s <+: stored s'

/-- An append-only partition that others may produce to at any moment. -/
class LawfulQueueingBroker (β : Type) [QueueingBroker β] [PartitionHistory β]
    [QueueHistory β] : Prop where
  /-- Making a client queues nothing. -/
  create_spec : ∀ config (s : β), wp (Broker.create config : Program String β _)
    (fun _ => OnlyGrew s) (fun _ => OnlyGrew s) s
  /-- The high watermark is the number of records, or negative when the broker does not know it. -/
  fetchWatermarks_spec : ∀ topic partition (s : β),
    wp (Broker.fetchWatermarks topic partition : Program String β _)
      (fun watermarks s' => OnlyGrew s s'
        ∧ (watermarks.2.toInt = (stored s').length ∨ watermarks.2.toInt < 0))
      (fun _ => OnlyGrew s) s
  /-- A record that is queued gets the next ticket. -/
  sendResult_spec : ∀ producer record (s : β),
    wp (QueueingBroker.sendResult producer record : Program QueueError β _)
      (fun ticket s' => ticket = (queued s).length ∧ queued s' = queued s ++ [record]
        ∧ stored s <+: stored s') (fun _ => OnlyGrew s) s
  /-- A record reported delivered to its own partition is stored at the reported offset. -/
  delivery_spec : ∀ ticket (s : β), wp (QueueingBroker.delivery ticket : Program DeliveryError β _)
    (fun delivered s' => OnlyGrew s s' ∧ ∀ record, (queued s)[ticket]? = some record →
      record.partition = some delivered.partition →
      ∃ offset : Nat, delivered.offset.toInt = offset ∧ (stored s')[offset]? = some record)
    (fun _ => OnlyGrew s) s
  /-- Waiting for the queue to empty queues nothing. -/
  flush_spec : ∀ s : β, wp (QueueingBroker.flush : Program String β Unit)
    (fun _ => OnlyGrew s) (fun _ => OnlyGrew s) s

section

variable {β : Type} [PartitionHistory β] [QueueHistory β] {s s' s'' : β}

/-- Growth twice over is growth. -/
theorem OnlyGrew.trans (first : OnlyGrew s s') (second : OnlyGrew s' s'') : OnlyGrew s s'' :=
  ⟨second.1.trans first.1, first.2.trans second.2⟩

/-- A record that is stored stays where it is. -/
theorem getElem?_of_prefix {records records' : List FutureRecord} {place : Nat}
    {record : FutureRecord} (grew : records <+: records') (here : records[place]? = some record) :
    records'[place]? = some record := by
  obtain ⟨more, rfl⟩ := grew
  -- A place that is filled lies before anything that was appended.
  have inside : place < records.length := by
    by_contra beyond
    rw [List.getElem?_eq_none (by omega)] at here
    cases here
  rw [List.getElem?_append_left inside]
  exact here

end

/-- What happens at the broker until one request is answered. -/
structure QueueAnswer where
  /-- What others append to the partition first. -/
  others : List FutureRecord
  /-- The request is refused. -/
  refusal : Option QueueError
  /-- The delivery that is waited for fails. -/
  failure : Option DeliveryError

/-- A partition kept in memory, which stores each record when its delivery is waited for. -/
structure QueueingPartition where
  records : List FutureRecord
  queue : List FutureRecord
  answers : Stream' QueueAnswer

namespace QueueingPartition

instance : PartitionHistory QueueingPartition := ⟨records⟩

instance : QueueHistory QueueingPartition := ⟨queue⟩

/-- The next answer of the broker, after what others do first. -/
def request {ε : Type} : Program ε QueueingPartition QueueAnswer := do
  let s ← get
  set { s with records := s.records ++ s.answers.head.others, answers := s.answers.tail }
  pure s.answers.head

/-- Fail with what the broker refused a request with. -/
def admitted : Program QueueError QueueingPartition Unit := do
  match (← request).refusal with
  | some error => throw error
  | none => pure ()

/-- Queue a record, unless the request is refused. -/
def sendResult (record : FutureRecord) : Program QueueError QueueingPartition Nat := do
  admitted
  let s ← get
  set { s with queue := s.queue ++ [record] }
  pure s.queue.length

/-- Store a queued record at the end of the partition and report where, or report a failure. -/
def delivery (ticket : Nat) : Program DeliveryError QueueingPartition Delivery := do
  let answer ← request
  match answer.failure with
  | some error => throw error
  | none =>
    let s ← get
    match s.queue[ticket]?.bind fun record => record.partition.map (record, ·) with
    | none => throw .canceled
    | some (record, partition) =>
      ensure (s.records.length < 2 ^ 63) .canceled
      set { s with records := s.records ++ [record] }
      pure ⟨partition, Int64.ofNat s.records.length⟩

/-- The watermarks, when the broker answers. -/
def fetchWatermarks : Program String QueueingPartition (Int64 × Int64) := do
  focus ⟨id, fun s _ => s⟩ QueueError.display admitted
  let s ← get
  ensure (s.records.length < 2 ^ 63) "partition full"
  pure (0, Int64.ofNat s.records.length)

instance : QueueingBroker QueueingPartition where
  create _ := focus ⟨id, fun s _ => s⟩ QueueError.display admitted
  fetchWatermarks _ _ := fetchWatermarks
  send _ record := do
    let ticket ← focus ⟨id, fun s _ => s⟩ QueueError.display (sendResult record)
    let delivered ← focus ⟨id, fun s _ => s⟩ (RestoreProducer.notDelivered ticket) (delivery ticket)
    pure delivered.offset
  sendResult _ := sendResult
  delivery := delivery
  flush := focus ⟨id, fun s _ => s⟩ QueueError.display admitted

/-- What others do before a request is answered only makes the partition grow. -/
theorem request_spec {ε : Type} (s : QueueingPartition) :
    wp (request : Program ε QueueingPartition _) (fun _ => OnlyGrew s) (fun _ => OnlyGrew s) s := by
  simp only [request, wp_bind, wp_get, wp_set, wp_pure]
  exact ⟨rfl, List.prefix_append _ _⟩

/-- Nor does a request that may be refused do more. -/
theorem admitted_spec (s : QueueingPartition) :
    wp admitted (fun _ => OnlyGrew s) (fun _ => OnlyGrew s) s := by
  simp only [admitted, wp_bind]
  apply wp_mono (request_spec s)
  · intro answer s' grew
    cases answer.refusal <;> exact grew
  · intro _ _ grew
    exact grew

instance : LawfulQueueingBroker QueueingPartition where
  create_spec config s := by
    show wp (focus ⟨id, fun s _ => s⟩ _ admitted) _ _ s
    simp only [wp_focus, id]
    exact admitted_spec s
  fetchWatermarks_spec topic partition s := by
    show wp fetchWatermarks _ _ s
    simp only [fetchWatermarks, wp_bind, wp_focus, id, wp_get, wp_ensure, wp_pure]
    apply wp_mono (admitted_spec s)
    · intro _ s' grew
      split
      · rename_i room
        exact ⟨grew, .inl (Partition.toInt_length room)⟩
      · exact grew
    · intro _ _ grew
      exact grew
  sendResult_spec producer record s := by
    show wp (sendResult record) _ _ s
    simp only [sendResult, wp_bind, wp_get, wp_set, wp_pure]
    apply wp_mono (admitted_spec s)
    · intro _ s' grew
      have same : s'.queue = s.queue := grew.1
      refine ⟨by rw [same]; rfl, ?_, grew.2⟩
      show s'.queue ++ [record] = s.queue ++ [record]
      rw [same]
    · intro _ _ grew
      exact grew
  delivery_spec ticket s := by
    show wp (delivery ticket) _ _ s
    simp only [delivery, wp_bind]
    apply wp_mono (request_spec s)
    · intro answer s' grew
      cases answer.failure with
      | some error => exact grew
      | none =>
        simp only [wp_bind, wp_get]
        split
        · exact grew
        · rename_i record partition found
          simp only [wp_bind, wp_ensure, wp_set, wp_pure]
          split
          · rename_i room
            -- The record goes to the end of the partition, which is what is reported.
            refine ⟨⟨grew.1, grew.2.trans (List.prefix_append _ _)⟩, ?_⟩
            intro other place _
            obtain ⟨queuedHere, ticketed, addressed⟩ := Option.bind_eq_some_iff.mp found
            rw [show s'.queue = s.queue from grew.1] at ticketed
            obtain ⟨_, _, same⟩ := Option.map_eq_some_iff.mp addressed
            obtain ⟨rfl, rfl⟩ := Prod.mk.inj same
            have one : other = queuedHere := Option.some.inj (place.symm.trans ticketed)
            refine ⟨s'.records.length, Partition.toInt_length room, ?_⟩
            rw [one]
            exact List.getElem?_concat_length
          · exact grew
    · intro _ _ grew
      exact grew
  flush_spec s := by
    show wp (focus ⟨id, fun s _ => s⟩ _ admitted) _ _ s
    simp only [wp_focus, id]
    exact admitted_spec s

end QueueingPartition

end MirrorV3
