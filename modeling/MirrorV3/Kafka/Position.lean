import MirrorV3.Kafka.Sink

/-! A Kafka destination stands at the length of its partition, and each write makes it one longer. -/

namespace MirrorV3

open Effect

namespace KafkaSink

variable {β : Type} [Broker β] [PartitionHistory β] [LawfulBroker β] {s : KafkaSink β}

/-- The clients of a destination stay what they are through every request. -/
def SameClients (s s' : KafkaSink β) : Prop := s'.config = s.config ∧ s'.producer = s.producer

/-- The high watermark is the length of the partition, and asking for it stores nothing. -/
theorem fetchHighWatermark_spec :
    wp fetchHighWatermark
      (fun high s' => SameClients s s' ∧ stored s'.broker = stored s.broker
        ∧ high = (stored s.broker).length)
      (fun e s' => stored s'.broker = stored s.broker ∧ ∃ message, e = .transport message) s := by
  simp only [fetchHighWatermark, wp_bind, wp_get, wp_focus]
  refine wp_mono (LawfulBroker.fetchWatermarks_spec _ _ s.broker)
    (fun watermarks broker ⟨same, high⟩ => ?_) (fun e broker same => ⟨same, _, rfl⟩)
  rcases high with known | unknown
  · rw [u64TryFrom_eq known]
    exact ⟨⟨rfl, rfl⟩, same, rfl⟩
  · -- A watermark the broker does not know is an error, so nothing resumes at zero.
    rw [u64TryFrom_neg unknown]
    exact ⟨same, _, rfl⟩

/-- What a write that got through its gate leaves of the partition: one record more. -/
def Appended (record : Record) (s s' : KafkaSink β) : Prop :=
  (stored s.broker).length = record.sourceOffset
    ∧ stored s'.broker = stored s.broker ++ [s.config.futureRecord record]

variable [PayloadParsers]

/-- A write appends its record at its own offset, and a failed one does so once or not at all. -/
theorem write_spec (record : Record)
    (noRetries : ClientConfig.get s.producer "message.send.max.retries" = some "0") :
    wp (write record) (fun _ s' => SameClients s s' ∧ Appended record s s')
      (fun _ s' => stored s'.broker = stored s.broker ∨ Appended record s s') s := by
  simp only [write, wp_bind, wp_get, wp_ofExcept, wp_ensure, wp_focus, wp_modify]
  cases s.config.keys.validate "key" record.sourceOffset record.key with
  | error e => exact .inl trivial
  | ok _ =>
    cases s.config.values.validate "value" record.sourceOffset record.value with
    | error e => exact .inl trivial
    | ok _ =>
      refine wp_mono fetchHighWatermark_spec (fun current s₁ ⟨⟨settings, producer⟩, same, high⟩ => ?_)
        (fun _ _ failed => .inl failed.1)
      split
      · rename_i gate
        have atEnd : (stored s.broker).length = record.sourceOffset := high.symm.trans gate
        refine wp_mono (LawfulBroker.send_spec _ (s.config.futureRecord record) s₁.broker
          (producer ▸ noRetries)) (fun offset broker ⟨appended, landed⟩ => ?_)
          (fun _ broker failed => ?_)
        · rw [same] at appended landed
          rw [if_pos ((asU64_eq landed).trans atEnd)]
          exact ⟨⟨settings, producer⟩, atEnd, appended⟩
        · -- A produce that was reported failed may have been appended all the same.
          rcases failed with unchanged | appended
          · exact .inl (unchanged.trans same)
          · rw [same] at appended
            exact .inr ⟨atEnd, appended⟩
      · exact .inl same

instance : LawfulSink (KafkaSink β) where
  owned s := ClientConfig.get s.producer "message.send.max.retries" = some "0"
  position s := (stored s.broker).length
  nextExpectedOffset_spec _ owned :=
    wp_mono fetchHighWatermark_spec
      (fun _ _ ⟨clients, same, high⟩ => ⟨clients.2 ▸ owned, congrArg _ same, high⟩)
      (fun _ _ _ => trivial)
  furthestNextOffset_spec _ owned := ⟨owned, rfl⟩
  write_spec record _ owned _ :=
    wp_mono (write_spec record owned)
      (fun _ _ ⟨clients, atEnd, appended⟩ =>
        ⟨clients.2 ▸ owned, by rw [appended, List.length_append, atEnd]; rfl⟩)
      (fun _ _ _ => trivial)
  align_spec _ _ _ allowed := absurd allowed Bool.false_ne_true

/-- What others produce to the partition shows in its high watermark. -/
instance : SharedSink (KafkaSink β) where
  foreign s s' := SameClients s s' ∧ stored s.broker <+: stored s'.broker
  foreign_spec _ _ owned written :=
    ⟨(congrArg (ClientConfig.get · _) written.1.2).trans owned, written.2.length_le, rfl,
      fun holes => absurd holes Bool.false_ne_true⟩
  write_gate record _ owned :=
    wp_mono (write_spec record owned) (fun _ _ ⟨_, atEnd, _⟩ => Nat.le_of_eq atEnd)
      (fun _ _ _ => trivial)

end KafkaSink

end MirrorV3
