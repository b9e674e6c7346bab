import MirrorV3.Kafka.Delivery
import MirrorV3.Lib.Text

/-! Opening the target of a restore, with batches as large as its topic accepts. -/

namespace MirrorV3

open Effect

/-- What a broker is asked to describe. -/
inductive ResourceSpecifier where
  | topic (name : String)
  | broker (id : Int32)
  deriving Repr, DecidableEq

/-- The settings of one thing, some of them without a value. -/
abbrev ConfigResource : Type := List (String × Option String)

/-- A broker that describes its settings and says which brokers there are. -/
class DescribingBroker (β : Type) extends QueueingBroker β where
  describeConfigs (resource : ResourceSpecifier) :
    Program String β (List (Except String ConfigResource))
  /-- The brokers that the metadata of a topic lists. -/
  fetchMetadata (topic : String) : Program String β (List Int32)

/-- Why the producer of a restore was not opened. -/
inductive OpenError where
  | init (cause : KafkaError)
  | read (message : String)
  deriving Repr, DecidableEq

/-- A value that may be missing, in the form that messages have it. -/
def debugOption (debug : String → String) : Option String → String
  | none => "None"
  | some value => s!"Some({debug value})"

/-- The size that a setting of a topic states. -/
def parseBytes (debug : String → String) (topic name : String) (value : Option String) :
    Except OpenError Nat :=
  match (value.bind fun v => Text.parseU64 (Text.trim v.toList)).filter (0 < ·) with
  | some size => .ok size
  | none => .error (.read s!"topic {topic}: {name} is {debugOption debug value}, not a size")

section Clients

variable {β : Type} [DescribingBroker β]

/-- The settings of one thing, which the broker describes first. -/
def describeOne (resource : ResourceSpecifier) : Program String β ConfigResource := do
  match ← DescribingBroker.describeConfigs resource with
  | [] => throw "the broker described nothing"
  | described :: _ => MonadExcept.ofExcept described

/-- The largest record batch a topic accepts: its own setting, or the default of the brokers. -/
def fetchMaxMessageBytes (debug : String → String) (bootstrap topic : String) :
    Program OpenError β Nat := do
  let config := ClientConfig.set [] "bootstrap.servers" bootstrap
  focus ⟨id, fun s _ => s⟩ (fun e => .init (.init e)) (Broker.create config)
  let described ← focus ⟨id, fun s _ => s⟩ (fun e => .read s!"topic {topic}'s config: {e}")
    (describeOne (.topic topic))
  match described.lookup "max.message.bytes" with
  | some value => MonadExcept.ofExcept (parseBytes debug topic "max.message.bytes" value)
  | none =>
    focus ⟨id, fun s _ => s⟩ (fun e => .init (.init e)) (Broker.create config)
    let brokers ← focus ⟨id, fun s _ => s⟩ (fun e => .read s!"metadata of {topic}: {e}")
      (DescribingBroker.fetchMetadata topic)
    match brokers with
    | [] => throw (.read s!"metadata of {topic}: no brokers")
    | broker :: _ =>
      let described ← focus ⟨id, fun s _ => s⟩ (fun e => .read s!"broker {broker}'s config: {e}")
        (describeOne (.broker broker))
      MonadExcept.ofExcept (parseBytes debug topic
        "message.max.bytes (the broker default, as the topic has no max.message.bytes)"
        (described.lookup "message.max.bytes").join)

/-- Open a producer for one partition, with batches as large as its topic accepts. -/
def RestoreProducer.open_ (debug : String → String) (bootstrapServers topic : String)
    (partition : Int32) (keys values : ColumnType) : Program OpenError β (RestoreProducer β) := do
  let maxMessageBytes ← fetchMaxMessageBytes debug bootstrapServers topic
  focus ⟨id, fun s _ => s⟩ .init
    (withMaxMessageBytes bootstrapServers topic partition keys values maxMessageBytes)

end Clients

/-- A describing broker that queues nothing when it is asked. -/
class LawfulDescribingBroker (β : Type) [DescribingBroker β] [PartitionHistory β] [QueueHistory β] :
    Prop extends LawfulQueueingBroker β where
  describeConfigs_spec : ∀ resource (s : β),
    wp (DescribingBroker.describeConfigs resource : Program String β _)
      (fun _ => OnlyGrew s) (fun _ => OnlyGrew s) s
  fetchMetadata_spec : ∀ topic (s : β),
    wp (DescribingBroker.fetchMetadata topic : Program String β _)
      (fun _ => OnlyGrew s) (fun _ => OnlyGrew s) s

section Specs

variable {β : Type} [DescribingBroker β] [PartitionHistory β] [QueueHistory β]
  [LawfulDescribingBroker β]

/-- Describing one thing queues nothing. -/
theorem describeOne_spec (resource : ResourceSpecifier) (s : β) :
    wp (describeOne resource) (fun _ => OnlyGrew s) (fun _ => OnlyGrew s) s := by
  simp only [describeOne, wp_bind]
  apply wp_mono (LawfulDescribingBroker.describeConfigs_spec resource s)
  · intro described s' grew
    -- Whatever the answer says, the queue is as it was when it came.
    cases described with
    | nil => exact grew
    | cons first others =>
      simp only [wp_ofExcept]
      cases first <;> exact grew
  · intro _ _ grew
    exact grew

/-- Neither does asking for the largest batch. -/
theorem fetchMaxMessageBytes_spec (debug : String → String) (bootstrap topic : String) (s : β) :
    wp (fetchMaxMessageBytes debug bootstrap topic) (fun _ => OnlyGrew s) (fun _ => OnlyGrew s) s := by
  simp only [fetchMaxMessageBytes, wp_bind, wp_focus, id]
  apply wp_mono (LawfulQueueingBroker.create_spec _ s)
  · intro _ s₁ made
    apply wp_mono (describeOne_spec (.topic topic) s₁)
    · intro described s₂ asked
      have here := made.trans asked
      cases described.lookup "max.message.bytes" with
      | some value =>
        simp only [wp_ofExcept]
        -- The topic has a limit of its own, readable or not.
        cases parseBytes debug topic "max.message.bytes" value <;> exact here
      | none =>
        -- The topic says nothing, so the first broker is asked for its default.
        simp only [wp_bind, wp_focus, id]
        apply wp_mono (LawfulQueueingBroker.create_spec _ s₂)
        · intro _ s₃ again
          apply wp_mono (LawfulDescribingBroker.fetchMetadata_spec topic s₃)
          · intro brokers s₄ listed
            have there := (here.trans again).trans listed
            cases brokers with
            | nil => exact there
            | cons broker others =>
              simp only [wp_bind, wp_focus, id, wp_ofExcept]
              apply wp_mono (describeOne_spec (.broker broker) s₄)
              · intro described' s₅ told
                have last := there.trans told
                cases parseBytes debug topic _ (described'.lookup "message.max.bytes").join <;>
                  exact last
              · intro _ _ told
                exact there.trans told
          · intro _ _ listed
            exact (here.trans again).trans listed
        · intro _ _ again
          exact here.trans again
    · intro _ _ asked
      exact made.trans asked
  · intro _ _ made
    exact made

/-- A producer that was opened has nothing in flight, and queued nothing. -/
theorem RestoreProducer.open_spec (debug : String → String) (bootstrapServers topic : String)
    (partition : Int32) (keys values : ColumnType) (s : β) :
    wp (open_ debug bootstrapServers topic partition keys values)
      (fun opened s' => opened.broker = s' ∧ opened.topic = topic ∧ opened.partition = partition
        ∧ opened.inFlight = [] ∧ OnlyGrew s s') (fun _ => OnlyGrew s) s := by
  simp only [open_, wp_bind]
  apply wp_mono (fetchMaxMessageBytes_spec debug bootstrapServers topic s)
  · intro size s₁ asked
    -- The client that describes is not the one that produces, and neither queues anything.
    simp only [withMaxMessageBytes, wp_bind, wp_focus, id, wp_get, wp_pure, true_and]
    apply wp_mono (LawfulQueueingBroker.create_spec _ s₁)
    · intro _ s₂ made
      exact asked.trans made
    · intro _ _ made
      exact asked.trans made
  · intro _ _ asked
    exact asked

end Specs

namespace QueueingPartition

/-- A partition in memory answers with the size of a batch of its own, and with itself. -/
instance : DescribingBroker QueueingPartition where
  describeConfigs _ := do
    focus ⟨id, fun s _ => s⟩ QueueError.display admitted
    pure [.ok [("max.message.bytes", some "1048588")]]
  fetchMetadata _ := do
    focus ⟨id, fun s _ => s⟩ QueueError.display admitted
    pure [0]

instance : LawfulDescribingBroker QueueingPartition where
  describeConfigs_spec resource s := by
    show wp (focus ⟨id, fun s _ => s⟩ _ admitted >>= _) _ _ s
    simp only [wp_bind, wp_focus, id, wp_pure]
    exact admitted_spec s
  fetchMetadata_spec topic s := by
    show wp (focus ⟨id, fun s _ => s⟩ _ admitted >>= _) _ _ s
    simp only [wp_bind, wp_focus, id, wp_pure]
    exact admitted_spec s

end QueueingPartition

end MirrorV3
