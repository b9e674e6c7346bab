import Mathlib.Data.Stream.Defs
import MirrorV3.Lib.Effect
import MirrorV3.Core.Record

/-! A destination partition behind its broker: what a client asks for, and what the broker keeps. -/

namespace MirrorV3

open Effect

/-- The settings of a Kafka client, each under its name. -/
abbrev ClientConfig := List (String × String)

namespace ClientConfig

/-- Settings with one of them given a value, whatever it was before. -/
def set (config : ClientConfig) (key value : String) : ClientConfig :=
  (key, value) :: config.filter (·.1 ≠ key)

/-- The value of a setting, if there is one. -/
def get (config : ClientConfig) (key : String) : Option String := config.lookup key

/-- A setting that was just given a value has it. -/
@[simp] theorem get_set_self (config : ClientConfig) (key value : String) :
    (config.set key value).get key = some value := by
  simp [get, set]

end ClientConfig

/-- A record on its way to a broker. -/
structure FutureRecord where
  topic : String
  partition : Option Int32
  payload : Option Bytes
  key : Option Bytes
  /-- Left to the broker when absent. -/
  timestamp : Option Int64
  headers : Option (List Header)
  deriving Repr, DecidableEq

/-- A record for a topic, with nothing else set. -/
def FutureRecord.to (topic : String) : FutureRecord := ⟨topic, none, none, none, none, none⟩

/-- The clients of one destination partition. -/
class Broker (β : Type) where
  /-- Make a client with these settings. -/
  create (config : ClientConfig) : Program String β Unit
  /-- The low and the high watermark of the partition. -/
  fetchWatermarks (topic : String) (partition : Int32) : Program String β (Int64 × Int64)
  /-- Produce one record and wait for the offset it was stored at. -/
  send (producer : ClientConfig) (record : FutureRecord) : Program String β Int64

/-- The records of the partition, each at the offset that is its place in the list. -/
class PartitionHistory (β : Type) where
  stored : β → List FutureRecord

export PartitionHistory (stored)

/-- An append-only partition that no one else produces to. -/
class LawfulBroker (β : Type) [Broker β] [PartitionHistory β] : Prop where
  /-- Making a client stores nothing. -/
  create_spec : ∀ config (s : β), wp (Broker.create config : Program String β _)
    (fun _ s' => stored s' = stored s) (fun _ s' => stored s' = stored s) s
  /-- The high watermark is the number of records, or negative when the broker does not know it. -/
  fetchWatermarks_spec : ∀ topic partition (s : β),
    wp (Broker.fetchWatermarks topic partition : Program String β _)
      (fun watermarks s' => stored s' = stored s
        ∧ (watermarks.2.toInt = (stored s).length ∨ watermarks.2.toInt < 0))
      (fun _ s' => stored s' = stored s) s
  /-- A produce that nothing repeats appends once, and when it is reported failed it may have. -/
  send_spec : ∀ producer record (s : β),
    ClientConfig.get producer "message.send.max.retries" = some "0" →
    wp (Broker.send producer record : Program String β _)
      (fun offset s' => stored s' = stored s ++ [record] ∧ offset.toInt = (stored s).length)
      (fun _ s' => stored s' = stored s ∨ stored s' = stored s ++ [record]) s

/-- What the broker does with one request. -/
structure BrokerAnswer where
  /-- The request is reported failed. -/
  error : Option String
  /-- A produce takes effect although it is reported failed. -/
  landed : Bool
  /-- The high watermark is not known at this moment. -/
  unknown : Bool

/-- A partition kept in memory, with everything its broker will answer. -/
structure Partition where
  records : List FutureRecord
  answers : Stream' BrokerAnswer

namespace Partition

instance : PartitionHistory Partition := ⟨records⟩

/-- Send one request, which the broker answers or fails. -/
def request : Program String Partition BrokerAnswer := do
  let s ← get
  set { s with answers := s.answers.tail }
  match s.answers.head.error with
  | some error => throw error
  | none => pure s.answers.head

/-- The watermarks, the high one negative when it is not known. -/
def fetchWatermarks : Program String Partition (Int64 × Int64) := do
  let answer ← request
  let s ← get
  ensure (s.records.length < 2 ^ 63) "partition full"
  pure (0, if answer.unknown then -1 else Int64.ofNat s.records.length)

/-- Append a record, which the broker may do even when it reports a failure. -/
def send (record : FutureRecord) : Program String Partition Int64 := do
  let s ← get
  ensure (s.records.length < 2 ^ 63) "partition full"
  let answer := s.answers.head
  let landed : Partition := { s with records := s.records ++ [record] }
  set { (if answer.error.isNone || answer.landed then landed else s) with
    answers := s.answers.tail }
  match answer.error with
  | some error => throw error
  | none => pure (Int64.ofNat s.records.length)

instance : Broker Partition where
  create _ := do
    let _ ← request
  fetchWatermarks _ _ := fetchWatermarks
  send _ := send

/-- A request changes no record. -/
theorem request_spec (s : Partition) :
    wp request (fun _ s' => s'.records = s.records) (fun _ s' => s'.records = s.records) s := by
  simp only [request, wp_bind, wp_get, wp_set]
  cases s.answers.head.error with
  | some error => rfl
  | none => rfl

/-- A length in range is the signed integer it is converted to. -/
theorem toInt_length {n : Nat} (inRange : n < 2 ^ 63) : (Int64.ofNat n).toInt = n :=
  Int64.toInt_ofNat_of_lt inRange

instance : LawfulBroker Partition where
  create_spec config s := by
    show wp (request >>= _) _ _ s
    simp only [wp_bind, wp_pure]
    exact request_spec s
  fetchWatermarks_spec topic partition s := by
    show wp fetchWatermarks _ _ s
    simp only [fetchWatermarks, wp_bind, wp_get, wp_ensure, wp_pure]
    refine wp_mono (request_spec s) (fun answer s' same => ?_) (fun _ _ same => same)
    split
    · rename_i room
      refine ⟨same, ?_⟩
      split
      · exact .inr (by decide)
      · left
        rw [toInt_length room]
        exact congrArg _ (congrArg _ same)
    · exact same
  send_spec producer record s noRetries := by
    show wp (send record) _ _ s
    simp only [send, wp_bind, wp_get, wp_ensure, wp_set]
    split
    · rename_i room
      cases outcome : s.answers.head.error with
      | none => exact ⟨rfl, toInt_length room⟩
      | some error =>
        -- The failure report says nothing about whether the record was appended.
        cases s.answers.head.landed with
        | false => exact .inl rfl
        | true => exact .inr rfl
    · exact .inl trivial

end Partition

end MirrorV3
