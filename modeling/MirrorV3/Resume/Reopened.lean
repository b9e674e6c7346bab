import MirrorV3.Core.Startup
import MirrorV3.Fs.Store
import MirrorV3.Kafka.Sink
import MirrorV3.Restore.Chain

/-! A mirror that is opened again over what an earlier run left in its destinations. -/

namespace MirrorV3

open Effect

/-- Why a mirror that was opened and run ended. -/
inductive RunError where
  | mirror (error : MirrorError)
  | sink (error : SinkError)
  | source (error : SourceError)
  | blob (error : BlobError)
  | restore (error : RestoreError)
  | kafka (error : KafkaError)
  | other (message : String)
  deriving Repr, DecidableEq

/-- Whether a failed run can succeed when the mirror is opened again. -/
def RunError.isTransient : RunError → Bool
  | .mirror e => e.isTransient
  | .sink e => e.isTransient
  | .source e => e.isTransient
  | .blob (.store _) => true
  | .restore (.store _) => true
  | _ => false

/-- A sink of a mirror that has destinations. -/
abbrev DestinationSink : Type := BlobSink ObjectStore ⊕ KafkaSink Partition

/-- A destination as a run left it: its settings, and what it holds. -/
inductive Leftover where
  | blob (spec : BlobSpec) (checked : spec.checkEncryption = .ok ()) (objects : List BlobObject)
  | kafka (config : KafkaSinkConfig) (records : List FutureRecord)

/-- What a sink leaves behind. -/
def DestinationSink.left : DestinationSink → Leftover
  | .inl s => .blob s.spec s.checked s.store.stored
  | .inr s => .kafka s.config s.broker.records

/-- What the destinations of a tee are left as, under their names. -/
def TeeSink.left (tee : TeeSink DestinationSink) : List (String × Leftover) :=
  tee.inners.map fun inner => (inner.name, DestinationSink.left inner.sink)

/-- A store that answers every request. -/
def ObjectStore.answering (stored : List BlobObject) : ObjectStore :=
  ⟨stored, Stream'.const ⟨none, false⟩⟩

/-- A broker that answers every request. -/
def Partition.answering (records : List FutureRecord) : Partition :=
  ⟨records, Stream'.const ⟨none, false, false⟩⟩

/-- A source that answers every request, of which these records are left. -/
def LogSource.answering (log : Log) (low high : Nat) : LogSource :=
  ⟨log, 0, low, Stream'.const ⟨none, false, high⟩⟩

/-- Clocks that no startup makes move. -/
def Clocks.still (unix now : Nat) : Clocks := ⟨Stream'.const unix, Stream'.const now⟩

/-- What starting a mirror again comes to, and what its destinations are left as. -/
inductive Restarted where
  | failed (error : RunError) (left : List (String × Leftover))
  | resumed (expected : Nat) (left : List (String × Leftover))

section

variable [EnvelopeLibraries]

/-- Open the sink of a destination over what it holds. -/
def Leftover.reopen (clocks : Clocks) : Leftover → Except (RunError × Leftover) DestinationSink
  | .blob spec checked objects =>
    match BlobSink.openStore spec clocks (ObjectStore.answering objects) with
    | .ok sink _ => .ok (.inl sink)
    | .error e store => .error (.blob e, .blob spec checked store.stored)
  | .kafka config records =>
    match KafkaSink.openSink config (Partition.answering records) with
    | .ok sink _ => .ok (.inr sink)
    | .error e partition => .error (.kafka e, .kafka config partition.records)

/-- Open the sinks of all destinations, one after the other, each with what it reads of the clocks. -/
def reopenAll (clocks : Nat → Clocks) : List (String × Leftover) →
    Except (RunError × List (String × Leftover)) (List (String × DestinationSink))
  | [] => .ok []
  | (name, left) :: rest =>
    match left.reopen (clocks 0) with
    | .error (e, left) => .error (e, (name, left) :: rest)
    | .ok sink =>
      match reopenAll (fun i => clocks (i + 1)) rest with
      | .error (e, rest) => .error (e, (name, DestinationSink.left sink) :: rest)
      | .ok sinks => .ok ((name, sink) :: sinks)

/-- Open a mirror again and run it up to its first record, with everything it asks answered. -/
def restart (clocks : Nat → Clocks) (source : LogSource) (left : List (String × Leftover)) : Restarted :=
  match reopenAll clocks left with
  | .error (e, left) => .failed e left
  | .ok sinks =>
    match TeeSink.openTee none (TeeSink.slots sinks) with
    | .error e inners => .failed (.sink e) (TeeSink.left ⟨inners, none, none⟩)
    | .ok tee _ =>
      match Mirror.bootstrap (⟨source, tee, {}⟩ : Mirror LogSource _ NoOpNotifier) with
      | .ok expected mirror => .resumed expected mirror.sink.left
      | .error (.failed e) mirror => .failed (.mirror e) mirror.sink.left
      | .error (.panicked message) mirror => .failed (.other message) mirror.sink.left

/-- A restart that ended for good, and wrote nothing before it did. -/
def EndedForGood (left : List (String × Leftover)) : Restarted → Prop
  | .failed e after => e.isTransient = false ∧ after = left
  | .resumed _ _ => False

/-- Where a destination says that it stands, from what it holds. -/
def Leftover.stands : Leftover → Except RunError Nat
  | .blob spec _ objects => do
    let chain ← (validateChain (objects.map (·.1)) spec.format spec.compaction).mapError .blob
    match chain.latest with
    | none => return chain.durable
    | some name =>
      match objects.lookup name with
      | none => throw (.blob (.store s!"no object {name}"))
      | some bytes =>
        let _ ← (decodeView name name bytes spec.format spec.encryption).mapError .blob
        return chain.durable
  | .kafka _ records => return records.length

/-- Whether a destination compacts, so that it can resume past what the source no longer has. -/
def Leftover.compacts : Leftover → Bool
  | .blob spec _ _ => spec.compaction = some .log
  | .kafka _ _ => false

/--
Whether a drift check takes what is listed past the object before the last for another chain's end.

It does for a name that is not where its range comes in the order of names.
-/
def Leftover.strays : Leftover → Bool
  | .blob spec _ objects =>
    match validateChain (objects.map (·.1)) spec.format spec.compaction with
    | .error _ => false
    | .ok chain =>
      let after := if chain.tail.length < 2 then none else chain.tail.head?
      let listed := (objects.map (·.1)).filter fun name => after.all (· < name)
      (chain.tail.getLast?.filter (· ∉ listed)).isSome
        || (listed.find? (some · ≠ chain.tail.getLast?)).isSome
  | .kafka _ _ => false

/-- A drift check is due when a destination is asked where it stands, which a startup does twice. -/
def Clocks.ChecksDrift (clocks : Clocks) : Prop :=
  ∃ query < 2, driftCheckInterval ≤ clocks.instants.get (2 * query + 2) - clocks.instants.head

/--
Where the destinations end is no place to go on from in a source.

One is ahead of the source, or one is behind it and the destinations cannot all be moved up to where
the source begins.
-/
def Unfit (low high : Nat) (left : List (String × Leftover)) (ends : List Nat) : Prop :=
  (∃ head ∈ ends, high < head)
    ∨ (∃ head ∈ ends, head < low) ∧ ((∃ entry ∈ left, entry.2.compacts = false)
      ∨ ∃ head ∈ ends, low < head)

/--
What the destinations hold cannot be continued from a source.

Either they say so themselves, or where they end is no place to go on from.
A startup that takes long enough for a drift check is also stopped by a name out of order.
-/
def Contradicted (clocks : Nat → Clocks) (low high : Nat) (left : List (String × Leftover)) : Prop :=
  match left.mapM (·.2.stands) with
  | .error e => e.isTransient = false
  | .ok ends =>
    (∃ i entry, left[i]? = some entry ∧ (clocks i).ChecksDrift ∧ entry.2.strays = true)
      ∨ Unfit low high left ends

end

end MirrorV3
