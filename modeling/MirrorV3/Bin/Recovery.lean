import MirrorV3.Bin.Resolution
import MirrorV3.Kafka.Opening
import MirrorV3.Restore.Produce

/-! Reading the backup of one mirror back into a topic, or only verifying that it is complete. -/

namespace MirrorV3

open Effect

/-- Where a restore writes. -/
structure RestoreTopic where
  bootstrapServers : String
  topic : String
  deriving Repr, DecidableEq

/-- The backup that a restore was asked for, and how its records are to be numbered. -/
structure MirrorBackup where
  mirror : Config.Mirror
  format : Format
  chainStart : Nat
  mode : OffsetMode
  source : BackupSource

/-- Which step of a restore failed. -/
inductive RecoveryError where
  | listing (context : String) (cause : BlobError)
  | planning (context : String) (cause : RestoreError)
  | verifying (cause : RestoreError)
  | checking (cause : RestoreError)
  | opening (context : String) (cause : OpenError)
  | restoring (context : String) (cause : RestoreError)
  deriving Repr, DecidableEq

/-- The directory that is read, and the broker that is written to. -/
structure Recovery (σ β : Type) where
  store : σ
  broker : β

namespace Recovery

variable {σ β : Type}

/-- The directory as a part of a restore. -/
def storePart : Part (Recovery σ β) σ := ⟨store, fun store s => { s with store }⟩

/-- The broker as a part of a restore. -/
def brokerPart : Part (Recovery σ β) β := ⟨broker, fun broker s => { s with broker }⟩

/-- The directory and an open producer, about to send the first record. -/
def restoringPart (opened : RestoreProducer β) :
    Part (Recovery σ β) (Restoring σ (RestoreProducer β)) where
  get s := ⟨s.store, { opened with broker := s.broker }, 0⟩
  set restoring _ := ⟨restoring.store, restoring.target.broker⟩

end Recovery

open Recovery

namespace MirrorBackup

/-- How the objects of the backup are read. -/
def reader (backup : MirrorBackup) (keyring : Option Keyring) : Reader :=
  ⟨backup.format, keyring, backup.source⟩

variable {σ β : Type} [Config.ConfigLibraries] [EnvelopeLibraries] [ByteDigest] [BlobStore σ]
  [DescribingBroker β]

/-- List, plan and verify the backup, and answer the chain with what was found. -/
def verified (backup : MirrorBackup) (location : String) (keyring : Option Keyring) :
    Program RecoveryError (Recovery σ β) (List ChainObject × BackupSummary) := do
  let names ← focus storePart (.listing s!"listing {location}") BlobStore.list
  let chain ← MonadExcept.ofExcept
    ((planChain names backup.format backup.chainStart keyring).mapError (.planning location))
  let summary ← focus storePart .verifying ((backup.reader keyring).verify chain)
  MonadExcept.ofExcept ((backup.mode.check summary).mapError .checking)
  pure (chain, summary)

/-- Open the target, and produce what was verified. -/
def produced (backup : MirrorBackup) (keyring : Option Keyring) (target : RestoreTopic)
    (chain : List ChainObject) (summary : BackupSummary) :
    Program RecoveryError (Recovery σ β) RestoreReport := do
  let opened ← focus brokerPart (.opening "opening the target topic's producer")
    (RestoreProducer.open_ Config.ConfigLibraries.debug target.bootstrapServers target.topic
      backup.source.partition (backup.mirror.keys.getD .utf8) (backup.mirror.values.getD .utf8))
  focus (restoringPart opened)
    (.restoring (s!"restoring into {target.topic}/{backup.source.partition} at "
      ++ target.bootstrapServers))
    (Restoring.produce (backup.reader keyring) chain summary backup.mode)

/-- Verify the backup and, if there is a target, produce every record of it there. -/
def run (backup : MirrorBackup) (location : String) (keyring : Option Keyring)
    (target : Option RestoreTopic) :
    Program RecoveryError (Recovery σ β) (Option RestoreReport) := do
  let (chain, summary) ← backup.verified location keyring
  match target with
  | none => pure none
  | some target => do
    let report ← backup.produced keyring target chain summary
    pure (some report)

end MirrorBackup

end MirrorV3
