import MirrorV3.Core.Record
import MirrorV3.Envelope.Format
import MirrorV3.Fs.Chain
import MirrorV3.Kafka.Sink

/-! What an operator writes down: mirrors, their destinations, and what they serve and notify. -/

namespace MirrorV3

namespace Config

/-- A topic on another cluster, or under another name. -/
structure KafkaDestination where
  name : Option String
  bootstrapServers : String
  /-- By default the topic of the mirror. -/
  topic : Option String
  affectsReadiness : Bool
  deriving Repr, DecidableEq

/-- A directory below a root. -/
structure FilesystemDestination where
  name : Option String
  root : String
  affectsReadiness : Bool
  deriving Repr, DecidableEq

/-- The environment variables that hold one identity's key. -/
structure S3Key where
  accessKeyIdEnv : String
  secretAccessKeyEnv : String
  deriving Repr, DecidableEq

/-- The identity that puts objects and the one that lists and reads them. -/
structure S3Credentials where
  write : S3Key
  read : S3Key
  deriving Repr, DecidableEq

/-- The keys a directory holds, and the id of the one new blobs are encrypted with. -/
structure ParquetKeys where
  keysDir : String
  keyId : String
  deriving Repr, DecidableEq

/-- A written decision about clear text. -/
inductive Encryption where
  | none
  | parquetKeys (keys : ParquetKeys)
  deriving Repr, DecidableEq

/-- A prefix of a bucket. -/
structure S3Destination where
  name : Option String
  endpoint : Option String
  region : String
  bucket : String
  prefix_ : Option String
  credentials : S3Credentials
  encryption : Encryption
  affectsReadiness : Bool
  deriving Repr, DecidableEq

/-- Where the bytes of a mirror land. -/
inductive Destination where
  | kafka (k : KafkaDestination)
  | filesystem (fs : FilesystemDestination)
  | s3 (s3 : S3Destination)
  deriving Repr, DecidableEq

namespace Destination

/-- The identifier that was written for the destination, if one was. -/
def rawDestinationName : Destination → Option String
  | .kafka d => d.name
  | .filesystem d => d.name
  | .s3 d => d.name

/-- The identifier of the destination, by default the name of its mirror. -/
def effectiveName (d : Destination) (mirrorName : String) : String :=
  d.rawDestinationName.getD mirrorName

/-- Whether the destination buffers between flushes. -/
def isBlob : Destination → Bool
  | .kafka _ => false
  | _ => true

end Destination

/-- The wire contracts a notifier speaks. -/
inductive NotifyApi where
  | kkvV1
  deriving Repr, DecidableEq

/-- How the host of a target is resolved. -/
inductive FanOut where
  | none
  /-- Every address record is posted to. -/
  | dnsA
  deriving Repr, DecidableEq

/-- One receiver of notifications. -/
structure NotifyTarget where
  url : String
  fanOut : FanOut
  deriving Repr, DecidableEq

/-- What makes a mirror notify. -/
inductive TriggerOn where
  /-- The loop hands a record to the mirror. -/
  | sourceConsume
  /-- Every destination has made a range durable. -/
  | destinationFlush
  deriving Repr, DecidableEq

/-- How many records, or how long, one batch waits for. -/
structure NotifyDebounce where
  maxRecords : Nat
  maxTimeMs : Nat
  deriving Repr, DecidableEq

structure NotifyTrigger where
  on : TriggerOn
  debounce : Option NotifyDebounce
  deriving Repr, DecidableEq

structure NotifyRetry where
  maxAttempts : Nat
  backoffMs : Nat
  deriving Repr, DecidableEq

/-- What a batch counts as once its retries are used up. -/
inductive FinalAction where
  /-- Delivered. -/
  | accept
  /-- Dropped, with a warning. -/
  | skip
  /-- The mirror ends. -/
  | fail
  deriving Repr, DecidableEq

structure NotifyOutcome where
  retry : Bool
  final : FinalAction
  deriving Repr, DecidableEq

/-- What each outcome of a request means for the mirror. -/
structure NotifyOutcomes where
  timeout : NotifyOutcome
  connrefused : NotifyOutcome
  twoXx : NotifyOutcome
  threeXx : NotifyOutcome
  fourXx : NotifyOutcome
  fiveXx : NotifyOutcome
  deriving Repr, DecidableEq

/-- The outbound notifications of a mirror. -/
structure Notify where
  api : NotifyApi
  targets : List NotifyTarget
  trigger : NotifyTrigger
  timeoutMs : Nat
  retry : NotifyRetry
  outcomes : NotifyOutcomes
  deriving Repr, DecidableEq

/-- Which routes read the view of a mirror, each a block without fields. -/
structure HttpAccess where
  cacheV1 : Option Unit
  /-- The routes without the name of the mirror in them. -/
  cacheV1Main : Option Unit
  deriving Repr, DecidableEq

/-- Whether any routes read the view. -/
def HttpAccess.anyEnabled (http : HttpAccess) : Bool := http.cacheV1.isSome || http.cacheV1Main.isSome

structure KafkaSource where
  bootstrapServers : String
  groupId : Option String
  deriving Repr, DecidableEq

/-- When a blob destination flushes; the daily boundary is a text until it is parsed. -/
structure FlushTriggers where
  maxTimeMs : Nat
  maxBytes : Nat
  maxOffsets : Nat
  daily : Option String
  deriving Repr, DecidableEq

/-- One partition and where it is mirrored to. -/
structure Mirror where
  name : String
  source : KafkaSource
  topic : String
  partition : UInt32
  destinations : List Destination
  format : Option Format
  compression : Option ParquetCompression
  keys : Option ColumnType
  values : Option ColumnType
  compaction : Option CompactionMode
  flush : Option FlushTriggers
  timestampMode : Option TimestampMode
  httpAccess : Option HttpAccess
  enabled : Option Bool
  notify : Option Notify
  deriving Repr, DecidableEq

namespace Mirror

/-- Whether the mirror is spawned, which it is unless that is switched off. -/
def isEnabled (m : Mirror) : Bool := m.enabled.getD true

/-- The consumer group the mirror commits to. -/
def effectiveGroupId (m : Mirror) : String := m.source.groupId.getD s!"mirror-v3-{m.name}"

/-- Whether any routes read the view of the mirror. -/
def hasHttp (m : Mirror) : Bool := m.httpAccess.any HttpAccess.anyEnabled

end Mirror

end Config

/-- Every mirror of a process. -/
structure Config where
  mirrors : List Config.Mirror
  deriving Repr, DecidableEq

end MirrorV3
