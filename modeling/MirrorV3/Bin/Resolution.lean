import MirrorV3.Bin.Destinations
import MirrorV3.Config.AtUtc
import MirrorV3.Restore.Read

/-! What the settings of a mirror become when it starts, by steps that read nothing else. -/

namespace MirrorV3

open Config ConfigLibraries Results

/-- Why a mirror was not resolved. -/
inductive ResolveError where
  | missingFlush (message : String)
  | dailyAtUtc (context : String) (cause : AtUtcError)
  | partition (context : String)
  | keyring (context cause : String)
  deriving Repr, DecidableEq

/-- The message about a mirror that was not resolved, with what caused it. -/
def ResolveError.display [ConfigLibraries] : ResolveError → String
  | .missingFlush message => message
  | .dailyAtUtc context cause => s!"{context}: {cause.display}"
  | .partition context => s!"{context}: out of range integral type conversion attempted"
  | .keyring context cause => s!"{context}: {cause}"

/-- How the blob destinations of a mirror encode and flush, with the defaults filled in. -/
structure BlobMirrorParams where
  format : Format
  compression : ParquetCompression
  keys : ColumnType
  values : ColumnType
  flush : FlushTriggers
  deriving Repr, DecidableEq

section Settings

variable [ConfigLibraries]

/-- The second of the day of a daily boundary, if there is one. -/
def resolveDaily (mirror : Config.Mirror) : Option String → Except ResolveError (Option Nat)
  | none => .ok none
  | some atUtc =>
    match parseAtUtc atUtc with
    | .ok seconds => .ok (some seconds)
    | .error e => .error (.dailyAtUtc s!"mirror {debug mirror.name}: daily.at-utc" e)

/-- What the blob destinations of a mirror share. -/
def resolveBlobParams (mirror : Config.Mirror) : Except ResolveError BlobMirrorParams :=
  match mirror.flush with
  | none => .error (.missingFlush s!"mirror {debug mirror.name}: missing `flush`")
  | some cfgFlush => do
    let dailyAtUtcSeconds ← resolveDaily mirror cfgFlush.daily
    return {
      format := mirror.format.getD .parquet
      compression := mirror.compression.getD .zstd1
      keys := mirror.keys.getD .utf8
      values := mirror.values.getD .utf8
      flush := {
        maxTime := cfgFlush.maxTimeMs
        maxBytes := cfgFlush.maxBytes
        maxOffsets := cfgFlush.maxOffsets
        dailyAtUtcSeconds } }

/-- How a destination encodes and flushes, given what encrypts its blobs. -/
def BlobMirrorParams.spec (params : BlobMirrorParams) (mirror : Config.Mirror)
    (encryption : Option BlobEncryption) : BlobSpec where
  format := params.format
  compression := params.compression
  keys := params.keys
  values := params.values
  compaction := mirror.compaction
  flush := params.flush
  encryption := encryption

/-- The keys in a directory, or why they could not be loaded: the environment decides. -/
abbrev LoadKeyring : Type := String → Except String Keyring

/-- What encrypts the blobs of a bucket: the keys of a directory, the active one among them. -/
def s3Encryption (load : LoadKeyring) (s3 : S3Destination) :
    Except ResolveError (Option BlobEncryption) :=
  match s3.encryption with
  | .none => .ok none
  | .parquetKeys k => do
    let keyring ← (load k.keysDir).mapError (.keyring s!"S3 destination bucket {s3.bucket}")
    let _ ← (keyring.get k.keyId).mapError (.keyring s!"S3 destination bucket {s3.bucket}")
    return some ⟨k.keyId, keyring⟩

/-- How a destination is opened, if it is one that writes blobs. -/
def Config.Destination.blobSpec (load : LoadKeyring) (mirror : Config.Mirror) :
    Destination → Option (Except ResolveError BlobSpec)
  | .kafka _ => none
  | .filesystem _ => some do
    let params ← resolveBlobParams mirror
    return params.spec mirror none
  | .s3 bucket => some do
    let params ← resolveBlobParams mirror
    let encryption ← s3Encryption load bucket
    return params.spec mirror encryption

/-- The partition of a mirror as the client of a broker takes it, by the bits it has. -/
def Config.Mirror.partitionAsI32 (mirror : Config.Mirror) : Int32 := mirror.partition.toInt32

/-- An unsigned 32-bit value as a signed one, if it is small enough. -/
def i32TryFrom (value : UInt32) : Option Int32 :=
  if value.toNat < 2 ^ 31 then some value.toInt32 else none

/-- What the backup of a mirror was taken of. -/
def backupSource (mirror : Config.Mirror) : Except ResolveError BackupSource :=
  match i32TryFrom mirror.partition with
  | some partition => .ok ⟨mirror.topic, partition⟩
  | none => .error (.partition s!"mirror {debug mirror.name}: partition")

end Settings

section Endpoints

/-- The parts of a URL that an endpoint is built of, beside those a configuration is held against. -/
class UrlParts extends ConfigLibraries where
  /-- The path of the URL in a text. -/
  path : String → String
  /-- The port written in it, or the one that its scheme is known for. -/
  portOrKnownDefault : String → Option Nat
  /-- A port is known for both schemes that are spoken. -/
  known : ∀ text url, parseUrl text = .ok url → url.scheme = "http" ∨ url.scheme = "https" →
    (portOrKnownDefault text).isSome = true

/-- Why an endpoint could not be built. -/
inductive BuildError where
  | invalidUrl (url source : String)
  | unsupportedScheme (url scheme : String)
  | noHost (url : String)
  deriving Repr, DecidableEq

/-- Where the requests to a target go: to its host, or to every address of it. -/
inductive FanOutMode where
  | none
  | dnsA (host : String) (port : Nat)
  deriving Repr, DecidableEq

/-- One target, resolved. -/
structure Endpoint where
  url : Url
  path : String
  targetHost : String
  fanOut : FanOutMode
  deriving Repr, DecidableEq

/-- The path of the notifications where a URL names none. -/
def kkvV1DefaultPath : String := "/kafka-keyvalue/v1/updates"

variable [UrlParts]

/-- Resolve a target. -/
def buildEndpoint (target : NotifyTarget) : Except BuildError Endpoint := do
  let url ← (parseUrl target.url).mapError (.invalidUrl target.url)
  if url.scheme ≠ "http" ∧ url.scheme ≠ "https" then
    throw (.unsupportedScheme target.url url.scheme)
  match url.host with
  | none => throw (.noHost target.url)
  | some targetHost =>
    let path :=
      if UrlParts.path target.url = "" ∨ UrlParts.path target.url = "/" then kkvV1DefaultPath
      else UrlParts.path target.url
    let fanOut ←
      match target.fanOut with
      | .none => pure FanOutMode.none
      | .dnsA =>
        match UrlParts.portOrKnownDefault target.url with
        | some port => pure (.dnsA targetHost port)
        | none => throw (.unsupportedScheme target.url url.scheme)
    return ⟨url, path, targetHost, fanOut⟩

/-- Every step of a start that reads nothing but the settings of a mirror succeeds. -/
structure Config.Mirror.Resolves (m : Config.Mirror) : Prop where
  params : ∀ d ∈ m.destinations, d.isBlob = true → ∃ params, resolveBlobParams m = .ok params
    ∧ ∀ seconds ∈ params.flush.dailyAtUtcSeconds, seconds < 86400
  /-- The partition of the source and of a Kafka destination is the one that was written. -/
  partition : m.partitionAsI32.toInt = m.partition.toNat
  /-- And so is that of a backup. -/
  backup : ∃ source, backupSource m = .ok source ∧ source.partition.toInt = m.partition.toNat
  endpoints : ∀ notify ∈ m.notify, ∀ target ∈ notify.targets,
    ∃ endpoint, buildEndpoint target = .ok endpoint
  /-- Whatever the key directories hold, a destination that is resolved may encrypt. -/
  encryption : ∀ d ∈ m.destinations, ∀ load spec,
    d.blobSpec load m = some (.ok spec) → spec.checkEncryption = .ok ()

end Endpoints

section Validated

variable {m : Config.Mirror}

/-- A mirror that passed encrypts only a columnar format that is written out. -/
theorem format_of_encrypted [ConfigLibraries] (valid : validateMirror m = .ok ())
    {s3 : S3Destination} (mem : Destination.s3 s3 ∈ m.destinations) {keys : ParquetKeys}
    (encrypted : s3.encryption = .parquetKeys keys) : m.format = some .parquet := by
  have some_ : m.destinations ≠ [] := List.ne_nil_of_mem mem
  simp only [validateMirror, if_neg some_] at valid
  obtain ⟨⟨⟩, shape, -⟩ := of_bind_ok valid
  obtain ⟨⟨⟩, -, shape⟩ := of_bind_ok shape
  obtain ⟨⟨⟩, checked, -⟩ := of_bind_ok shape
  have passed := of_forM_ok checked _ mem
  obtain ⟨name, endpoint, region, bucket, prefix_, credentials, encryption, affects⟩ := s3
  obtain rfl : encryption = .parquetKeys keys := encrypted
  obtain ⟨⟨⟩, columnar, -⟩ := of_bind_ok passed
  simpa using of_require columnar

/-- A notify block that passed has targets that passed. -/
theorem validateTarget_of_shared [ConfigLibraries] {notify : Notify}
    (valid : validateNotifyShared m notify = .ok ()) {target : NotifyTarget}
    (mem : target ∈ notify.targets) : ∃ i, validateTarget m (target, i) = .ok () := by
  obtain ⟨⟨⟩, -, valid⟩ := of_bind_ok valid
  obtain ⟨⟨⟩, targets, -⟩ := of_bind_ok valid
  obtain ⟨i, here⟩ := List.mem_iff_getElem?.mp mem
  exact ⟨i, of_forM_ok targets (target, i) (List.mem_zipIdx_iff_getElem?.mpr here)⟩

/-- The targets of a mirror that passed have passed. -/
theorem validateTarget_of_mirror [ConfigLibraries] (valid : validateMirror m = .ok ())
    {notify : Notify} (notifies : notify ∈ m.notify) {target : NotifyTarget}
    (mem : target ∈ notify.targets) : ∃ i, validateTarget m (target, i) = .ok () := by
  have valid : validateHttpAndNotify m = .ok () := by
    unfold validateMirror at valid
    split at valid
    · exact (of_bind_ok valid).elim fun _ passed => passed.2
    · exact (of_bind_ok valid).elim fun _ passed => passed.2
  have shared : validateNotifyShared m notify = .ok () := by
    have last : ∀ {alone : Prop} [Decidable alone] {served : Except LoadError Unit},
        (if alone then validateNotifyShared m notify
          else served >>= fun _ => validateNotifyShared m notify) = .ok () →
        validateNotifyShared m notify = .ok () := by
      intro alone _ served valid
      split at valid
      · exact valid
      · exact (of_bind_ok valid).elim fun _ passed => passed.2
    simp only [validateHttpAndNotify, Option.mem_def.mp notifies] at valid
    split at valid
    · exact last valid
    · obtain ⟨⟨⟩, -, valid⟩ := of_bind_ok valid
      obtain ⟨⟨⟩, -, valid⟩ := of_bind_ok valid
      exact last valid
  exact validateTarget_of_shared shared mem

/-- A target that passed is resolved, however it fans out. -/
theorem exists_endpoint [UrlParts] {target : NotifyTarget} {i : Nat}
    (valid : validateTarget m (target, i) = .ok ()) :
    ∃ endpoint, buildEndpoint target = .ok endpoint := by
  simp only [validateTarget] at valid
  cases read : parseUrl target.url with
  | error e =>
    rw [read] at valid
    exact absurd (of_require valid) Bool.false_ne_true
  | ok url =>
    rw [read] at valid
    obtain ⟨⟨⟩, spoken, named⟩ := of_bind_ok valid
    have scheme : url.scheme = "http" ∨ url.scheme = "https" := by
      simpa using of_require spoken
    obtain ⟨host, has⟩ : ∃ host, url.host = some host := by
      cases has : url.host with
      | none =>
        rw [has] at named
        exact absurd (of_require named) Bool.false_ne_true
      | some host => exact ⟨host, rfl⟩
    have spoken : ¬ (url.scheme ≠ "http" ∧ url.scheme ≠ "https") := by
      rintro ⟨http, https⟩
      exact scheme.elim http https
    -- Both schemes are known for a port, so an address always has one.
    obtain ⟨port, known⟩ := Option.isSome_iff_exists.mp (UrlParts.known _ _ read scheme)
    unfold buildEndpoint
    cases fanOut : target.fanOut <;>
      simp [read, spoken, has, known, Except.mapError, bind, Except.bind, pure, Except.pure]

/-- A partition keeps its value as a signed number when it is small enough, and only then. -/
theorem partitionAsI32_iff :
    m.partitionAsI32.toInt = m.partition.toNat ↔ m.partition.toNat < 2 ^ 31 := by
  have value : m.partitionAsI32.toInt = Int.bmod m.partition.toNat (2 ^ 32) := by
    simp [Config.Mirror.partitionAsI32, ← Int32.toInt_toBitVec, BitVec.toInt_eq_toNat_bmod]
  have bounded := m.partition.toNat_lt
  rw [value, Int.bmod_def]
  omega

/-- The backup of a mirror is of the partition that was written, when that is small enough. -/
theorem backupSource_ok [ConfigLibraries] (small : m.partition.toNat < 2 ^ 31) :
    ∃ source, backupSource m = .ok source ∧ source.partition.toInt = m.partition.toNat := by
  refine ⟨⟨m.topic, m.partitionAsI32⟩, ?_, partitionAsI32_iff.mpr small⟩
  simp only [backupSource, i32TryFrom, if_pos small]
  rfl

/-- The blob parameters are resolved when the daily boundary, if there is one, is a time of day. -/
theorem resolveBlobParams_iff [ConfigLibraries] {triggers : Config.FlushTriggers}
    (flushes : m.flush = some triggers) :
    (∃ params, resolveBlobParams m = .ok params
        ∧ ∀ seconds ∈ params.flush.dailyAtUtcSeconds, seconds < 86400)
      ↔ ∀ atUtc ∈ triggers.daily, IsClockTime atUtc := by
  simp only [resolveBlobParams, flushes]
  cases daily : triggers.daily with
  | none => simp [resolveDaily, bind, Except.bind, pure, Except.pure]
  | some atUtc =>
    simp only [Option.mem_some_iff, forall_eq', ← parseAtUtc_iff, resolveDaily]
    cases read : parseAtUtc atUtc with
    | error e => simp [bind, Except.bind]
    | ok seconds => simp [bind, Except.bind, pure, Except.pure, parseAtUtc_lt read]

/-- What encrypts the blobs of a bucket was written, and its active key is held. -/
theorem of_s3Encryption {load : LoadKeyring} {s3 : S3Destination}
    {encryption : Option BlobEncryption} (resolved : s3Encryption load s3 = .ok encryption) :
    (∀ enc ∈ encryption, ∃ key, enc.keyring.get enc.keyId = .ok key)
      ∧ (encryption.isSome = true → ∃ k, s3.encryption = .parquetKeys k) := by
  unfold s3Encryption at resolved
  split at resolved
  · obtain rfl := Except.ok.inj resolved
    exact ⟨fun _ never => (by cases never), fun never => (by cases never)⟩
  · rename_i k encrypted
    obtain ⟨keyring, -, resolved⟩ := of_bind_ok resolved
    obtain ⟨key, found, resolved⟩ := of_bind_ok resolved
    obtain rfl := Except.ok.inj resolved
    refine ⟨fun enc same => ?_, fun _ => ⟨k, encrypted⟩⟩
    obtain rfl := Option.some.inj same
    -- The active key was looked up before the destination was opened.
    cases held : keyring.get k.keyId with
    | ok other => exact ⟨other, rfl⟩
    | error e =>
      rw [held] at found
      cases found

/-- A columnar destination whose active key is held may encrypt. -/
theorem checkEncryption_ok {spec : BlobSpec}
    (columnar : spec.encryption.isSome = true → spec.format = .parquet)
    (active : ∀ enc ∈ spec.encryption, ∃ key, enc.keyring.get enc.keyId = .ok key) :
    spec.checkEncryption = .ok () := by
  unfold BlobSpec.checkEncryption
  cases setting : spec.encryption with
  | none => rfl
  | some enc =>
    obtain ⟨key, held⟩ := active enc setting
    simp only [columnar (by rw [setting]; rfl), held]
    rfl

/-- A destination of a mirror that passed may encrypt as it does. -/
theorem checkEncryption_of_blobSpec [ConfigLibraries] (valid : validateMirror m = .ok ())
    {d : Destination} (mem : d ∈ m.destinations) {load : LoadKeyring} {spec : BlobSpec}
    (resolved : d.blobSpec load m = some (.ok spec)) : spec.checkEncryption = .ok () := by
  -- Only a bucket may encrypt, and the validator saw that its format is columnar then.
  have format : ∀ {params}, resolveBlobParams m = .ok params →
      params.format = m.format.getD .parquet := by
    intro params read
    unfold resolveBlobParams at read
    split at read
    · cases read
    · obtain ⟨daily, -, read⟩ := of_bind_ok read
      rw [← Except.ok.inj read]
  cases d with
  | kafka k => cases resolved
  | filesystem fs =>
    obtain ⟨params, -, resolved⟩ := of_bind_ok (Option.some.inj resolved)
    obtain rfl := Except.ok.inj resolved
    rfl
  | s3 s3 =>
    obtain ⟨params, read, resolved⟩ := of_bind_ok (Option.some.inj resolved)
    obtain ⟨encryption, keys, resolved⟩ := of_bind_ok resolved
    obtain rfl := Except.ok.inj resolved
    obtain ⟨active, written⟩ := of_s3Encryption keys
    refine checkEncryption_ok (fun encrypts => ?_) active
    obtain ⟨k, encrypted⟩ := written encrypts
    rw [BlobMirrorParams.spec, format read, format_of_encrypted valid mem encrypted]
    rfl

end Validated

/--
When every mirror of an accepted configuration gets past its settings.

The validator never reads the daily boundary and takes any unsigned partition. Everything else that
a start converts was held against what the conversion needs.
-/
theorem resolves_iff [UrlParts] {env : String → Option String} {yaml : String} {cfg : Config}
    (loaded : loadFromStr env yaml = .ok cfg) :
    (∀ m ∈ cfg.mirrors, m.Resolves) ↔ ∀ m ∈ cfg.mirrors, m.partition.toNat < 2 ^ 31
      ∧ ∀ triggers ∈ m.flush, ∀ atUtc ∈ triggers.daily, IsClockTime atUtc := by
  obtain ⟨⟨⟩, mirrors, -⟩ := of_bind_ok (validate_of_loadFromStr loaded)
  have valid := (of_validateMirrors mirrors).1
  constructor
  · intro resolves m mem
    refine ⟨partitionAsI32_iff.mp (resolves m mem).partition, fun triggers flushes => ?_⟩
    -- A mirror with flush triggers has a destination that is resolved with them.
    have blob : m.destinations.any Destination.isBlob = true := by
      rw [← flush_iff_hasBlob (valid m mem).2, Option.mem_def.mp flushes]
      rfl
    obtain ⟨d, listed, isBlob⟩ := List.any_eq_true.mp blob
    exact (resolveBlobParams_iff flushes).mp ((resolves m mem).params d listed isBlob)
  · intro settings m mem
    obtain ⟨small, clock⟩ := settings m mem
    refine ⟨fun d listed isBlob => ?_, partitionAsI32_iff.mpr small, backupSource_ok small,
      fun notify notifies target listed => ?_, fun d listed load spec resolved => ?_⟩
    · have flushes : m.flush.isSome = true := by
        rw [flush_iff_hasBlob (valid m mem).2]
        exact List.any_eq_true.mpr ⟨d, listed, isBlob⟩
      obtain ⟨triggers, flushes⟩ := Option.isSome_iff_exists.mp flushes
      exact (resolveBlobParams_iff flushes).mpr (clock triggers flushes)
    · obtain ⟨i, passed⟩ := validateTarget_of_mirror (valid m mem).2 notifies listed
      exact exists_endpoint passed
    · exact checkEncryption_of_blobSpec (valid m mem).2 listed resolved

namespace ResolutionSample

/-- The mirror to a directory, flushed at a time of day as well. -/
def dailyAt (atUtc : String) (partition : UInt32) : Config.Mirror :=
  { FlushSample.toDirectory with partition, flush := some ⟨60000, 1000000, 1000, some atUtc⟩ }

/-- Libraries that read three texts, and an address without a port. -/
scoped instance urlParts : UrlParts where
  fromStr text :=
    if text = "half past three" then .ok ⟨[dailyAt "03:30" 7]⟩
    else if text = "twenty-five" then .ok ⟨[dailyAt "25:00" 7]⟩
    else if text = "wide" then .ok ⟨[dailyAt "03:30" 2147483648]⟩
    else .error "not a sample"
  parseUrl text :=
    if text = "http://hook" then .ok ⟨"http", some "hook"⟩ else .error "not a sample"
  debug := String.quote
  path _ := "/"
  portOrKnownDefault _ := some 80
  known _ _ _ _ := rfl

/-- A boundary at half past three is the second of the day it should be. -/
theorem resolves_iff_sample :
    (dailyAt "03:30" 7).Resolves
      ∧ (resolveBlobParams (dailyAt "03:30" 7)).map (·.flush.dailyAtUtcSeconds)
        = .ok (some 12600) := by
  have loaded : loadFromStr (fun _ => none) "half past three" = .ok ⟨[dailyAt "03:30" 7]⟩ := by
    decide +kernel
  refine ⟨(resolves_iff loaded).mpr (fun m mem => ?_) _ List.mem_cons_self, by decide +kernel⟩
  obtain rfl := List.mem_singleton.mp mem
  refine ⟨by decide, fun triggers flushes atUtc daily => ?_⟩
  obtain rfl := Option.some.inj flushes
  obtain rfl := Option.some.inj daily
  exact (parseAtUtc_iff "03:30").mp ⟨12600, by decide +kernel⟩

/-- An hour that no day has is accepted, and so is a partition that turns negative. -/
theorem accepted_unresolved :
    (loadFromStr (fun _ => none) "twenty-five" = .ok ⟨[dailyAt "25:00" 7]⟩
      ∧ parseAtUtc "25:00" = .error (.range "25:00") ∧ ¬ (dailyAt "25:00" 7).Resolves)
    ∧ loadFromStr (fun _ => none) "wide" = .ok ⟨[dailyAt "03:30" 2147483648]⟩
      ∧ (dailyAt "03:30" 2147483648).partitionAsI32 = -2147483648 := by
  refine ⟨⟨by decide +kernel, by decide +kernel, fun resolves => ?_⟩, by decide +kernel, by decide⟩
  obtain ⟨params, read, -⟩ := resolves.params _ List.mem_cons_self rfl
  have failed : (resolveBlobParams (dailyAt "25:00" 7)).isOk = false := by decide +kernel
  rw [read] at failed
  cases failed

end ResolutionSample

end MirrorV3
