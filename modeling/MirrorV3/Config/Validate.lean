import MirrorV3.Config.EnvSubst
import MirrorV3.Config.Model
import MirrorV3.Lib.Results

/-! What a configuration is held against before any mirror of it starts. -/

namespace MirrorV3.Config

/-- The parts of a URL that are looked at. -/
structure Url where
  scheme : String
  host : Option String
  deriving Repr, DecidableEq

/-- The libraries a configuration is read with. -/
class ConfigLibraries where
  /-- Read a configuration from a text that is otherwise well formed, or say why not. -/
  fromStr : String → Except String Config
  /-- Read a URL, or say why it is not one. -/
  parseUrl : String → Except String Url
  /-- A text in quotes, with what is special in it escaped. -/
  debug : String → String

open ConfigLibraries Results

/-- Why a configuration was not accepted. -/
inductive LoadError where
  | parse (message : String)
  | validation (message : String)
  | envSubst (error : EnvSubstError)
  deriving Repr, DecidableEq

variable [ConfigLibraries]

/-- Several texts in quotes, in brackets. -/
def debugList (texts : List String) : String := "[" ++ ", ".intercalate (texts.map debug) ++ "]"

/-- Fail with what is wrong with the mirror unless the condition holds. -/
def require (m : Mirror) (condition : Bool) (message : String) : Except LoadError Unit :=
  if condition then .ok () else .error (.validation (s!"mirror {debug m.name}: " ++ message))

/-- Fail with the message about the first of these fields that is set. -/
def rejectFields (m : Mirror) (fields : List (String × Bool)) (message : String → String) :
    Except LoadError Unit :=
  match fields.find? (·.2) with
  | none => .ok ()
  | some (field, _) => require m false (message field)

/-- The identifiers of the destinations, of which the first ones were seen already. -/
def validateNames (m : Mirror) : List String → List (Destination × Nat) → Except LoadError Unit
  | _, [] => .ok ()
  | seen, (d, i) :: rest => do
    require m (m.destinations.length ≤ 1 || d.rawDestinationName.isSome)
      (s!"destination[{i}] requires an explicit `name` (mirrors with multiple destinations cannot "
        ++ "share the default `name = mirror.name`)")
    let effective := d.effectiveName m.name
    require m (effective ∉ seen) s!"destination name {debug effective} appears more than once"
    validateNames m (effective :: seen) rest

/-- The encryption of a destination: a columnar format that is written out, and a key id. -/
def validateEncryption (m : Mirror) : Destination → Except LoadError Unit
  | .s3 { encryption := .parquetKeys keys, .. } => do
    require m (m.format = some .parquet)
      "encrypted S3 destinations need `format: parquet` (written out)"
    require m (isKeyId keys.keyId)
      (s!"encryption key-id {debug keys.keyId} is not a key id "
        ++ "([a-z0-9][a-z0-9-]\x7b0,31\x7d)")
  | _ => .ok ()

/-- What a mirror may set for the destinations it has. -/
def validateDestinations (m : Mirror) : Except LoadError Unit := do
  validateNames m [] m.destinations.zipIdx
  m.destinations.forM (validateEncryption m)
  let hasBlob := m.destinations.any Destination.isBlob
  let hasKafka := m.destinations.any fun d => !d.isBlob
  if hasBlob = false then
    rejectFields m
      [("format", m.format.isSome), ("compression", m.compression.isSome),
        ("compaction", m.compaction.isSome), ("flush", m.flush.isSome)]
      fun field => s!"`{field}` is only valid when at least one destination is filesystem/s3"
  require m (hasKafka || m.timestampMode.isNone)
    "`timestamp-mode` only affects Kafka destinations; this mirror has none"
  if hasBlob then do
    require m m.flush.isSome "`flush` is required when any destination is filesystem/s3"
    if m.format.getD .parquet = .ndjson then do
      require m (m.keys.getD .utf8 = .utf8 && m.values.getD .utf8 = .utf8)
        ("ndjson does not honour `keys`/`values` types; remove them or switch to "
          ++ "`format: parquet`")
      require m m.compaction.isNone "`compaction` requires `format: parquet`"
  require m (!(m.hasHttp && m.keys = some .bytes))
    ("`http-access` requires `keys.type` ∈ \x7butf8, json, json-parseable\x7d; "
      ++ "/cache/v1 routes keys through URL path segments")

/-- A mirror without destinations serves a view, or notifies, or both. -/
def validateNoDestinations (m : Mirror) : Except LoadError Unit := do
  require m (m.notify.isSome || m.hasHttp)
    ("`destinations` must contain at least one entry, unless the mirror serves a cache "
      ++ "(`http-access`) or notifies (`notify`)")
  rejectFields m
    [("format", m.format.isSome), ("compression", m.compression.isSome), ("keys", m.keys.isSome),
      ("values", m.values.isSome), ("compaction", m.compaction.isSome), ("flush", m.flush.isSome),
      ("timestamp-mode", m.timestampMode.isSome)]
    fun field => s!"a mirror without destinations cannot set `{field}`; there is nothing for it "
      ++ "to apply to"
  require m (m.notify.all fun notify => notify.trigger.on ≠ .destinationFlush)
    ("a mirror without destinations must use `trigger.on: source-consume` "
      ++ "(no destinations to flush)")

/-- One receiver: a URL with a scheme that is spoken and a host. -/
def validateTarget (m : Mirror) (target : NotifyTarget × Nat) : Except LoadError Unit :=
  let (t, i) := target
  match parseUrl t.url with
  | .error e => require m false s!"notify.targets[{i}].url is not a valid URL: {e}"
  | .ok url => do
    require m (url.scheme = "http" || url.scheme = "https")
      s!"notify.targets[{i}].url must use scheme http or https, got {debug url.scheme}"
    require m (url.host.any (· ≠ "")) s!"notify.targets[{i}].url has no host"

/-- What every notify block is held against. -/
def validateNotifyShared (m : Mirror) (notify : Notify) : Except LoadError Unit := do
  require m (notify.targets ≠ []) "`notify.targets` must contain at least one entry"
  notify.targets.zipIdx.forM (validateTarget m)
  require m (1 ≤ notify.timeoutMs) "`notify.timeout-ms` must be >= 1"
  require m (1 ≤ notify.retry.maxAttempts) "`notify.retry.max-attempts` must be >= 1"
  require m (1 ≤ notify.retry.backoffMs) "`notify.retry.backoff-ms` must be >= 1"
  match notify.trigger.on, notify.trigger.debounce with
  | .sourceConsume, none =>
    require m false
      "`notify.trigger.debounce` is required when `trigger.on: source-consume`"
  | .sourceConsume, some debounce => do
    require m (1 ≤ debounce.maxRecords) "`notify.trigger.debounce.max-records` must be >= 1"
    require m (1 ≤ debounce.maxTimeMs) "`notify.trigger.debounce.max-time-ms` must be >= 1"
  | .destinationFlush, debounce =>
    -- The flush triggers of the destinations are the debounce here.
    require m debounce.isNone
      ("`notify.trigger.debounce` is forbidden when `trigger.on: destination-flush`; the "
        ++ "destination flush triggers are the debounce in that mode")

/-- Path segments that are literal where the name of a mirror may stand. -/
def reservedMirrorNamesAtCacheV1 : List String := ["raw", "offset", "keys", "values"]

/-- The routes and the notifications of a mirror, whatever its destinations are. -/
def validateHttpAndNotify (m : Mirror) : Except LoadError Unit := do
  match m.httpAccess with
  | none => pure ()
  | some http => do
    require m (http.cacheV1Main.isNone || http.cacheV1.isSome)
      "`http-access.cache-v1-main` requires `http-access.cache-v1` on the same mirror"
    require m (http.cacheV1.isNone || m.name ∉ reservedMirrorNamesAtCacheV1)
      (s!"name collides with a `/cache/v1/...` literal segment "
        ++ s!"({debugList reservedMirrorNamesAtCacheV1}); "
        ++ "rename the mirror to enable `http-access.cache-v1`")
  match m.notify with
  | none => pure ()
  | some notify =>
    -- Without destinations and without routes a mirror only notifies.
    if m.destinations = [] ∧ m.hasHttp = false then validateNotifyShared m notify
    else do
      require m (m.httpAccess.any fun http => http.cacheV1.isSome && http.cacheV1Main.isSome)
        ("`notify` requires `http-access: \x7b cache-v1: \x7b\x7d, cache-v1-main: \x7b\x7d \x7d` on "
          ++ "the same mirror: kkv-v1 consumers re-read notified keys from the unprefixed "
          ++ "/cache/v1/raw/\x7bkey\x7d, which only cache-v1-main serves")
      validateNotifyShared m notify

/-- Everything about one mirror. -/
def validateMirror (m : Mirror) : Except LoadError Unit := do
  if m.destinations = [] then validateNoDestinations m else validateDestinations m
  validateHttpAndNotify m

/-- Every mirror by itself, and no name twice. -/
def validateMirrors : List String → List Mirror → Except LoadError Unit
  | _, [] => .ok ()
  | seen, m :: rest => do
    if m.name ∈ seen then
      throw (.validation s!"mirror name {debug m.name} appears more than once")
    validateMirror m
    validateMirrors (m.name :: seen) rest

/-- A text without the slashes around it. -/
def trimSlashes (text : String) : String :=
  let chars := text.toList.dropWhile (· = '/')
  String.ofList (chars.reverse.dropWhile (· = '/')).reverse

/-- The directory a blob destination writes to. -/
def Destination.blobDir (m : Mirror) (d : Destination) : Option String :=
  match d with
  | .kafka _ => none
  | .filesystem fs => some s!"{fs.root}/{d.effectiveName m.name}/{m.partition}"
  | .s3 bucket =>
    let prefix_ := (bucket.prefix_.map fun p => trimSlashes p ++ "/").getD ""
    some s!"s3://{bucket.bucket}/{prefix_}{d.effectiveName m.name}/{m.partition}"

/-- No directory has two writers. -/
def validateBlobDirs : List (String × String) → List (String × String) → Except LoadError Unit
  | _, [] => .ok ()
  | seen, (dir, name) :: rest =>
    match seen.lookup dir with
    | some other =>
      .error (.validation (s!"mirrors {debug other} and {debug name} both write {dir}; "
        ++ "give one destination another `name`, prefix or bucket"))
    | none => validateBlobDirs ((dir, name) :: seen) rest

/-- No two mirrors commit one group for one partition. -/
def validateGroups :
    List ((String × String × UInt32) × String) → List Mirror → Except LoadError Unit
  | _, [] => .ok ()
  | seen, m :: rest =>
    let group := m.effectiveGroupId
    match seen.lookup (group, m.topic, m.partition) with
    | some other =>
      .error (.validation (s!"mirrors {debug other} and {debug m.name} both commit consumer group "
        ++ s!"{debug group} for {m.topic}/{m.partition}; "
        ++ "give one of them a `source.group-id` of its own"))
    | none => validateGroups (((group, m.topic, m.partition), m.name) :: seen) rest

/-- What one mirror by itself, and all of them together, are held against. -/
def validate (cfg : Config) : Except LoadError Unit := do
  validateMirrors [] cfg.mirrors
  validateBlobDirs [] (cfg.mirrors.flatMap fun m =>
    m.destinations.filterMap fun d => (d.blobDir m).map (·, m.name))
  validateGroups [] cfg.mirrors
  let mains := (cfg.mirrors.filter fun m => m.httpAccess.any (·.cacheV1Main.isSome)).map (·.name)
  if 1 < mains.length then
    throw (.validation ("`http-access.cache-v1-main` may be set on at most one mirror; "
      ++ s!"found on: {debugList mains}"))

/-- Read a configuration, with the references to the environment in it expanded first. -/
def loadFromStr (env : String → Option String) (yaml : String) : Except LoadError Config := do
  let expanded ← (expand env yaml.toList).mapError .envSubst
  let cfg ← (fromStr (String.ofList expanded)).mapError .parse
  validate cfg
  return cfg

/-- Mirrors that pass one after the other pass each by itself, and no two have one name. -/
theorem of_validateMirrors {mirrors : List Mirror} {seen : List String}
    (accepted : validateMirrors seen mirrors = .ok ()) :
    (∀ m ∈ mirrors, m.name ∉ seen ∧ validateMirror m = .ok ()) ∧ (mirrors.map (·.name)).Nodup := by
  induction mirrors generalizing seen with
  | nil => simp
  | cons m rest ih =>
    simp only [validateMirrors] at accepted
    split at accepted
    · cases accepted
    · rename_i unseen
      obtain ⟨⟨⟩, valid, later⟩ := of_bind_ok accepted
      obtain ⟨each, apart⟩ := ih later
      refine ⟨fun other mem => ?_, ?_⟩
      · rcases List.mem_cons.mp mem with rfl | mem
        · exact ⟨unseen, valid⟩
        · obtain ⟨fresh, valid⟩ := each other mem
          exact ⟨fun old => fresh (List.mem_cons_of_mem _ old), valid⟩
      · -- A later mirror finds the name of this one among those seen.
        rw [List.map_cons, List.nodup_cons]
        refine ⟨fun mem => ?_, apart⟩
        obtain ⟨other, listed, same⟩ := List.mem_map.mp mem
        exact (each other listed).1 (same ▸ List.mem_cons_self)

/-- A configuration that was read has passed. -/
theorem validate_of_loadFromStr {env : String → Option String} {yaml : String} {cfg : Config}
    (loaded : loadFromStr env yaml = .ok cfg) : validate cfg = .ok () := by
  obtain ⟨expanded, -, loaded⟩ := of_bind_ok loaded
  obtain ⟨read, -, loaded⟩ := of_bind_ok loaded
  obtain ⟨⟨⟩, passed, same⟩ := of_bind_ok loaded
  cases same
  exact passed

/-- The mirrors of a configuration that was read have different names. -/
theorem nodup_names_of_loadFromStr {env : String → Option String} {yaml : String} {cfg : Config}
    (loaded : loadFromStr env yaml = .ok cfg) : (cfg.mirrors.map (·.name)).Nodup := by
  obtain ⟨⟨⟩, mirrors, -⟩ := of_bind_ok (validate_of_loadFromStr loaded)
  exact (of_validateMirrors mirrors).2

end MirrorV3.Config
