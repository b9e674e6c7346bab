import MirrorV3.Fs.Chain

/-! The chain of a backup, from the names of its objects alone. -/

namespace MirrorV3

/-- Why a backup cannot be restored. -/
inductive RestoreError where
  /-- The object names do not form a chain this restore can read. -/
  | chain (message : String)
  /-- The backup's store could not be listed or read. -/
  | store (message : String)
  /-- An object does not decode, or contradicts its name or the backup's source. -/
  | object (message : String)
  /-- The backup cannot be restored with the chosen offset mode. -/
  | mode (message : String)
  /-- Restore writes to an empty topic only. -/
  | targetNotEmpty (highWatermark : Nat)
  /-- The target could not be read before anything was produced. -/
  | target (message : String)
  /-- The restore failed after records were sent, which may still be stored. -/
  | produce (message : String)
  deriving Repr, DecidableEq

/-- The message of a restore error. -/
def RestoreError.display : RestoreError → String
  | .chain message => s!"backup chain: {message}"
  | .store message => s!"backup store: {message}"
  | .object message => s!"backup object: {message}"
  | .mode message => message
  | .targetNotEmpty highWatermark =>
    s!"the target topic is not empty: its high watermark is {highWatermark}; restore writes to an "
      ++ "empty topic only (delete and create it again, with the configuration it needs)"
  | .target message => s!"target: {message}"
  | .produce message =>
    s!"{message}. Records sent before this may still be stored: delete the topic and create it "
      ++ "again before restoring again"

/-- One object of a validated chain. -/
structure ChainObject where
  name : String
  lo : Nat
  hi : Nat
  /-- The key the object is encrypted with, none for one in clear. -/
  keyId : Option String
  deriving Repr, DecidableEq

/-- The place of an object in the chain. -/
def ChainObject.entry (object : ChainObject) : ChainEntry := ⟨object.lo, object.hi, object.name⟩

/-- Read one listed name, which must be an object of the backup's format. -/
def chainObject (format : Format) (name : String) : Except RestoreError ChainObject :=
  let ext := format.extension
  match parseBlobName name ext with
  | none =>
    .error (.chain (s!"{name} is not a backup object of format {ext} "
      ++ s!"(<from>-<to>.{ext}, or <from>-<to>.k-<key id>.{ext})"))
  | some blob =>
    if blob.hi < blob.lo then .error (.chain s!"{name}: to < from")
    else .ok ⟨name, blob.lo, blob.hi, blob.keyId⟩

/-- Require each object to start where the one before it ended. -/
def adjoining : (expected : Nat) → List ChainObject → Except RestoreError Unit
  | _, [] => .ok ()
  | expected, o :: objects =>
    if expected < o.lo then
      .error (.chain (s!"gap in the chain: offsets {expected}-{o.lo - 1} are in no object "
        ++ s!"(next object is {o.name})"))
    else if o.lo < expected then
      .error (.chain (s!"overlap in the chain: {o.name} starts at {o.lo}, and the objects before it "
        ++ s!"reach {expected - 1}"))
    else adjoining (addOne o.hi) objects

/-- Whether a keyring has a key. -/
def holdsKey (keyring : Option Keyring) (id : String) : Bool :=
  keyring.any fun ring => (ring.get id).isOk

/-- The keys that objects name and the keyring lacks, each once, in chain order. -/
def missingKeys (keyring : Option Keyring) (objects : List ChainObject) : List String :=
  objects.foldl (fun missing o =>
    match o.keyId with
    | none => missing
    | some id =>
      if holdsKey keyring id = false ∧ id ∉ missing then missing ++ [id] else missing) []

/-- Validate a listing of a backup's directory, and answer its objects in chain order. -/
def planChain (names : List String) (format : Format) (chainStart : Nat)
    (keyring : Option Keyring) : Except RestoreError (List ChainObject) := do
  let objects ← names.mapM (chainObject format)
  let some first := (objects.map (·.lo)).min?
    | throw (.chain "the directory holds no backup objects")
  let objects := objects.mergeSort fun a b => a.entry.before b.entry
  if first ≠ chainStart then
    let name := (objects.head?.map (·.name)).getD ""
    throw (.chain (s!"the chain starts at offset {first} ({name}), not at {chainStart}"
      ++ if chainStart = 0 then
          "; if objects before it were removed on purpose, pass --chain-start"
        else ""))
  adjoining chainStart objects
  match missingKeys keyring objects with
  | [] => return objects
  | missing =>
    let ids := ", ".intercalate missing
    throw (.chain (match keyring with
      | none =>
        s!"objects are encrypted with Parquet key(s) {ids}, and the source has `encryption: none`"
      | some _ =>
        s!"objects are encrypted with Parquet key(s) {ids} that the keys-dir does not hold"))

end MirrorV3
