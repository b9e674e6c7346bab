import MirrorV3.Core.Record

/-! The two on-disk formats and the keys encrypted blobs are written with. -/

namespace MirrorV3

/-- How a batch is laid out on disk. -/
inductive Format where
  | parquet
  | ndjson
  deriving Repr, DecidableEq

/-- The file extension of a format. -/
def Format.extension : Format → String
  | .parquet => "parquet"
  | .ndjson => "ndjson"

/-- The codec of a Parquet file, ignored for the line format. -/
inductive ParquetCompression where
  | zstd1
  | zstd3
  | snappy
  | lz4
  | uncompressed
  deriving Repr, DecidableEq

/-- Why a batch could not be written or read. -/
inductive EnvelopeError where
  | encode (message : String)
  | decode (message : String)
  deriving Repr, DecidableEq

/-- The message of an envelope error. -/
def EnvelopeError.display : EnvelopeError → String
  | .encode message => s!"encode: {message}"
  | .decode message => s!"decode: {message}"

/-- Whether a character may start a key id. -/
def isKeyIdStart (c : Char) : Bool := c.isLower || c.isDigit

/-- Whether a text is a key id: at most 32 lowercase letters, digits and inner dashes. -/
def isKeyId (id : String) : Bool :=
  match id.toList with
  | [] => false
  | first :: rest =>
    isKeyIdStart first && rest.all (fun c => isKeyIdStart c || c == '-') && rest.length < 32

/-- A key id is made of lowercase letters, digits and dashes. -/
theorem mem_of_isKeyId {id : String} (valid : isKeyId id = true) {c : Char} (mem : c ∈ id.toList) :
    isKeyIdStart c = true ∨ c = '-' := by
  unfold isKeyId at valid
  cases chars : id.toList with
  | nil => simp [chars] at mem
  | cons first rest =>
    rw [chars] at valid mem
    simp only [Bool.and_eq_true, List.all_eq_true, Bool.or_eq_true, beq_iff_eq] at valid
    rcases List.mem_cons.mp mem with rfl | later
    · exact .inl valid.1.1
    · exact valid.1.2 c later

/-- The one key size a key file may hold. -/
def keyBytes : Nat := 32

/-- An AES key of exactly the size a key file may hold. -/
structure ParquetKey where
  bytes : Bytes
  sized : bytes.length = keyBytes
  deriving DecidableEq

/-- Every key of a keys directory by id, each of them an id the directory may hold. -/
structure Keyring where
  dir : String
  keys : List (String × ParquetKey)
  named : ∀ entry ∈ keys, isKeyId entry.1 = true

/-- The key an id names, or a message naming the directory and the id. -/
def Keyring.get (ring : Keyring) (id : String) : Except String ParquetKey :=
  match ring.keys.lookup id with
  | some key => .ok key
  | none => .error s!"keys-dir {ring.dir} has no key file {id}"

/-- A key that is found has a well-formed id. -/
theorem Keyring.isKeyId_of_get {ring : Keyring} {id : String} {key : ParquetKey}
    (found : ring.get id = .ok key) : isKeyId id = true := by
  cases entry : ring.keys.lookup id with
  | none => simp [get, entry] at found
  | some other =>
    have mem : (id, other) ∈ ring.keys := by
      obtain ⟨before, after, split, -⟩ := List.lookup_eq_some_iff.mp entry
      simp [split]
    exact ring.named _ mem

end MirrorV3
