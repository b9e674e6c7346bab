import Mathlib.Algebra.Group.Int.Defs
import MirrorV3.Lib.Results
import MirrorV3.Envelope.Format

/-! The line format: one JSON object per record, binary fields in base64. -/

namespace MirrorV3

/-- The base64 alphabet with padding, as the encoding crate provides it. -/
class Base64 where
  encode : Bytes → String
  decode : String → Except String Bytes

/-- Decoding undoes encoding. -/
class LawfulBase64 [Base64] : Prop where
  decode_encode : ∀ bytes, Base64.decode (Base64.encode bytes) = .ok bytes

namespace Ndjson

/-- A JSON document, its integers apart from other numbers. -/
inductive Json where
  | null
  | bool (value : Bool)
  | int (value : Int)
  | float (text : String)
  | str (text : String)
  | arr (items : List Json)
  | obj (fields : List (String × Json))

/-- The byte that ends a line. -/
def newline : UInt8 := 10

/-- The JSON crate: documents written to bytes and read back, and its type errors. -/
class SerdeJson where
  toWriter : Json → Except String Bytes
  fromSlice : Bytes → Except String Json
  typeError : Json → String → String

/-- A header as it is persisted. -/
structure PersistedHeader where
  key : String
  value : Option Bytes
  deriving DecidableEq

/-- A record as it is persisted. -/
structure PersistedRecord where
  topic : String
  partition : Int32
  offset : Nat
  timestampMs : Option Int64
  timestampType : String
  key : Option Bytes
  value : Option Bytes
  headers : List PersistedHeader
  deriving DecidableEq

/-- A header ready to be written. -/
def PersistedHeader.ofHeader (h : Header) : PersistedHeader := ⟨h.key, h.value⟩

/-- A header as it was read. -/
def PersistedHeader.intoHeader (h : PersistedHeader) : Header := ⟨h.key, h.value⟩

/-- A record ready to be written. -/
def PersistedRecord.ofRecord (r : Record) : PersistedRecord where
  topic := r.topic
  partition := r.partition
  offset := r.sourceOffset
  timestampMs := r.timestampMs
  timestampType := r.timestampType.asStr
  key := r.key
  value := r.value
  headers := r.headers.map .ofHeader

/-- A record as it was read; an unknown timestamp type counts as not available. -/
def PersistedRecord.intoRecord (p : PersistedRecord) : Record where
  topic := p.topic
  partition := p.partition
  sourceOffset := p.offset
  timestampMs := p.timestampMs
  timestampType := (TimestampType.fromWire p.timestampType).getD .notAvailable
  key := p.key
  value := p.value
  headers := p.headers.map (·.intoHeader)

/-- Nothing of a record is lost by persisting it. -/
theorem PersistedRecord.intoRecord_ofRecord (r : Record) : (ofRecord r).intoRecord = r := by
  have headers : (r.headers.map PersistedHeader.ofHeader).map (·.intoHeader) = r.headers := by
    simp [Function.comp_def, PersistedHeader.ofHeader, PersistedHeader.intoHeader]
  simp [ofRecord, intoRecord, TimestampType.fromWire_asStr, headers]

/-- A field that is left out when there is nothing to write. -/
def optionalField {α : Type} (name : String) (write : α → Json) (value : Option α) :
    List (String × Json) :=
  (value.map fun v => (name, write v)).toList

section Codec

variable [Base64]

/-- Binary fields are written as base64 text. -/
def base64Json (bytes : Bytes) : Json := .str (Base64.encode bytes)

/-- The object a header is written as. -/
def PersistedHeader.toJson (h : PersistedHeader) : Json :=
  .obj (("key", .str h.key) :: optionalField "value" base64Json h.value)

/-- The fields of a persisted record, in the order they are written. -/
def PersistedRecord.fields (p : PersistedRecord) : List (String × Json) :=
  [("topic", .str p.topic), ("partition", .int p.partition.toInt), ("offset", .int p.offset)]
    ++ optionalField "timestamp_ms" (fun ms => .int ms.toInt) p.timestampMs
    ++ [("timestamp_type", .str p.timestampType)]
    ++ optionalField "key" base64Json p.key
    ++ optionalField "value" base64Json p.value
    ++ optionalField "headers" .arr
        (if p.headers = [] then none else some (p.headers.map (·.toJson)))

/-- The object a record is written as. -/
def PersistedRecord.toJson (p : PersistedRecord) : Json := .obj p.fields

/-- A persisted record that is written is one line of text, which reads back as it was. -/
class LawfulSerdeJson [SerdeJson] : Prop where
  round_trip : ∀ (persisted : PersistedRecord) (bytes : Bytes), persisted.offset < 2 ^ 64 →
    SerdeJson.toWriter persisted.toJson = .ok bytes →
      bytes ≠ [] ∧ newline ∉ bytes ∧ SerdeJson.fromSlice bytes = .ok persisted.toJson

/-- A field of an object that may be absent but not repeated. -/
def findField (name : String) (fields : List (String × Json)) : Except String (Option Json) :=
  match fields.filter (·.1 == name) with
  | [] => .ok none
  | [field] => .ok (some field.2)
  | _ => .error s!"duplicate field `{name}`"

/-- A field that must be there. -/
def requireField {α : Type} (name : String) (read : Json → Except String α)
    (fields : List (String × Json)) : Except String α := do
  match ← findField name fields with
  | some json => read json
  | none => .error s!"missing field `{name}`"

variable [SerdeJson]

/-- A field with a default for when it is absent. -/
def defaultField {α : Type} (name : String) (read : Json → Except String α) (default : α)
    (fields : List (String × Json)) : Except String α := do
  match ← findField name fields with
  | some json => read json
  | none => .ok default

/-- Read a text. -/
def readString : Json → Except String String
  | .str text => .ok text
  | other => .error (SerdeJson.typeError other "a string")

/-- Read an integer between two bounds. -/
def readInt (lo hi : Int) (expected : String) : Json → Except String Int
  | .int value =>
    if lo ≤ value ∧ value < hi then .ok value
    else .error (SerdeJson.typeError (.int value) expected)
  | other => .error (SerdeJson.typeError other expected)

/-- Read an `i32`. -/
def readI32 (json : Json) : Except String Int32 :=
  (readInt (-2 ^ 31) (2 ^ 31) "i32" json).map Int32.ofInt

/-- Read a `u64`. -/
def readU64 (json : Json) : Except String Nat :=
  (readInt 0 (2 ^ 64) "u64" json).map Int.toNat

/-- Read an `i64`. -/
def readI64 (json : Json) : Except String Int64 :=
  (readInt (-2 ^ 63) (2 ^ 63) "i64" json).map Int64.ofInt

/-- Read a value that may be null. -/
def readOption {α : Type} (read : Json → Except String α) : Json → Except String (Option α)
  | .null => .ok none
  | json => (read json).map some

/-- Read base64 text. -/
def readBase64 (json : Json) : Except String Bytes := do
  Base64.decode (← readString json)

/-- Read an object's fields. -/
def readObject {α : Type} (read : List (String × Json) → Except String α) : Json → Except String α
  | .obj fields => read fields
  | other => .error (SerdeJson.typeError other "an object")

/-- Read a list. -/
def readList {α : Type} (read : Json → Except String α) : Json → Except String (List α)
  | .arr items => items.mapM read
  | other => .error (SerdeJson.typeError other "a sequence")

/-- The header an object stands for. -/
def PersistedHeader.fromJson : Json → Except String PersistedHeader :=
  readObject fun fields => do
    return {
      key := ← requireField "key" readString fields
      value := ← defaultField "value" (readOption readBase64) none fields }

/-- The record an object stands for. -/
def PersistedRecord.fromJson : Json → Except String PersistedRecord :=
  readObject fun fields => do
    return {
      topic := ← requireField "topic" readString fields
      partition := ← requireField "partition" readI32 fields
      offset := ← requireField "offset" readU64 fields
      timestampMs := ← defaultField "timestamp_ms" (readOption readI64) none fields
      timestampType := ← requireField "timestamp_type" readString fields
      key := ← defaultField "key" (readOption readBase64) none fields
      value := ← defaultField "value" (readOption readBase64) none fields
      headers := ← defaultField "headers" (readList PersistedHeader.fromJson) [] fields }

/-- One line of a batch. -/
def encodeLine (record : Record) : Except EnvelopeError Bytes :=
  match SerdeJson.toWriter (PersistedRecord.ofRecord record).toJson with
  | .ok line => .ok (line ++ [newline])
  | .error message => .error (.encode message)

/-- Write a batch, one line per record. -/
def encodeBatch (records : List Record) : Except EnvelopeError Bytes := do
  return (← records.mapM encodeLine).flatten

/-- Read one line of a batch. -/
def decodeLine (line : Bytes) : Except EnvelopeError Record :=
  match SerdeJson.fromSlice line >>= PersistedRecord.fromJson with
  | .ok persisted => .ok persisted.intoRecord
  | .error message => .error (.decode message)

/-- Read a batch line by line, skipping empty lines. -/
def decodeBatch (bytes : Bytes) : Except EnvelopeError (List Record) :=
  ((bytes.splitOn newline).filter (· ≠ [])).mapM decodeLine

end Codec

section Fields

variable {α : Type} {name other : String} {fields : List (String × Json)}

/-- An optional field is found under its own name. -/
@[simp] theorem filter_optionalField_self (write : α → Json) (value : Option α) :
    (optionalField name write value).filter (·.1 == name) = optionalField name write value := by
  cases value <;> simp [optionalField]

/-- An optional field is not found under another name. -/
theorem filter_optionalField_other (distinct : name ≠ other) (write : α → Json)
    (value : Option α) : (optionalField name write value).filter (·.1 == other) = [] := by
  cases value <;> simp [optionalField, distinct]

/-- A field that is there once is read. -/
theorem requireField_ok {read : Json → Except String α} (json : Json) {a : α}
    (found : fields.filter (·.1 == name) = [(name, json)]) (reads : read json = .ok a) :
    requireField name read fields = .ok a := by
  simp [requireField, findField, found, reads, bind, Except.bind]

/-- An optional field that was written reads back, and one that was left out is the default. -/
theorem defaultField_ok {β : Type} {read : Json → Except String α} (write : β → Json)
    {value : Option β} {default a : α}
    (found : fields.filter (·.1 == name) = optionalField name write value)
    (present : ∀ b ∈ value, read (write b) = .ok a) (absent : value = none → default = a) :
    defaultField name read default fields = .ok a := by
  cases value with
  | none => simp [defaultField, findField, found, optionalField, bind, Except.bind, absent rfl]
  | some b => simp [defaultField, findField, found, optionalField, bind, Except.bind, present b rfl]

end Fields

section RoundTrip

variable [Base64] [SerdeJson]

/-- Base64 text reads back as the bytes it encodes. -/
theorem readBase64_base64Json [LawfulBase64] (bytes : Bytes) :
    readOption readBase64 (base64Json bytes) = .ok (some bytes) := by
  simp [readOption, base64Json, readBase64, readString, LawfulBase64.decode_encode, Except.map,
    bind, Except.bind]

/-- An optional binary field reads back as it was, absent staying absent. -/
theorem defaultField_base64 [LawfulBase64] {name : String} {fields : List (String × Json)}
    {value : Option Bytes}
    (found : fields.filter (·.1 == name) = optionalField name base64Json value) :
    defaultField name (readOption readBase64) none fields = .ok value := by
  refine defaultField_ok base64Json found (fun bytes present => ?_) Eq.symm
  rw [readBase64_base64Json, present]

omit [Base64] in
/-- An integer in its bounds reads back. -/
theorem readInt_int {lo hi value : Int} (expected : String) (low : lo ≤ value)
    (high : value < hi) : readInt lo hi expected (.int value) = .ok value :=
  if_pos ⟨low, high⟩

/-- A header reads back as it was written. -/
theorem PersistedHeader.fromJson_toJson [LawfulBase64] (h : PersistedHeader) :
    fromJson h.toJson = .ok h := by
  have key : requireField "key" readString
      (("key", Json.str h.key) :: optionalField "value" base64Json h.value) = .ok h.key :=
    requireField_ok (.str h.key)
      (by simp [filter_optionalField_other (by decide : "value" ≠ "key")]) rfl
  have value : defaultField "value" (readOption readBase64) none
      (("key", Json.str h.key) :: optionalField "value" base64Json h.value) = .ok h.value :=
    defaultField_base64 (by simp)
  simp [fromJson, toJson, readObject, key, value, bind, Except.bind, pure, Except.pure]

/-- A record's headers read back, an empty list being the default of a field left out. -/
theorem PersistedRecord.headers_fields [LawfulBase64] (p : PersistedRecord) :
    defaultField "headers" (readList PersistedHeader.fromJson) [] p.fields = .ok p.headers := by
  have found : p.fields.filter (·.1 == "headers") = optionalField "headers" .arr
      (if p.headers = [] then none else some (p.headers.map (·.toJson))) := by
    simp [fields, filter_optionalField_other]
  refine defaultField_ok Json.arr found (fun items present => ?_) (fun empty => ?_)
  · by_cases none : p.headers = []
    · simp [none] at present
    · have items : items = p.headers.map (·.toJson) := by simpa [none, eq_comm] using present
      rw [items]
      exact Results.mapM_map_ok fun h _ => PersistedHeader.fromJson_toJson h
  · by_cases none : p.headers = []
    · exact none.symm
    · simp [none] at empty

/-- A record reads back as it was written. -/
theorem PersistedRecord.fromJson_toJson [LawfulBase64] (p : PersistedRecord)
    (inRange : p.offset < 2 ^ 64) : fromJson p.toJson = .ok p := by
  have topic : requireField "topic" readString p.fields = .ok p.topic :=
    requireField_ok (.str p.topic) (by simp [fields, filter_optionalField_other]) rfl
  have partition : requireField "partition" readI32 p.fields = .ok p.partition := by
    refine requireField_ok (.int p.partition.toInt)
      (by simp [fields, filter_optionalField_other]) ?_
    rw [readI32, readInt_int _ p.partition.le_toInt p.partition.toInt_lt]
    simp [Except.map]
  have offset : requireField "offset" readU64 p.fields = .ok p.offset := by
    refine requireField_ok (.int p.offset)
      (by simp [fields, filter_optionalField_other]) ?_
    have bounds : (0 : Int) ≤ p.offset ∧ (p.offset : Int) < 2 ^ 64 := by omega
    rw [readU64, readInt_int _ bounds.1 bounds.2]
    simp [Except.map]
  have timestampMs : defaultField "timestamp_ms" (readOption readI64) none p.fields
      = .ok p.timestampMs := by
    refine defaultField_ok (fun ms : Int64 => Json.int ms.toInt)
      (by simp [fields, filter_optionalField_other]) (fun ms present => ?_) Eq.symm
    rw [readOption, readI64, readInt_int _ ms.le_toInt ms.toInt_lt, present]
    · simp [Except.map]
    · exact Json.noConfusion
  have timestampType : requireField "timestamp_type" readString p.fields = .ok p.timestampType :=
    requireField_ok (.str p.timestampType)
      (by simp [fields, filter_optionalField_other]) rfl
  have key : defaultField "key" (readOption readBase64) none p.fields = .ok p.key :=
    defaultField_base64 (by simp [fields, filter_optionalField_other])
  have value : defaultField "value" (readOption readBase64) none p.fields = .ok p.value :=
    defaultField_base64 (by simp [fields, filter_optionalField_other])
  simp [fromJson, toJson, readObject, topic, partition, offset, timestampMs, timestampType, key,
    value, p.headers_fields, bind, Except.bind, pure, Except.pure]

/-- A line that is written reads back as its record. -/
theorem of_encodeLine_ok [LawfulBase64] [LawfulSerdeJson] {r : Record} {written : Bytes}
    (inRange : r.sourceOffset < 2 ^ 64) (encoded : encodeLine r = .ok written) :
    ∃ line, written = line ++ [newline] ∧ line ≠ [] ∧ newline ∉ line ∧ decodeLine line = .ok r := by
  cases document : SerdeJson.toWriter (PersistedRecord.ofRecord r).toJson with
  | error message => simp [encodeLine, document] at encoded
  | ok line =>
    obtain ⟨nonempty, oneLine, read⟩ := LawfulSerdeJson.round_trip _ _ inRange document
    refine ⟨line, by simpa [encodeLine, document, eq_comm] using encoded, nonempty, oneLine, ?_⟩
    simp [decodeLine, read, bind, Except.bind,
      PersistedRecord.fromJson_toJson (PersistedRecord.ofRecord r) inRange,
      PersistedRecord.intoRecord_ofRecord]

/-- Reading a batch reads its first line and then the rest. -/
theorem decodeBatch_line {line rest : Bytes} (nonempty : line ≠ []) (oneLine : newline ∉ line) :
    decodeBatch (line ++ newline :: rest)
      = (do let first ← decodeLine line; let others ← decodeBatch rest; pure (first :: others)) := by
  have split : (line ++ newline :: rest).splitOn newline = line :: rest.splitOn newline :=
    List.splitOnP_append_cons_of_forall_mem
      (fun b mem => by simpa using fun same : b = newline => oneLine (same ▸ mem)) _ (by simp) _
  simp [decodeBatch, split, nonempty, List.mapM_cons]

/-- Lines that are written one after the other read back as their records. -/
theorem decodeBatch_lines [LawfulBase64] [LawfulSerdeJson] {records : List Record}
    {lines : List Bytes} (inRange : ∀ r ∈ records, r.sourceOffset < 2 ^ 64)
    (encoded : records.mapM encodeLine = .ok lines) :
    decodeBatch lines.flatten = .ok records := by
  induction records generalizing lines with
  | nil =>
    cases encoded
    rfl
  | cons r records ih =>
    rw [List.mapM_cons] at encoded
    cases first : encodeLine r with
    | error e => simp [first, bind, Except.bind] at encoded
    | ok written =>
      cases rest : records.mapM encodeLine with
      | error e => simp [first, rest, bind, Except.bind] at encoded
      | ok others =>
        have split : written :: others = lines := by
          simpa [first, rest, bind, Except.bind, pure, Except.pure] using encoded
        obtain ⟨line, ended, nonempty, oneLine, read⟩ :=
          of_encodeLine_ok (inRange r (by simp)) first
        have decoded := ih (fun other mem => inRange other (by simp [mem])) rest
        rw [← split, List.flatten_cons, ended, List.append_assoc, List.singleton_append,
          decodeBatch_line nonempty oneLine, read, decoded]
        rfl

/-- A batch reads back as the records it was written from. -/
theorem decodeBatch_encodeBatch [LawfulBase64] [LawfulSerdeJson] {records : List Record}
    {bytes : Bytes} (inRange : ∀ r ∈ records, r.sourceOffset < 2 ^ 64)
    (encoded : encodeBatch records = .ok bytes) : decodeBatch bytes = .ok records := by
  cases lines : records.mapM encodeLine with
  | error e => simp [encodeBatch, lines, bind, Except.bind] at encoded
  | ok written =>
    have flat : written.flatten = bytes := by
      simpa [encodeBatch, lines, bind, Except.bind, pure, Except.pure] using encoded
    rw [← flat]
    exact decodeBatch_lines inRange lines

end RoundTrip

end Ndjson

end MirrorV3
