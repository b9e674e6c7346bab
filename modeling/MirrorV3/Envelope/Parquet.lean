import MirrorV3.Envelope.Ndjson

/-! The columnar format: one batch of eight columns per file, decoded from any split of its rows. -/

namespace MirrorV3.Parquet

/-- The type of a column, without the types nested in it. -/
inductive DataType where
  | utf8
  | int32
  | int64
  | uint64
  | largeBinary
  | struct
  | list
  deriving Repr, DecidableEq

/-- How a message names a type, again without the types nested in it. -/
def DataType.debug : DataType → String
  | .utf8 => "Utf8"
  | .int32 => "Int32"
  | .int64 => "Int64"
  | .uint64 => "UInt64"
  | .largeBinary => "LargeBinary"
  | .struct => "Struct"
  | .list => "List"

/-- A column of cells, absent where null; a list column cuts its items at its offsets. -/
inductive Column where
  | utf8 (cells : List (Option String))
  | int32 (cells : List (Option Int32))
  | int64 (cells : List (Option Int64))
  | uint64 (cells : List (Option Nat))
  | largeBinary (cells : List (Option Bytes))
  | struct (rows : Nat) (fields : List (String × Column))
  | list (offsets : List Nat) (items : Column)

/-- The type of a column. -/
def Column.dataType : Column → DataType
  | .utf8 _ => .utf8
  | .int32 _ => .int32
  | .int64 _ => .int64
  | .uint64 _ => .uint64
  | .largeBinary _ => .largeBinary
  | .struct .. => .struct
  | .list .. => .list

/-- The number of rows of a column. -/
def Column.rows : Column → Nat
  | .utf8 cells => cells.length
  | .int32 cells => cells.length
  | .int64 cells => cells.length
  | .uint64 cells => cells.length
  | .largeBinary cells => cells.length
  | .struct rows _ => rows
  | .list offsets _ => offsets.length - 1

/-- Whether a column holds a null. -/
def Column.hasNull : Column → Bool
  | .utf8 cells => cells.any (·.isNone)
  | .int32 cells => cells.any (·.isNone)
  | .int64 cells => cells.any (·.isNone)
  | .uint64 cells => cells.any (·.isNone)
  | .largeBinary cells => cells.any (·.isNone)
  | .struct .. | .list .. => false

/-- Some consecutive rows of a column; a list column keeps its items and only cuts its offsets. -/
def Column.slice (start rows : Nat) : Column → Column
  | .utf8 cells => .utf8 ((cells.drop start).take rows)
  | .int32 cells => .int32 ((cells.drop start).take rows)
  | .int64 cells => .int64 ((cells.drop start).take rows)
  | .uint64 cells => .uint64 ((cells.drop start).take rows)
  | .largeBinary cells => .largeBinary ((cells.drop start).take rows)
  | .struct _ fields => .struct rows (fields.map fun field => (field.1, field.2.slice start rows))
  | .list offsets items => .list ((offsets.drop start).take (rows + 1)) items
decreasing_by
  -- A field of a struct is smaller than the struct that lists it.
  rename_i field mem
  have listed := List.sizeOf_lt_of_mem mem
  cases field
  simp only [Prod.mk.sizeOf_spec, Column.struct.sizeOf_spec] at listed ⊢
  omega

/-- How a schema declares a column. -/
structure Field where
  name : String
  dataType : DataType
  nullable : Bool
  metadata : List (String × String)
  deriving Repr, DecidableEq

/-- Rows of columns under a schema. -/
structure RecordBatch where
  schema : List Field
  columns : List Column
  numRows : Nat

/-- Some consecutive rows of a batch under the same schema. -/
def RecordBatch.slice (start rows : Nat) (batch : RecordBatch) : RecordBatch :=
  { batch with columns := batch.columns.map (·.slice start rows), numRows := rows }

/-- The slices of a batch that follow each other from `start` on, with the given row counts. -/
def RecordBatch.cut (batch : RecordBatch) : Nat → List Nat → List RecordBatch
  | _, [] => []
  | start, rows :: more => batch.slice start rows :: batch.cut (start + rows) more

/-- The column of a name. -/
def RecordBatch.columnByName (batch : RecordBatch) (name : String) : Option Column :=
  ((batch.schema.zip batch.columns).find? (·.1.name == name)).map (·.2)

/-- Check columns against a schema and put them together. -/
def RecordBatch.tryNew (schema : List Field) (columns : List Column) :
    Except String RecordBatch :=
  let numRows := (columns.head?.map (·.rows)).getD 0
  if columns.length ≠ schema.length then
    .error "number of columns must match number of fields in schema"
  else if columns.any (·.rows ≠ numRows) then
    .error "all columns in a record batch must have the same length"
  else if (schema.zip columns).any (fun (field, column) => field.dataType ≠ column.dataType) then
    .error "column types must match schema types"
  else if (schema.zip columns).any (fun (field, column) => !field.nullable && column.hasNull) then
    .error "column is declared as non-nullable but contains null values"
  else .ok { schema, columns, numRows }

/-- The Arrow and Parquet crates: a file of one batch, clear or encrypted under a key. -/
class ArrowParquet where
  write : ParquetCompression → Option ParquetKey → RecordBatch → Except String Bytes
  read : Option ParquetKey → Bytes → Except String (List RecordBatch)

/-- A file reads back, with its own key, as consecutive slices of the batch it was written from. -/
class LawfulArrowParquet [ArrowParquet] : Prop where
  read_write : ∀ compression key batch bytes,
    ArrowParquet.write compression key batch = .ok bytes →
      ∃ cuts, cuts.sum = batch.numRows ∧ ArrowParquet.read key bytes = .ok (batch.cut 0 cuts)

/-- The tag of a column that holds base64 text. -/
def bytesBase64Ext : String := "mirror_v3.bytes_base64"

/-- The tag of a column that holds JSON text. -/
def jsonExt : String := "arrow.json"

/-- The metadata entry that carries a column's tag. -/
def extensionName : String := "ARROW:extension:name"

/-- Declare the key or the value column, tagged with what its text means. -/
def columnField (name : String) (kind : ColumnType) : Field where
  name := name
  dataType := .utf8
  nullable := true
  metadata :=
    let ext := match kind with
      | .bytes => some bytesBase64Ext
      | .utf8 => none
      | .json | .jsonParseable => some jsonExt
    match ext with
    | some ext => [(extensionName, ext), ("ARROW:extension:metadata", "")]
    | none => []

/-- The eight columns of a record. -/
def buildSchema (keys values : ColumnType) : List Field :=
  [⟨"topic", .utf8, false, []⟩, ⟨"partition", .int32, false, []⟩, ⟨"offset", .uint64, false, []⟩,
    ⟨"timestamp_ms", .int64, true, []⟩, ⟨"timestamp_type", .utf8, false, []⟩,
    columnField "key" keys, columnField "value" values, ⟨"headers", .list, false, []⟩]

section Encode

variable [PayloadParsers] [Base64]

/-- The cell of a payload, after its column's check. -/
def appendPayload (column : String) (kind : ColumnType) (sourceOffset : Nat)
    (payload : Option Bytes) : Except EnvelopeError (Option String) :=
  match kind.validate column sourceOffset payload with
  | .error message => .error (.encode message)
  | .ok () =>
    match payload with
    | none => .ok none
    | some data =>
      match kind with
      | .bytes => .ok (some (Base64.encode data))
      -- The check above has already refused bytes that are not UTF-8.
      | .utf8 | .json | .jsonParseable => .ok (some ((decodeUtf8 data).getD ""))

/-- The key and the value cell of a record, checked in this order. -/
def appendRecord (keys values : ColumnType) (r : Record) :
    Except EnvelopeError (Option String × Option String) := do
  let key ← appendPayload "key" keys r.sourceOffset r.key
  let value ← appendPayload "value" values r.sourceOffset r.value
  return (key, value)

/-- The column of header lists: where each record's headers end, and all headers in a row. -/
def headersColumn (records : List Record) : Column :=
  let headers := records.flatMap (·.headers)
  .list ((records.map (·.headers.length)).scanl (· + ·) 0)
    (.struct headers.length [("key", .utf8 (headers.map (some ·.key))),
      ("value", .largeBinary (headers.map (·.value)))])

/-- The columns of a batch of records. -/
def buildRecordBatch (records : List Record) (keys values : ColumnType) :
    Except EnvelopeError RecordBatch := do
  let payloads ← records.mapM (appendRecord keys values)
  match RecordBatch.tryNew (buildSchema keys values)
      [.utf8 (records.map (some ·.topic)),
        .int32 (records.map (some ·.partition)),
        .uint64 (records.map (some ·.sourceOffset)),
        .int64 (records.map (·.timestampMs)),
        .utf8 (records.map (some ·.timestampType.asStr)),
        .utf8 (payloads.map (·.1)),
        .utf8 (payloads.map (·.2)),
        headersColumn records] with
  | .ok batch => .ok batch
  | .error message => .error (.encode s!"record batch: {message}")

/-- Write a batch as one file, under a key if one is given. -/
def encode [ArrowParquet] (records : List Record) (compression : ParquetCompression)
    (keys values : ColumnType) (key : Option ParquetKey) : Except EnvelopeError Bytes := do
  let batch ← buildRecordBatch records keys values
  match ArrowParquet.write compression key batch with
  | .ok bytes => .ok bytes
  | .error message => .error (.encode message)

end Encode

section Decode

/-- A decode error. -/
def decodeError {α : Type} (message : String) : Except EnvelopeError α := .error (.decode message)

/-- The cell of a row, absent past the end as for a null. -/
def cell {α : Type} (cells : List (Option α)) (row : Nat) : Option α := (cells[row]?).join

variable [Base64]

/-- Read a cell of base64 text as the bytes it encodes. -/
def readBase64Cell (name : String) (cells : List (Option String)) (row : Nat) :
    Except EnvelopeError (Option Bytes) :=
  match cell cells row with
  | none => .ok none
  | some text =>
    match Base64.decode text with
    | .ok data => .ok (some data)
    | .error message => decodeError (s!"{name} row {row}: base64-decode: " ++ message)

/-- Read a cell of text as its UTF-8 bytes. -/
def readTextCell (cells : List (Option String)) (row : Nat) :
    Except EnvelopeError (Option Bytes) :=
  .ok ((cell cells row).map fun text => text.toUTF8.data.toList)

/-- Read a payload column by its tag, base64 text as bytes and other text as its UTF-8. -/
def payloadReader (name : String) (batch : RecordBatch) (column : Column) :
    Except EnvelopeError (Nat → Except EnvelopeError (Option Bytes)) :=
  match column with
  | .utf8 cells =>
    let field := batch.schema.find? (·.name == name)
    let ext := (field.bind fun f => f.metadata.lookup extensionName).getD ""
    .ok (if ext = bytesBase64Ext then readBase64Cell name cells else readTextCell cells)
  | other => decodeError s!"{name} column must be Utf8, got {other.dataType.debug}"

/-- The headers between two positions of the header columns. -/
def readHeaders (keys : List (Option String)) (values : List (Option Bytes)) (start stop : Nat) :
    List Header :=
  (List.range' start (stop - start)).map fun j => ⟨(cell keys j).getD "", cell values j⟩

/-- The columns of a batch under the types they must have, and the readers of the payloads. -/
structure Columns where
  topics : List (Option String)
  partitions : List (Option Int32)
  offsets : List (Option Nat)
  timestamps : List (Option Int64)
  timestampTypes : List (Option String)
  readKey : Nat → Except EnvelopeError (Option Bytes)
  readValue : Nat → Except EnvelopeError (Option Bytes)
  headerOffsets : List Nat
  headerKeys : List (Option String)
  headerValues : List (Option Bytes)

/-- Find the columns of a batch by name and check their types. -/
def RecordBatch.open (batch : RecordBatch) : Except EnvelopeError Columns := do
  let col (name : String) : Except EnvelopeError Column :=
    match batch.columnByName name with
    | some column => .ok column
    | none => decodeError s!"missing column {name}"
  let topics ← col "topic"
  let partitions ← col "partition"
  let offsets ← col "offset"
  let timestamps ← col "timestamp_ms"
  let timestampTypes ← col "timestamp_type"
  let keysCol ← col "key"
  let valuesCol ← col "value"
  let headers ← col "headers"
  let readKey ← payloadReader "key" batch keysCol
  let readValue ← payloadReader "value" batch valuesCol
  let .utf8 topics := topics | decodeError "topic not Utf8"
  let .int32 partitions := partitions | decodeError "partition not Int32"
  let .uint64 offsets := offsets | decodeError "offset not UInt64"
  let .int64 timestamps := timestamps | decodeError "timestamp_ms not Int64"
  let .utf8 timestampTypes := timestampTypes | decodeError "timestamp_type not Utf8"
  let .list headerOffsets items := headers | decodeError "headers not List"
  let .struct _ fields := items | decodeError "headers items not Struct"
  let some (.utf8 headerKeys) := fields.lookup "key" | decodeError "header.key not Utf8"
  let some (.largeBinary headerValues) := fields.lookup "value"
    | decodeError "header.value not LargeBinary"
  return { topics, partitions, offsets, timestamps, timestampTypes, readKey, readValue,
           headerOffsets, headerKeys, headerValues }

/-- The record of one row. -/
def Columns.readRow (columns : Columns) (row : Nat) : Except EnvelopeError Record := do
  let key ← columns.readKey row
  let value ← columns.readValue row
  return {
    topic := (cell columns.topics row).getD ""
    partition := (cell columns.partitions row).getD 0
    sourceOffset := (cell columns.offsets row).getD 0
    timestampMs := cell columns.timestamps row
    timestampType :=
      (TimestampType.fromWire ((cell columns.timestampTypes row).getD "")).getD .notAvailable
    key := key
    value := value
    headers := readHeaders columns.headerKeys columns.headerValues
      (columns.headerOffsets[row]?.getD 0) (columns.headerOffsets[row + 1]?.getD 0) }

/-- The records of a batch, row by row. -/
def recordBatchIntoRecords (batch : RecordBatch) : Except EnvelopeError (List Record) := do
  let columns ← batch.open
  (List.range' 0 batch.numRows).mapM columns.readRow

/-- Read a file, with a key if one is given. -/
def decode [ArrowParquet] (bytes : Bytes) (key : Option ParquetKey) :
    Except EnvelopeError (List Record) :=
  match ArrowParquet.read key bytes with
  | .error message => decodeError message
  | .ok batches => do return (← batches.mapM recordBatchIntoRecords).flatten

end Decode

section Cells

variable {α β : Type}

/-- A row of a slice is the row of the whole column that many rows later. -/
theorem cell_slice (cells : List (Option α)) {start rows row : Nat} (inside : row < rows) :
    cell ((cells.drop start).take rows) row = cell cells (start + row) := by
  simp [cell, List.getElem?_take_of_lt inside, List.getElem?_drop]

/-- The cell of a column built from a list is what its element was turned into. -/
theorem cell_map (write : β → Option α) {items : List β} {row : Nat}
    (inside : row < items.length) : cell (items.map write) row = write items[row] := by
  simp [cell, inside]

end Cells

section Payloads

variable [PayloadParsers] [Base64]

/-- The cell a payload that passes its check is written as. -/
def payloadCell (kind : ColumnType) : Option Bytes → Option String
  | none => none
  | some data =>
    match kind with
    | .bytes => some (Base64.encode data)
    | .utf8 | .json | .jsonParseable => some ((decodeUtf8 data).getD "")

/-- A payload is written exactly when its column's check accepts it. -/
theorem appendPayload_eq_ok {column : String} {kind : ColumnType} {sourceOffset : Nat}
    {payload : Option Bytes} {written : Option String} :
    appendPayload column kind sourceOffset payload = .ok written ↔
      written = payloadCell kind payload ∧ kind.validate column sourceOffset payload = .ok () := by
  cases valid : kind.validate column sourceOffset payload with
  | error message => simp [appendPayload, valid]
  | ok _ =>
    cases payload with
    | none => simp [appendPayload, valid, payloadCell, eq_comm]
    | some data => cases kind <;> simp [appendPayload, valid, payloadCell, eq_comm]

omit [Base64] in
/-- A text column only accepts bytes that decode. -/
theorem decodeUtf8_of_validate {column : String} {kind : ColumnType} {sourceOffset : Nat}
    {data : Bytes} (textual : kind ≠ .bytes)
    (valid : kind.validate column sourceOffset (some data) = .ok ()) :
    ∃ text, decodeUtf8 data = some text := by
  cases decoded : decodeUtf8 data with
  | some text => exact ⟨text, rfl⟩
  | none => cases kind <;> simp_all [ColumnType.validate]

/-- The record batch a list of accepted records is written as. -/
def batchOf (records : List Record) (keys values : ColumnType) : RecordBatch where
  schema := buildSchema keys values
  columns := [.utf8 (records.map (some ·.topic)),
    .int32 (records.map (some ·.partition)),
    .uint64 (records.map (some ·.sourceOffset)),
    .int64 (records.map (·.timestampMs)),
    .utf8 (records.map (some ·.timestampType.asStr)),
    .utf8 (records.map fun r => payloadCell keys r.key),
    .utf8 (records.map fun r => payloadCell values r.value),
    headersColumn records]
  numRows := records.length

/-- Whether a record passes the checks of both payload columns. -/
def Accepts (keys values : ColumnType) (r : Record) : Prop :=
  keys.validate "key" r.sourceOffset r.key = .ok ()
    ∧ values.validate "value" r.sourceOffset r.value = .ok ()

/-- A batch that was built holds the cells of its records, all of which passed their checks. -/
theorem of_buildRecordBatch_ok {records : List Record} {keys values : ColumnType}
    {batch : RecordBatch} (built : buildRecordBatch records keys values = .ok batch) :
    batch = batchOf records keys values ∧ ∀ r ∈ records, Accepts keys values r := by
  cases read : records.mapM (appendRecord keys values) with
  | error e => simp [buildRecordBatch, read, bind, Except.bind] at built
  | ok payloads =>
    have each : ∀ r cells, appendRecord keys values r = .ok cells →
        cells = (payloadCell keys r.key, payloadCell values r.value) ∧ Accepts keys values r := by
      intro r cells appended
      cases key : appendPayload "key" keys r.sourceOffset r.key with
      | error e => simp [appendRecord, key, bind, Except.bind] at appended
      | ok keyCell =>
        cases value : appendPayload "value" values r.sourceOffset r.value with
        | error e => simp [appendRecord, key, value, bind, Except.bind] at appended
        | ok valueCell =>
          have same : (keyCell, valueCell) = cells := by
            simpa [appendRecord, key, value, bind, Except.bind, pure, Except.pure] using appended
          obtain ⟨key_eq, key_valid⟩ := appendPayload_eq_ok.mp key
          obtain ⟨value_eq, value_valid⟩ := appendPayload_eq_ok.mp value
          exact ⟨by rw [← same, key_eq, value_eq], key_valid, value_valid⟩
    obtain ⟨cells, accepted⟩ := Results.of_mapM_ok each read
    refine ⟨?_, accepted⟩
    -- The columns were put together from the cells just read, under the schema of the two types.
    simp only [buildRecordBatch, read, bind, Except.bind] at built
    split at built
    · rename_i whole assembled
      simp only [RecordBatch.tryNew] at assembled
      split_ifs at assembled
      cases assembled
      cases built
      simp [batchOf, cells, Function.comp_def, Column.rows]
    · cases built

omit [PayloadParsers] in
/-- The reader of a payload column is chosen by the tag its column type left in the schema. -/
theorem payloadReader_eq {keys values : ColumnType} {name : String} {kind : ColumnType}
    {batch : RecordBatch} (cells : List (Option String))
    (schema : batch.schema = buildSchema keys values)
    (column : name = "key" ∧ kind = keys ∨ name = "value" ∧ kind = values) :
    payloadReader name batch (.utf8 cells)
      = .ok (if kind = .bytes then readBase64Cell name cells else readTextCell cells) := by
  have field : batch.schema.find? (·.name == name) = some (columnField name kind) := by
    rcases column with ⟨rfl, rfl⟩ | ⟨rfl, rfl⟩ <;> simp [schema, buildSchema, columnField]
  cases kind <;>
    simp [payloadReader, field, columnField, extensionName, bytesBase64Ext, jsonExt]

/-- A payload reads back from the cell it was written as, null staying apart from empty. -/
theorem readPayload_payloadCell [LawfulBase64] {column name : String} {kind : ColumnType}
    {cells : List (Option String)} {row sourceOffset : Nat} {payload : Option Bytes}
    (written : cell cells row = payloadCell kind payload)
    (valid : kind.validate column sourceOffset payload = .ok ()) :
    (if kind = .bytes then readBase64Cell name cells else readTextCell cells) row
      = .ok payload := by
  cases payload with
  | none => split <;> simp [readBase64Cell, readTextCell, written, payloadCell]
  | some data =>
    by_cases binary : kind = .bytes
    · subst binary
      simp [readBase64Cell, written, payloadCell, LawfulBase64.decode_encode]
    · -- A text column was only written because its bytes decode, and they encode the text again.
      obtain ⟨text, decoded⟩ := decodeUtf8_of_validate binary valid
      have cell_text : payloadCell kind (some data) = some text := by
        cases kind <;> simp_all [payloadCell]
      rw [if_neg binary, readTextCell, written, cell_text, Option.map_some,
        toUTF8_of_decodeUtf8 decoded]

end Payloads

section Headers

/-- Before each record's headers stand the headers of the records before it. -/
theorem headerOffsets_get (records : List Record) {row : Nat} (inside : row ≤ records.length) :
    ((records.map (·.headers.length)).scanl (· + ·) 0)[row]?.getD 0
      = ((records.take row).flatMap (·.headers)).length := by
  have total : ∀ lengths : List Nat, lengths.foldl (· + ·) 0 = lengths.sum :=
    fun lengths => by simp [List.sum_eq_foldl]
  simp [List.getElem?_scanl, inside, total, List.length_flatMap, List.map_take]

/-- Headers are read back from any stretch of the two columns they were written to. -/
theorem readHeaders_eq (before headers after : List Header) :
    readHeaders ((before ++ headers ++ after).map (some ·.key))
        ((before ++ headers ++ after).map (·.value)) before.length
        (before.length + headers.length)
      = headers := by
  refine List.ext_getElem (by simp [readHeaders]) fun j inside within => ?_
  have past : ¬ before.length + j < before.length := by omega
  simp only [readHeaders, List.getElem_map, List.getElem_range', Nat.one_mul]
  simp [cell, List.getElem?_append, within, past]

/-- The headers of a record are read back from between its two offsets. -/
theorem readHeaders_row {records : List Record} {row : Nat} (inside : row < records.length) :
    readHeaders ((records.flatMap (·.headers)).map (some ·.key))
        ((records.flatMap (·.headers)).map (·.value))
        ((records.take row).flatMap (·.headers)).length
        ((records.take (row + 1)).flatMap (·.headers)).length
      = records[row].headers := by
  have through : (records.take (row + 1)).flatMap (·.headers)
      = (records.take row).flatMap (·.headers) ++ records[row].headers := by
    rw [List.take_succ_eq_append_getElem inside, List.flatMap_append, List.flatMap_singleton]
  have split : records.flatMap (·.headers) = (records.take row).flatMap (·.headers)
      ++ records[row].headers ++ (records.drop (row + 1)).flatMap (·.headers) := by
    rw [← through, ← List.flatMap_append, List.take_append_drop]
  rw [split, through, List.length_append]
  exact readHeaders_eq _ _ _

end Headers

section RoundTrip

variable [PayloadParsers] [Base64]

/-- The columns of consecutive rows of a batch of records. -/
def slicedColumns (records : List Record) (keys values : ColumnType) (start rows : Nat) :
    Columns where
  topics := ((records.map (some ·.topic)).drop start).take rows
  partitions := ((records.map (some ·.partition)).drop start).take rows
  offsets := ((records.map (some ·.sourceOffset)).drop start).take rows
  timestamps := ((records.map (·.timestampMs)).drop start).take rows
  timestampTypes := ((records.map (some ·.timestampType.asStr)).drop start).take rows
  readKey :=
    let cells := ((records.map fun r => payloadCell keys r.key).drop start).take rows
    if keys = .bytes then readBase64Cell "key" cells else readTextCell cells
  readValue :=
    let cells := ((records.map fun r => payloadCell values r.value).drop start).take rows
    if values = .bytes then readBase64Cell "value" cells else readTextCell cells
  headerOffsets :=
    (((records.map (·.headers.length)).scanl (· + ·) 0).drop start).take (rows + 1)
  headerKeys := (records.flatMap (·.headers)).map (some ·.key)
  headerValues := (records.flatMap (·.headers)).map (·.value)

omit [PayloadParsers] [Base64] in
/-- Under the schema of a record, each column is found by its own name. -/
theorem columnByName_buildSchema (keys values : ColumnType) (numRows : Nat)
    (topic partition offset timestampMs timestampType key value headers : Column) :
    let batch : RecordBatch := ⟨buildSchema keys values,
      [topic, partition, offset, timestampMs, timestampType, key, value, headers], numRows⟩
    batch.columnByName "topic" = some topic ∧ batch.columnByName "partition" = some partition
      ∧ batch.columnByName "offset" = some offset
      ∧ batch.columnByName "timestamp_ms" = some timestampMs
      ∧ batch.columnByName "timestamp_type" = some timestampType
      ∧ batch.columnByName "key" = some key ∧ batch.columnByName "value" = some value
      ∧ batch.columnByName "headers" = some headers := by
  simp [RecordBatch.columnByName, buildSchema, columnField]

omit [PayloadParsers] in
/-- Opening a slice of a batch finds every column, of its type and cut to the slice. -/
theorem open_slice (records : List Record) (keys values : ColumnType) (start rows : Nat) :
    ((batchOf records keys values).slice start rows).open
      = .ok (slicedColumns records keys values start rows) := by
  have readKey : ∀ columns numRows cells,
      payloadReader "key" ⟨buildSchema keys values, columns, numRows⟩ (.utf8 cells)
        = .ok (if keys = .bytes then readBase64Cell "key" cells else readTextCell cells) :=
    fun _ _ cells => payloadReader_eq cells rfl (.inl ⟨rfl, rfl⟩)
  have readValue : ∀ columns numRows cells,
      payloadReader "value" ⟨buildSchema keys values, columns, numRows⟩ (.utf8 cells)
        = .ok (if values = .bytes then readBase64Cell "value" cells else readTextCell cells) :=
    fun _ _ cells => payloadReader_eq cells rfl (.inr ⟨rfl, rfl⟩)
  simp [RecordBatch.open, RecordBatch.slice, batchOf, headersColumn, columnByName_buildSchema,
    Column.slice, readKey, readValue, slicedColumns, List.lookup_cons, bind, Except.bind, pure,
    Except.pure]

/-- A row of a slice reads back as the record it was written from. -/
theorem readRow_slicedColumns [LawfulBase64] {records : List Record} {keys values : ColumnType}
    (accepted : ∀ r ∈ records, Accepts keys values r) {start rows row : Nat}
    (within : row < rows) (inside : start + row < records.length) :
    (slicedColumns records keys values start rows).readRow row
      = .ok records[start + row] := by
  obtain ⟨keyValid, valueValid⟩ := accepted _ (List.getElem_mem inside)
  have key : (slicedColumns records keys values start rows).readKey row
      = .ok records[start + row].key :=
    readPayload_payloadCell (by rw [cell_slice _ within, cell_map _ inside]) keyValid
  have value : (slicedColumns records keys values start rows).readValue row
      = .ok records[start + row].value :=
    readPayload_payloadCell (by rw [cell_slice _ within, cell_map _ inside]) valueValid
  -- The offsets of a slice are those of the whole column, so they need not start at zero.
  have offset : ∀ next ≤ 1,
      (slicedColumns records keys values start rows).headerOffsets[row + next]?.getD 0
        = ((records.take (start + row + next)).flatMap (·.headers)).length := by
    intro next small
    rw [← headerOffsets_get records (by omega), slicedColumns,
      List.getElem?_take_of_lt (by omega), List.getElem?_drop, Nat.add_assoc]
  have headers : readHeaders (slicedColumns records keys values start rows).headerKeys
      (slicedColumns records keys values start rows).headerValues
      ((slicedColumns records keys values start rows).headerOffsets[row]?.getD 0)
      ((slicedColumns records keys values start rows).headerOffsets[row + 1]?.getD 0)
      = records[start + row].headers := by
    have first := offset 0 (by omega)
    rw [Nat.add_zero, Nat.add_zero] at first
    rw [first, offset 1 (by omega)]
    exact readHeaders_row inside
  simp only [Columns.readRow, key, value, headers, bind, Except.bind, pure, Except.pure]
  simp [slicedColumns, cell_slice _ within, cell_map _ inside, TimestampType.fromWire_asStr]

/-- Any consecutive rows of a batch decode to the records they were written from. -/
theorem recordBatchIntoRecords_slice [LawfulBase64] {records : List Record}
    {keys values : ColumnType} (accepted : ∀ r ∈ records, Accepts keys values r)
    {start rows : Nat} (inside : start + rows ≤ records.length) :
    recordBatchIntoRecords ((batchOf records keys values).slice start rows)
      = .ok ((records.drop start).take rows) := by
  have length : ((records.drop start).take rows).length = rows := by
    rw [List.length_take, List.length_drop]
    omega
  have each : ∀ row (within : row < ((records.drop start).take rows).length),
      (slicedColumns records keys values start rows).readRow (0 + row)
        = .ok ((records.drop start).take rows)[row] := by
    intro row within
    rw [length] at within
    rw [Nat.zero_add, readRow_slicedColumns accepted within (by omega)]
    simp
  have all := Results.mapM_range'_ok 0 each
  rw [length] at all
  rw [recordBatchIntoRecords, open_slice]
  exact all

/-- All slices of a batch, however it is cut, decode to its records in order. -/
theorem recordBatchIntoRecords_cut [LawfulBase64] {records : List Record}
    {keys values : ColumnType} (accepted : ∀ r ∈ records, Accepts keys values r) :
    ∀ cuts start, start + cuts.sum ≤ records.length →
      ∃ slices, ((batchOf records keys values).cut start cuts).mapM recordBatchIntoRecords
          = .ok slices ∧ slices.flatten = (records.drop start).take cuts.sum := by
  intro cuts
  induction cuts with
  | nil => intro start _; exact ⟨[], rfl, by simp⟩
  | cons rows cuts ih =>
    intro start inside
    rw [List.sum_cons] at inside
    obtain ⟨slices, decoded, flat⟩ := ih (start + rows) (by omega)
    refine ⟨(records.drop start).take rows :: slices, ?_, ?_⟩
    · simp [RecordBatch.cut, List.mapM_cons, decoded,
        recordBatchIntoRecords_slice accepted (by omega : start + rows ≤ records.length), bind,
        Except.bind, pure, Except.pure]
    · rw [List.flatten_cons, flat, List.sum_cons, List.take_add, List.drop_drop]

/-- A file reads back, with its own key, as the records it was written from. -/
theorem decode_encode [LawfulBase64] [ArrowParquet] [LawfulArrowParquet] {records : List Record}
    {compression : ParquetCompression} {keys values : ColumnType} {key : Option ParquetKey}
    {bytes : Bytes} (encoded : encode records compression keys values key = .ok bytes) :
    decode bytes key = .ok records := by
  cases built : buildRecordBatch records keys values with
  | error e => simp [encode, built, bind, Except.bind] at encoded
  | ok batch =>
    obtain ⟨rfl, accepted⟩ := of_buildRecordBatch_ok built
    cases written : ArrowParquet.write compression key (batchOf records keys values) with
    | error e => simp [encode, built, written, bind, Except.bind] at encoded
    | ok file =>
      obtain rfl : file = bytes := by
        simpa [encode, built, written, bind, Except.bind] using encoded
      obtain ⟨cuts, total, read⟩ := LawfulArrowParquet.read_write _ _ _ _ written
      have count : cuts.sum = records.length := total
      obtain ⟨slices, decoded, flat⟩ :=
        recordBatchIntoRecords_cut accepted cuts 0 (by omega)
      simp [decode, read, decoded, flat, count, bind, Except.bind, pure, Except.pure]

end RoundTrip

end MirrorV3.Parquet
