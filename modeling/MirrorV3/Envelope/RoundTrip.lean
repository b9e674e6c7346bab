import Mathlib.Data.List.SplitLengths
import MirrorV3.Envelope.Lines
import MirrorV3.Envelope.Parquet

/-! A columnar batch is built exactly when its payloads are accepted, and any cut reads back. -/

namespace MirrorV3.Parquet

section Build

variable [PayloadParsers] [Base64]

/-- Whether a payload column accepts what a record has for it, if it has anything. -/
def AcceptsPayload (kind : ColumnType) (column : String) (sourceOffset : Nat)
    (payload : Option Bytes) : Prop :=
  ∀ data, payload = some data → kind.validate column sourceOffset (some data) = .ok ()

omit [Base64] in
/-- A payload that is null passes the check of any column. -/
theorem acceptsPayload_iff {kind : ColumnType} {column : String} {sourceOffset : Nat}
    {payload : Option Bytes} :
    AcceptsPayload kind column sourceOffset payload
      ↔ kind.validate column sourceOffset payload = .ok () := by
  cases payload with
  | none => simp [AcceptsPayload, ColumnType.validate]
  | some data => simp [AcceptsPayload]

omit [PayloadParsers] in
/-- Every column has the type of its field. -/
theorem dataType_batchOf (records : List Record) (keys values : ColumnType) :
    ¬ ((buildSchema keys values).zip (batchOf records keys values).columns).any
      (fun (field, column) => field.dataType ≠ column.dataType) = true := by
  simp [batchOf, buildSchema, columnField, Column.dataType, headersColumn]

omit [PayloadParsers] in
/-- Only the timestamp and the two payloads may be null, and their fields say so. -/
theorem nullable_batchOf (records : List Record) (keys values : ColumnType) :
    ¬ ((buildSchema keys values).zip (batchOf records keys values).columns).any
      (fun (field, column) => !field.nullable && column.hasNull) = true := by
  simp [batchOf, buildSchema, columnField, Column.hasNull, headersColumn]

omit [PayloadParsers] in
/-- The columns of accepted records fit the schema of their column types. -/
theorem tryNew_batchOf (records : List Record) (keys values : ColumnType) :
    RecordBatch.tryNew (buildSchema keys values) (batchOf records keys values).columns
      = .ok (batchOf records keys values) := by
  have rows : (((batchOf records keys values).columns.head?).map (·.rows)).getD 0
      = records.length := by
    simp [batchOf, Column.rows]
  -- One item of headers lies between each two of the offsets, one offset more than records.
  have lengths : ¬ (batchOf records keys values).columns.any (·.rows ≠ records.length) = true := by
    simp [batchOf, Column.rows, headersColumn]
  simp only [RecordBatch.tryNew, rows]
  rw [if_neg (by simp [batchOf, buildSchema]), if_neg lengths,
    if_neg (dataType_batchOf records keys values), if_neg (nullable_batchOf records keys values)]
  rfl

/-- A record whose payloads are accepted is appended as its two cells. -/
theorem appendRecord_eq_ok {keys values : ColumnType} {r : Record}
    (accepted : Accepts keys values r) :
    appendRecord keys values r = .ok (payloadCell keys r.key, payloadCell values r.value) := by
  have key := appendPayload_eq_ok.mpr ⟨rfl, accepted.1⟩
  have value := appendPayload_eq_ok.mpr ⟨rfl, accepted.2⟩
  rw [appendRecord, key]
  simp only [bind, Except.bind]
  rw [value]
  rfl

/-- A batch of accepted records is built. -/
theorem buildRecordBatch_eq_ok {records : List Record} {keys values : ColumnType}
    (accepted : ∀ r ∈ records, Accepts keys values r) :
    buildRecordBatch records keys values = .ok (batchOf records keys values) := by
  have cells : records.mapM (appendRecord keys values)
      = .ok (records.map fun r => (payloadCell keys r.key, payloadCell values r.value)) :=
    Results.mapM_ok fun r mem => appendRecord_eq_ok (accepted r mem)
  have assembled := tryNew_batchOf records keys values
  rw [buildRecordBatch, cells]
  simp only [batchOf, bind, Except.bind, List.map_map, Function.comp_def] at assembled ⊢
  rw [assembled]

omit [PayloadParsers] in
/-- All rows of a batch are the batch. -/
theorem slice_batchOf (records : List Record) (keys values : ColumnType) :
    (batchOf records keys values).slice 0 records.length = batchOf records keys values := by
  have whole : ∀ {α : Type} (write : Record → α),
      ((records.map write).drop 0).take records.length = records.map write := by
    intro α write
    rw [List.drop_zero, List.take_of_length_le (by simp)]
  have offsets : ((((records.map (·.headers.length)).scanl (· + ·) 0)).drop 0).take
      (records.length + 1) = (records.map (·.headers.length)).scanl (· + ·) 0 := by
    rw [List.drop_zero, List.take_of_length_le (by simp)]
  simp only [RecordBatch.slice, batchOf, headersColumn, List.map_cons, List.map_nil, Column.slice,
    whole, offsets]

end Build

section RoundTrip

variable [PayloadParsers] [Base64] [LawfulBase64]

/-- The slices of a batch decode to its records, split as its rows were. -/
theorem mapM_cut {records : List Record} {keys values : ColumnType}
    (accepted : ∀ r ∈ records, Accepts keys values r) :
    ∀ cuts start, start + cuts.sum ≤ records.length →
      ((batchOf records keys values).cut start cuts).mapM recordBatchIntoRecords
        = .ok (cuts.splitLengths (records.drop start)) := by
  intro cuts
  induction cuts with
  | nil => intro start _; rfl
  | cons rows cuts ih =>
    intro start inside
    rw [List.sum_cons] at inside
    have first := recordBatchIntoRecords_slice accepted (by omega : start + rows ≤ records.length)
    have others := ih (start + rows) (by omega)
    rw [RecordBatch.cut, List.mapM_cons, first, others, List.splitLengths_cons, List.drop_drop]
    rfl

/-- A batch is built if and only if both columns accept every payload that is there. It then reads
back as its records, as one piece and as the pieces of any cut, and nothing but the batch itself
says which column types it was built with. -/
theorem recordBatchIntoRecords_buildRecordBatch (records : List Record)
    (keys values : ColumnType) :
    ((∃ batch, buildRecordBatch records keys values = .ok batch) ↔
      ∀ r ∈ records, AcceptsPayload keys "key" r.sourceOffset r.key ∧
        AcceptsPayload values "value" r.sourceOffset r.value) ∧
    ∀ batch, buildRecordBatch records keys values = .ok batch →
      recordBatchIntoRecords batch = .ok records ∧
      ∀ cuts, cuts.sum = batch.numRows →
        (batch.cut 0 cuts).mapM recordBatchIntoRecords = .ok (cuts.splitLengths records) ∧
          (cuts.splitLengths records).flatten = records := by
  constructor
  · constructor
    · rintro ⟨batch, built⟩ r mem
      obtain ⟨-, accepted⟩ := of_buildRecordBatch_ok built
      exact ⟨acceptsPayload_iff.mpr (accepted r mem).1, acceptsPayload_iff.mpr (accepted r mem).2⟩
    · intro accepted
      exact ⟨_, buildRecordBatch_eq_ok fun r mem =>
        ⟨acceptsPayload_iff.mp (accepted r mem).1, acceptsPayload_iff.mp (accepted r mem).2⟩⟩
  · intro batch built
    obtain ⟨rfl, accepted⟩ := of_buildRecordBatch_ok built
    constructor
    · have whole := recordBatchIntoRecords_slice accepted (by omega : 0 + records.length ≤ _)
      rw [slice_batchOf] at whole
      rw [whole, List.drop_zero, List.take_length]
    · intro cuts total
      have count : cuts.sum = records.length := total
      have slices := mapM_cut accepted cuts 0 (by omega)
      rw [List.drop_zero] at slices
      exact ⟨slices, List.flatten_splitLengths _ _ (Nat.le_of_eq count.symm)⟩

end RoundTrip

section Sample

open scoped Ndjson.Plain

/-- A record whose payload is no text and one with nothing but headers, cut between and after. -/
theorem recordBatchIntoRecords_buildRecordBatch_sample :
    let binary : Record := ⟨"t", 0, 7, some (-1), .createTime, some [97], some [0, 255], []⟩
    let bare : Record := ⟨"", -1, 0, none, .notAvailable, none, some [],
      [⟨"h", none⟩, ⟨"", some []⟩]⟩
    ∃ batch, buildRecordBatch [binary, bare] .utf8 .bytes = .ok batch ∧
      recordBatchIntoRecords batch = .ok [binary, bare] ∧
      (batch.cut 0 [1, 0, 1]).mapM recordBatchIntoRecords = .ok [[binary], [], [bare]] := by
  intro binary bare
  have trips := recordBatchIntoRecords_buildRecordBatch [binary, bare] .utf8 .bytes
  have text : decodeUtf8 [97] = some "a" := Utf8.fromUTF8?_encode ['a']
  have accepted : ∀ r ∈ [binary, bare],
      AcceptsPayload .utf8 "key" r.sourceOffset r.key ∧
        AcceptsPayload .bytes "value" r.sourceOffset r.value := by
    intro r mem
    rcases List.mem_pair.mp mem with rfl | rfl
    · simp [binary, AcceptsPayload, ColumnType.validate, text]
    · simp [bare, AcceptsPayload, ColumnType.validate]
  obtain ⟨batch, built⟩ := trips.1.mpr accepted
  obtain ⟨whole, cut⟩ := trips.2 batch built
  have rows : batch.numRows = 2 := by rw [(of_buildRecordBatch_ok built).1]; rfl
  exact ⟨batch, built, whole, (cut [1, 0, 1] (by rw [rows]; rfl)).1⟩

end Sample

end MirrorV3.Parquet
