import MirrorV3.Envelope.Parquet

/-! Batches in either format, clear or encrypted, and that each reads back as it was written. -/

namespace MirrorV3

/-- Everything the two formats rest on outside this repository. -/
class EnvelopeLibraries extends PayloadParsers, Base64, Ndjson.SerdeJson, Parquet.ArrowParquet

/-- The libraries do what their documentation says: each reads back what it wrote. -/
class LawfulEnvelopeLibraries [EnvelopeLibraries] : Prop extends
  LawfulBase64, Ndjson.LawfulSerdeJson, Parquet.LawfulArrowParquet

variable [EnvelopeLibraries]

/-- Write a batch in the configured format; the line format ignores codec and column types. -/
def encodeBatch (format : Format) (compression : ParquetCompression) (keys values : ColumnType)
    (records : List Record) : Except EnvelopeError Bytes :=
  match format with
  | .ndjson => Ndjson.encodeBatch records
  | .parquet => Parquet.encode records compression keys values none

/-- Write a batch encrypted under a key, which only the columnar format can be. -/
def encodeBatchEncrypted (records : List Record) (compression : ParquetCompression)
    (keys values : ColumnType) (key : ParquetKey) : Except EnvelopeError Bytes :=
  Parquet.encode records compression keys values (some key)

/-- Read a batch back. -/
def decodeBatch (format : Format) (bytes : Bytes) : Except EnvelopeError (List Record) :=
  match format with
  | .ndjson => Ndjson.decodeBatch bytes
  | .parquet => Parquet.decode bytes none

/-- Read a batch that was encrypted under a key. -/
def decodeBatchEncrypted (bytes : Bytes) (key : ParquetKey) :
    Except EnvelopeError (List Record) :=
  Parquet.decode bytes (some key)

/-- A clear batch reads back as the records it was written from, in either format. -/
theorem decodeBatch_encodeBatch [LawfulEnvelopeLibraries] {format : Format}
    {compression : ParquetCompression} {keys values : ColumnType} {records : List Record}
    {bytes : Bytes} (inRange : ∀ r ∈ records, r.sourceOffset < 2 ^ 64)
    (encoded : encodeBatch format compression keys values records = .ok bytes) :
    decodeBatch format bytes = .ok records := by
  cases format with
  | ndjson => exact Ndjson.decodeBatch_encodeBatch inRange encoded
  | parquet => exact Parquet.decode_encode encoded

/-- An encrypted batch reads back, with its own key, as the records it was written from. -/
theorem decodeBatchEncrypted_encodeBatchEncrypted [LawfulEnvelopeLibraries]
    {compression : ParquetCompression} {keys values : ColumnType} {records : List Record}
    {key : ParquetKey} {bytes : Bytes}
    (encoded : encodeBatchEncrypted records compression keys values key = .ok bytes) :
    decodeBatchEncrypted bytes key = .ok records :=
  Parquet.decode_encode encoded

end MirrorV3
