import Mathlib.Algebra.GroupWithZero.Nat
import Mathlib.Data.List.Basic

/-! Records in transit, the column contract they are held to, and the errors a mirror ends with. -/

namespace MirrorV3

/-- A payload, byte by byte. -/
abbrev Bytes := List UInt8

/-- The Unicode text a payload encodes, if it is well-formed UTF-8. -/
def decodeUtf8 (bytes : Bytes) : Option String :=
  String.fromUTF8? ⟨bytes.toArray⟩

/-- A text that was decoded is encoded by the bytes it was decoded from. -/
theorem toUTF8_of_decodeUtf8 {bytes : Bytes} {text : String}
    (decoded : decodeUtf8 bytes = some text) : text.toUTF8.data.toList = bytes := by
  unfold decodeUtf8 String.fromUTF8? at decoded
  split at decoded
  · cases decoded
    rfl
  · exact absurd decoded (by simp)

/-- `u64` addition of one in a release build, which wraps at the end of the range. -/
def addOne (n : Nat) : Nat := (n + 1) % 2 ^ 64

/-- Below the end of the range the wrapping successor is the ordinary one. -/
theorem addOne_eq {n : Nat} (inRange : n + 1 < 2 ^ 64) : addOne n = n + 1 :=
  Nat.mod_eq_of_lt inRange

/-- `u64` subtraction in a release build, which wraps below zero. -/
def subtract (a b : Nat) : Nat := (a + 2 ^ 64 - b) % 2 ^ 64

/-- Where nothing wraps, the wrapping difference is the ordinary one. -/
theorem subtract_eq {a b : Nat} (atMost : b ≤ a) (inRange : a < 2 ^ 64) : subtract a b = a - b := by
  unfold subtract
  rw [Nat.sub_add_comm atMost, Nat.add_mod_right]
  exact Nat.mod_eq_of_lt (by omega)

/-- Who assigned a record's timestamp. -/
inductive TimestampType where
  | createTime
  | logAppendTime
  | notAvailable
  deriving Repr, DecidableEq

/-- The name a timestamp type has in the wire envelope. -/
def TimestampType.asStr : TimestampType → String
  | .createTime => "create_time"
  | .logAppendTime => "log_append_time"
  | .notAvailable => "not_available"

/-- The timestamp type a wire name stands for. -/
def TimestampType.fromWire : String → Option TimestampType
  | "create_time" => some .createTime
  | "log_append_time" => some .logAppendTime
  | "not_available" => some .notAvailable
  | _ => none

/-- Every timestamp type is read back from its own wire name. -/
theorem TimestampType.fromWire_asStr (t : TimestampType) : fromWire t.asStr = some t := by
  cases t <;> rfl

/-- One header of a record. -/
structure Header where
  /-- The header's name. -/
  key : String
  /-- The header's payload, null when absent. -/
  value : Option Bytes
  deriving Repr, DecidableEq

/-- A record in transit, gated everywhere on its offset in the source partition. -/
structure Record where
  topic : String
  partition : Int32
  /-- The partition offset on the source topic. -/
  sourceOffset : Nat
  timestampMs : Option Int64
  timestampType : TimestampType
  key : Option Bytes
  value : Option Bytes
  headers : List Header
  deriving Repr, DecidableEq

/-- The key of a record as text, when it has one and the bytes are UTF-8. -/
def Record.utf8Key (record : Record) : Option String :=
  record.key.bind decodeUtf8

/-- The messages of the two parsers a column check runs. -/
class PayloadParsers where
  /-- What the UTF-8 decoder says about bytes it rejects. -/
  utf8Error : Bytes → String
  /-- What the JSON parser says about a text it rejects, or nothing when it accepts. -/
  jsonError : String → Option String

/-- How a topic declares its key or its value column. -/
inductive ColumnType where
  | bytes
  | utf8
  | json
  | jsonParseable
  deriving Repr, DecidableEq

/-- Check one payload against its column, naming the column and the offset on refusal. -/
def ColumnType.validate [PayloadParsers] (columnType : ColumnType) (column : String)
    (sourceOffset : Nat) (payload : Option Bytes) : Except String Unit :=
  match payload with
  | none => .ok ()
  | some data =>
    match columnType with
    | .bytes => .ok ()
    | .utf8 | .json =>
      match decodeUtf8 data with
      | some _ => .ok ()
      | none => .error (s!"{column} at source offset {sourceOffset} is not valid UTF-8: "
          ++ PayloadParsers.utf8Error data)
    | .jsonParseable =>
      match decodeUtf8 data with
      | none => .error (s!"{column} at source offset {sourceOffset} is not valid UTF-8: "
          ++ PayloadParsers.utf8Error data)
      | some text =>
        match PayloadParsers.jsonError text with
        | none => .ok ()
        | some message =>
          .error (s!"{column} at source offset {sourceOffset} is not parseable JSON: " ++ message)

/-- Why a source could not serve the next record. -/
inductive SourceError where
  | transport (message : String)
  /-- Retention deleted records the mirror never read. -/
  | positionLost (message : String)
  /-- The source contradicts what the mirror requires of it. -/
  | inconsistent (message : String)
  deriving Repr, DecidableEq

/-- Whether reopening the mirror can get past a source error. -/
def SourceError.isTransient : SourceError → Bool
  | .transport _ => true
  | _ => false

/-- Why a destination did not take a record. -/
inductive SinkError where
  | unexpectedPosition (expected actual : Nat)
  /-- The destination could not be reached or answered with an error. -/
  | transport (message : String)
  /-- The destination contradicts what this mirror wrote or expects. -/
  | inconsistent (message : String)
  /-- A record this destination cannot take. -/
  | rejected (message : String)
  deriving Repr, DecidableEq

/-- Whether reopening the mirror can get past a sink error. -/
def SinkError.isTransient : SinkError → Bool
  | .transport _ => true
  | _ => false

/-- The message of a sink error. -/
def SinkError.display : SinkError → String
  | .unexpectedPosition expected actual =>
    s!"destination advanced: expected next-offset {expected}, found {actual}"
  | .transport message => s!"sink transport: {message}"
  | .inconsistent message => s!"destination inconsistent: {message}"
  | .rejected message => s!"record not accepted: {message}"

/-- The same kind of error with its message prefixed, a position mismatch turned into text. -/
def SinkError.context (error : SinkError) (context : String) : SinkError :=
  match error with
  | .transport message => .transport s!"{context}: {message}"
  | .rejected message => .rejected s!"{context}: {message}"
  | .inconsistent message => .inconsistent s!"{context}: {message}"
  | .unexpectedPosition expected actual =>
    .inconsistent (context ++ ": " ++ (SinkError.unexpectedPosition expected actual).display)

/-- Naming the inner sink never changes whether an error is worth retrying. -/
@[simp] theorem SinkError.context_isTransient (error : SinkError) (context : String) :
    (error.context context).isTransient = error.isTransient := by
  cases error <;> rfl

/-- Why a notifier gave up. -/
inductive NotifyError where
  | transport (message : String)
  | exhausted (attempts : Nat) (lastError : String)
  deriving Repr, DecidableEq

/-- Why the mirror loop ended. -/
inductive MirrorError where
  | source (error : SourceError)
  | sink (error : SinkError)
  | notify (error : NotifyError)
  /-- The source delivered an offset below the expected one. -/
  | sourceWentBackwards (expected got : Nat)
  /-- The source has a hole the destination cannot reproduce. -/
  | sourceGapAboveExpected (expected got : Nat)
  /-- The destination moved while the mirror was idle. -/
  | destinationDrift (expected actual : Nat)
  /-- The destination holds offsets the source does not have. -/
  | sinkAheadOfSource (sinkOffset sourceHwm : Nat)
  /-- The source no longer has the records the destination is missing. -/
  | sourceCompactedBelowExpected (start lowWatermark lowWatermarkMinusOne : Nat)
  deriving Repr, DecidableEq

/-- Whether reopening the mirror can succeed: only when one side could not be reached. -/
def MirrorError.isTransient : MirrorError → Bool
  | .source error => error.isTransient
  | .sink error => error.isTransient
  | _ => false

namespace Sample

/-- A record without payload, timestamp or headers. -/
def record (offset : Nat) : Record where
  topic := "t"
  partition := 0
  sourceOffset := offset
  timestampMs := none
  timestampType := .notAvailable
  key := none
  value := none
  headers := []

end Sample

end MirrorV3
