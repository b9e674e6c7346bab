import MirrorV3.Envelope.Batch

/-! Libraries that do what the real ones do for plain records with small offsets, and no more. -/

namespace MirrorV3.Sample

open Ndjson

/-- The document such a record is persisted as. -/
def document (offset : Int) : Json :=
  .obj [("topic", .str "t"), ("partition", .int 0), ("offset", .int offset),
    ("timestamp_type", .str "not_available")]

/-- The bytes of a text. -/
def ascii (text : String) : Bytes := text.toList.map fun c => UInt8.ofNat c.toNat

/-- The line such a record is written as. -/
def line (offset : Int) : Bytes :=
  ascii "\x7b\"topic\":\"t\",\"partition\":0,\"offset\":" ++ [UInt8.ofNat (48 + offset.toNat)]
    ++ ascii ",\"timestamp_type\":\"not_available\"\x7d"

/-- Write the document of a record with a one-digit offset. -/
def toWriter : Json → Except String Bytes
  | .obj [("topic", .str "t"), ("partition", .int 0), ("offset", .int offset),
      ("timestamp_type", .str "not_available")] =>
    if 0 ≤ offset ∧ offset < 10 then .ok (line offset) else .error "not a sample"
  | _ => .error "not a sample"

/-- Read the line of a record with a one-digit offset. -/
def fromSlice (bytes : Bytes) : Except String Json :=
  match (List.range 10).find? fun offset => bytes = line offset with
  | some offset => .ok (document offset)
  | none => .error "not a sample"

/-- Text that stands for bytes, one character each. -/
def latin1 (bytes : Bytes) : String := String.ofList (bytes.map fun b => Char.ofNat b.toNat)

/-- Libraries for sample records, which hold no payload and are written in the line format. -/
scoped instance libraries : EnvelopeLibraries where
  utf8Error _ := "invalid utf-8 sequence of 1 bytes from index 0"
  jsonError _ := none
  encode := latin1
  decode text := .ok (ascii text)
  toWriter := toWriter
  fromSlice := fromSlice
  typeError _ expected := expected
  write _ _ _ := .error "not a sample"
  read _ _ := .error "not a sample"

/-- A byte read as a character and back is the same byte. -/
theorem ofNat_toNat_ofNat (b : UInt8) : UInt8.ofNat (Char.ofNat b.toNat).toNat = b := by
  have valid : b.toNat.isValidChar := .inl (by have := b.toNat_lt; omega)
  rw [Char.ofNat, dif_pos valid]
  exact UInt8.ofNat_toNat

/-- Text that stands for bytes reads back as those bytes. -/
theorem ascii_latin1 (bytes : Bytes) : ascii (latin1 bytes) = bytes := by
  simp [ascii, latin1, Function.comp_def, ofNat_toNat_ofNat]

/-- Lines that differ in one digit only, and hold no line end beside it, are told apart. -/
theorem found_of_digit {line : Int → Bytes} {before after : Bytes}
    (shape : ∀ offset, line offset = before ++ [UInt8.ofNat (48 + offset.toNat)] ++ after)
    (clean : newline ∉ before ∧ newline ∉ after) {n : Nat} (small : n < 10) :
    line n ≠ [] ∧ newline ∉ line n
      ∧ (List.range 10 >>= fun a => pure (a : Int)).find? (fun other => line n = line other)
        = some (n : Int) := by
  have digits : ∀ n : Nat, n < 10 → newline ≠ UInt8.ofNat (48 + n)
      ∧ (List.range 10 >>= fun a => pure (a : Int)).find?
          (fun other => UInt8.ofNat (48 + n) = UInt8.ofNat (48 + other.toNat))
        = some (n : Int) := by decide +kernel
  obtain ⟨single, found⟩ := digits n small
  have same : ∀ other, line n = line other
      ↔ UInt8.ofNat (48 + n) = UInt8.ofNat (48 + other.toNat) := by
    intro other
    simp [shape]
  refine ⟨by simp [shape], ?_, ?_⟩
  · simp only [shape, List.mem_append, List.mem_singleton, Int.toNat_natCast]
    rintro ((mem | mem) | mem)
    · exact clean.1 mem
    · exact single mem
    · exact clean.2 mem
  · simp only [same]
    exact found

/-- A sample line reads back as the document it was written from, and holds no line end. -/
theorem line_spec {offset : Int} (low : 0 ≤ offset) (high : offset < 10) :
    line offset ≠ [] ∧ newline ∉ line offset ∧ fromSlice (line offset) = .ok (document offset) := by
  obtain ⟨n, rfl⟩ := Int.eq_ofNat_of_zero_le low
  have shape : ∀ offset, line offset = _ ++ [UInt8.ofNat (48 + offset.toNat)] ++ _ := fun _ => rfl
  obtain ⟨filled, single, found⟩ := found_of_digit shape
    ⟨by decide +kernel, by decide +kernel⟩ (by omega : n < 10)
  exact ⟨filled, single, by rw [fromSlice, found]⟩

scoped instance : LawfulEnvelopeLibraries where
  decode_encode bytes := congrArg Except.ok (ascii_latin1 bytes)
  round_trip persisted bytes _ written := by
    generalize persisted.toJson = json at written
    have writes : toWriter json = .ok bytes := written
    unfold toWriter at writes
    split at writes
    · split at writes
      · rename_i offset bounds
        cases writes
        exact line_spec bounds.1 bounds.2
      · cases writes
    · cases writes
  read_write _ _ _ _ written := by cases written

end MirrorV3.Sample
