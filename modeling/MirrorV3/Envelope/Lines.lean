import MirrorV3.Lib.Base64
import MirrorV3.Lib.Utf8
import MirrorV3.Envelope.JsonText

/-! Batches in the line format are always written, read back, and may be put after each other. -/

namespace MirrorV3.Ndjson

section Written

variable [Base64] [SerdeJson]

/-- The JSON crate as it documents itself: a persisted record is written without spaces as UTF-8,
its texts quoted with every control character escaped, and what was written reads back. -/
class CompactSerdeJson (quote : String → List Char) : Prop where
  escapes : ∀ text, ∀ c ∈ quote text, 32 ≤ c.toNat
  writes : ∀ persisted : PersistedRecord,
    SerdeJson.toWriter persisted.toJson = .ok (Utf8.encode (compact quote persisted.toJson))
  reads : ∀ persisted : PersistedRecord, persisted.offset < 2 ^ 64 →
    SerdeJson.fromSlice (Utf8.encode (compact quote persisted.toJson)) = .ok persisted.toJson

/-- Whether a document is written without a control character, a line end among them. -/
def Printable (quote : String → List Char) (json : Json) : Prop :=
  ∀ c ∈ compact quote json, 32 ≤ c.toNat

section Printable

variable {quote : String → List Char}

omit [Base64] [SerdeJson] in
/-- Digits and a sign are no control characters. -/
theorem printable_int (value : Int) : Printable quote (.int value) := by
  intro c mem
  have digits : ∀ d ∈ Nat.toDigits 10 value.natAbs, 32 ≤ d.toNat := by
    intro d among
    have digit := Nat.isDigit_of_mem_toDigits (by decide) (by decide) among
    simp only [Char.isDigit, Bool.and_eq_true, decide_eq_true_eq] at digit
    have low : 48 ≤ d.toNat := UInt32.le_iff_toNat_le.mp digit.1
    omega
  rw [compact, decimal] at mem
  split at mem
  · rcases List.mem_cons.mp mem with rfl | among
    · decide
    · exact digits c among
  · exact digits c mem

omit [Base64] [SerdeJson] in
/-- What is printable stays so with commas between. -/
theorem of_mem_commaSeparated {texts : List (List Char)} {c : Char}
    (mem : c ∈ commaSeparated texts) : c = ',' ∨ ∃ text ∈ texts, c ∈ text := by
  induction texts with
  | nil => simp [commaSeparated] at mem
  | cons text texts ih =>
    cases texts with
    | nil => exact .inr ⟨text, by simp, by simpa [commaSeparated] using mem⟩
    | cons next texts =>
      rw [commaSeparated, List.mem_append, List.mem_cons] at mem
      rcases mem with here | comma | later
      · exact .inr ⟨text, by simp, here⟩
      · exact .inl comma
      · rcases ih later with comma | ⟨other, among, inside⟩
        · exact .inl comma
        · exact .inr ⟨other, by simp [among], inside⟩

omit [Base64] [SerdeJson] in
/-- A list of printable documents is printable. -/
theorem printable_arr {items : List Json} (each : ∀ item ∈ items, Printable quote item) :
    Printable quote (.arr items) := by
  intro c mem
  rw [compact, List.cons_append, List.mem_cons, List.mem_append, List.mem_singleton] at mem
  rcases mem with rfl | among | rfl
  · decide
  · rcases of_mem_commaSeparated among with rfl | ⟨text, listed, inside⟩
    · decide
    · obtain ⟨item, present, rfl⟩ := List.mem_map.mp listed
      exact each item present c inside
  · decide

omit [Base64] [SerdeJson] in
/-- An object of printable documents is printable. -/
theorem printable_obj (escapes : ∀ text, ∀ c ∈ quote text, 32 ≤ c.toNat)
    {fields : List (String × Json)} (each : ∀ field ∈ fields, Printable quote field.2) :
    Printable quote (.obj fields) := by
  intro c mem
  rw [compact, List.cons_append, List.mem_cons, List.mem_append, List.mem_singleton] at mem
  rcases mem with rfl | among | rfl
  · decide
  · rcases of_mem_commaSeparated among with rfl | ⟨text, listed, inside⟩
    · decide
    · obtain ⟨field, present, rfl⟩ := List.mem_map.mp listed
      rcases List.mem_append.mp inside with name | value
      · exact escapes _ c name
      · rcases List.mem_cons.mp value with rfl | value
        · decide
        · exact each field present c value
  · decide

end Printable

section Documents

omit [SerdeJson] in
/-- What holds of texts, of integers and of the list of its headers holds of a record's fields. -/
theorem PersistedRecord.forall_fields {holds : Json → Prop} (p : PersistedRecord)
    (str : ∀ text, holds (.str text)) (int : ∀ value, holds (.int value))
    (headers : p.headers ≠ [] → holds (.arr (p.headers.map (·.toJson)))) :
    ∀ field ∈ p.fields, holds field.2 := by
  have optional : ∀ {α : Type} (name : String) (write : α → Json) (value : Option α),
      (∀ a ∈ value, holds (write a)) → ∀ field ∈ optionalField name write value,
        holds field.2 := by
    intro α name write value each field mem
    cases value with
    | none => simp [optionalField] at mem
    | some a =>
      obtain rfl : field = (name, write a) := by simpa [optionalField] using mem
      exact each a rfl
  intro field mem
  simp only [fields, List.mem_append, List.mem_cons, List.not_mem_nil, or_false] at mem
  rcases mem with (((((fixed | timestamp) | type) | key) | value) | list)
  · rcases fixed with rfl | rfl | rfl
    · exact str _
    · exact int _
    · exact int _
  · exact optional _ _ _ (fun ms _ => int ms.toInt) field timestamp
  · rw [type]
    exact str _
  · exact optional _ _ _ (fun _ _ => str _) field key
  · exact optional _ _ _ (fun _ _ => str _) field value
  · refine optional _ _ _ (fun items present => ?_) field list
    by_cases none : p.headers = []
    · simp [none] at present
    · obtain rfl : p.headers.map (·.toJson) = items := by simpa [none] using present
      exact headers none

omit [SerdeJson] in
/-- What holds of texts holds of the fields of a header. -/
theorem PersistedHeader.toJson_eq {holds : Json → Prop} (h : PersistedHeader)
    (str : ∀ text, holds (.str text)) :
    ∃ fields, h.toJson = .obj fields ∧ fields ≠ [] ∧ ∀ field ∈ fields, holds field.2 := by
  refine ⟨_, rfl, by simp, ?_⟩
  intro field mem
  rcases List.mem_cons.mp mem with rfl | mem
  · exact str _
  · cases value : h.value with
    | none => simp [value, optionalField] at mem
    | some data =>
      obtain rfl : field = ("value", base64Json data) := by simpa [value, optionalField] using mem
      exact str _

omit [SerdeJson] in
/-- A persisted record is written without control characters. -/
theorem PersistedRecord.printable {quote : String → List Char}
    (escapes : ∀ text, ∀ c ∈ quote text, 32 ≤ c.toNat) (p : PersistedRecord) :
    Printable quote p.toJson := by
  have str : ∀ text, Printable quote (.str text) := by
    intro text c mem
    rw [compact] at mem
    exact escapes text c mem
  refine printable_obj escapes (p.forall_fields str printable_int fun _ => ?_)
  refine printable_arr fun item mem => ?_
  obtain ⟨h, -, rfl⟩ := List.mem_map.mp mem
  obtain ⟨fields, object, -, each⟩ := h.toJson_eq str
  rw [object]
  exact printable_obj escapes each

/-- A persisted record takes one line, since its line ends are escaped with the rest. -/
theorem CompactSerdeJson.lawful (quote : String → List Char) [CompactSerdeJson quote] :
    LawfulSerdeJson where
  round_trip p bytes inRange written := by
    obtain rfl : Utf8.encode (compact quote p.toJson) = bytes :=
      Except.ok.inj ((CompactSerdeJson.writes p).symm.trans written)
    refine ⟨?_, ?_, CompactSerdeJson.reads p inRange⟩
    · simp [PersistedRecord.toJson, compact, Utf8.encode, String.utf8EncodeChar]
    · intro mem
      obtain ⟨c, inside, lineEnd⟩ := Utf8.mem_of_mem_encode mem (by decide)
      have above := p.printable (CompactSerdeJson.escapes) c inside
      rw [lineEnd] at above
      exact absurd above (by decide)

end Documents

section Batches

variable {quote : String → List Char} [CompactSerdeJson quote]

omit [CompactSerdeJson quote] in
/-- Two batches are written one after the other as one batch. -/
theorem encodeBatch_append {a b : List Record} {first second : Bytes}
    (left : encodeBatch a = .ok first) (right : encodeBatch b = .ok second) :
    encodeBatch (a ++ b) = .ok (first ++ second) := by
  obtain ⟨lines, written, flat⟩ := Results.of_bind_ok left
  obtain ⟨lines', written', flat'⟩ := Results.of_bind_ok right
  cases flat
  cases flat'
  rw [encodeBatch, List.mapM_append, written, written']
  exact congrArg Except.ok List.flatten_append

/-- Every batch is written. -/
theorem encodeBatch_eq_ok (quote : String → List Char) [CompactSerdeJson quote]
    (records : List Record) : ∃ bytes, encodeBatch records = .ok bytes := by
  have each : ∀ r ∈ records, encodeLine r
      = .ok (Utf8.encode (compact quote (PersistedRecord.ofRecord r).toJson) ++ [newline]) := by
    intro r _
    rw [encodeLine, @CompactSerdeJson.writes _ _ quote _ (PersistedRecord.ofRecord r)]
  rw [encodeBatch, Results.mapM_ok each]
  exact ⟨_, rfl⟩

variable [LawfulBase64]

/-- Every batch of records with 64-bit offsets is written and reads back, null apart from empty,
and what two batches are written as reads back, put together, as both. -/
theorem decodeBatch_encodeBatch_append (quote : String → List Char) [CompactSerdeJson quote]
    (a b : List Record) (inRange : ∀ r ∈ a ++ b, r.sourceOffset < 2 ^ 64) :
    ∃ first second, encodeBatch a = .ok first ∧ decodeBatch first = .ok a ∧
      encodeBatch b = .ok second ∧ decodeBatch second = .ok b ∧
      decodeBatch (first ++ second) = .ok (a ++ b) := by
  have : LawfulSerdeJson := CompactSerdeJson.lawful quote
  obtain ⟨first, left⟩ := encodeBatch_eq_ok quote a
  obtain ⟨second, right⟩ := encodeBatch_eq_ok quote b
  refine ⟨first, second, left, ?_, right, ?_, ?_⟩
  · exact decodeBatch_encodeBatch (fun r mem => inRange r (List.mem_append_left _ mem)) left
  · exact decodeBatch_encodeBatch (fun r mem => inRange r (List.mem_append_right _ mem)) right
  · exact decodeBatch_encodeBatch inRange (encodeBatch_append left right)

end Batches

end Written

namespace Plain

/-- Base64 text with padding. -/
scoped instance base64 : Base64 where
  encode bytes := String.ofList (Base64Text.encode bytes)
  decode text :=
    match Base64Text.decode text.toList with
    | some bytes => .ok bytes
    | none => .error "invalid base64"

/-- JSON without spaces, and a reader for what is written so. -/
scoped instance serdeJson : SerdeJson where
  toWriter json := .ok (Utf8.encode (compact quoted json))
  fromSlice bytes :=
    match (decodeUtf8 bytes).bind fun text => readJson 128 text.toList with
    | some (json, []) => .ok json
    | _ => .error "expected value"
  typeError _ expected := "invalid type, expected " ++ expected

/-- A JSON text is one that is read to its end. -/
scoped instance payloadParsers : PayloadParsers where
  utf8Error _ := "invalid utf-8 sequence of 1 bytes from index 0"
  jsonError text :=
    match readJson 128 text.toList with
    | some (_, []) => none
    | _ => some "expected value at line 1 column 1"

scoped instance : LawfulBase64 where
  decode_encode bytes := by
    change (match Base64Text.decode (String.ofList (Base64Text.encode bytes)).toList with
      | some bytes => Except.ok bytes
      | none => .error "invalid base64") = _
    rw [String.toList_ofList, Base64Text.decode_encode]

/-- A persisted record is nested four deep, and each level reads back. -/
theorem readsBack_toJson (depth : Nat) (p : PersistedRecord) :
    ReadsBack (depth + 4) p.toJson := by
  refine readsBack_obj ?_
  refine p.forall_fields (readsBack_str (depth + 2)) (readsBack_int (depth + 2)) fun headers => ?_
  refine readsBack_arr (by simpa using headers) ?_ ?_
  · -- A header is an object, so the list does not look empty.
    intro item mem
    obtain ⟨h, -, rfl⟩ := List.mem_map.mp mem
    rw [PersistedHeader.toJson, compact]
    exact ⟨'{', _, rfl, by decide⟩
  · intro item mem
    obtain ⟨h, -, rfl⟩ := List.mem_map.mp mem
    obtain ⟨fields, object, -, each⟩ := h.toJson_eq (readsBack_str depth)
    rw [object]
    exact readsBack_obj each

scoped instance : CompactSerdeJson quoted where
  escapes _ _ mem := not_control_of_mem_quoted mem
  writes _ := rfl
  reads p _ := by
    have read := readsBack_toJson 124 p [] (by simp)
    rw [List.append_nil] at read
    have decoded : decodeUtf8 (Utf8.encode (compact quoted p.toJson))
        = some (String.ofList (compact quoted p.toJson)) := Utf8.fromUTF8?_encode _
    simp [SerdeJson.fromSlice, decoded, read]

/-- Two records whose texts and payloads hold line ends, quotation marks and nothing at all. -/
theorem decodeBatch_encodeBatch_append_sample :
    let a : Record := ⟨"line\nend", -1, 2 ^ 64 - 1, none, .createTime, some [10], some [],
      [⟨"\"quoted\"", some [0]⟩, ⟨"\n", none⟩, ⟨"", some []⟩]⟩
    let b : Record := ⟨"", 0, 0, some (-1), .notAvailable, none, none, []⟩
    ∃ first second, encodeBatch [a] = .ok first ∧ decodeBatch first = .ok [a] ∧
      encodeBatch [b] = .ok second ∧ decodeBatch second = .ok [b] ∧
      decodeBatch (first ++ second) = .ok [a, b] :=
  decodeBatch_encodeBatch_append quoted [_] [_] (by simp)

end Plain

end MirrorV3.Ndjson
