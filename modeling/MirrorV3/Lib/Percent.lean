import Mathlib.Data.List.Basic

/-! Percent encoding: a character of a set is written as a mark and two digits for each byte. -/

namespace Percent

/-- One of the sixteen digits bytes are written with. -/
def hexDigit (value : Nat) : Char := (Nat.digitChar value).toUpper

/-- A byte as a mark and its two digits. -/
def percentByte (byte : UInt8) : List Char :=
  ['%', hexDigit (byte.toNat / 16), hexDigit (byte.toNat % 16)]

/-- A character as it is written: itself, or each byte of it encoded. -/
def encodeChar (reserved : Char → Bool) (c : Char) : List Char :=
  if reserved c then (String.utf8EncodeChar c).flatMap percentByte else [c]

/-- A text as it is written. -/
def encode (reserved : Char → Bool) (text : List Char) : List Char :=
  text.flatMap (encodeChar reserved)

/-- The value of a digit bytes are written with. -/
def digitValue (c : Char) : Nat := ((List.range 16).find? (hexDigit · = c)).getD 0

/-- The bytes a text was encoded from. -/
def decode : List Char → List UInt8
  | [] => []
  | c :: rest =>
    if c = '%' then
      match rest with
      | high :: low :: rest =>
        UInt8.ofNat (16 * digitValue high + digitValue low) :: decode rest
      | _ => []
    else String.utf8EncodeChar c ++ decode rest

section Encode

variable {reserved : Char → Bool} {text : List Char}

/-- A character of the set is written as a mark and at least two digits. -/
theorem encodeChar_of_reserved {c : Char} (taken : reserved c = true) :
    ∃ high low rest, encodeChar reserved c = '%' :: high :: low :: rest := by
  -- A character is at least one byte.
  rw [encodeChar, if_pos taken]
  cases bytes : String.utf8EncodeChar c with
  | nil => exact absurd bytes String.utf8EncodeChar_ne_nil
  | cons byte rest => exact ⟨_, _, _, rfl⟩

/-- A text without a character of the set is written as it is. -/
theorem encode_of_plain (kept : ∀ c ∈ text, reserved c = false) : encode reserved text = text := by
  have each : text.map (encodeChar reserved) = text.map fun c => [c] :=
    List.map_congr_left fun c mem => if_neg (by simp [kept c mem])
  rw [encode, List.flatMap, each, ← List.flatMap, List.flatMap_singleton']

/-- A text with a character of the set is marked. -/
theorem percent_mem_encode (taken : ∃ c ∈ text, reserved c = true) : '%' ∈ encode reserved text := by
  obtain ⟨c, mem, taken⟩ := taken
  obtain ⟨high, low, rest, written⟩ := encodeChar_of_reserved taken
  exact List.mem_flatMap.mpr ⟨c, mem, written ▸ List.mem_cons_self⟩

/-- A text is written no shorter than it is, and longer where a character of the set is in it. -/
theorem length_le_encode (reserved : Char → Bool) (text : List Char) :
    text.length ≤ (encode reserved text).length
      ∧ ((∃ c ∈ text, reserved c = true) → text.length < (encode reserved text).length) := by
  induction text with
  | nil => simp
  | cons c rest ih =>
    have longer : reserved c = true → 3 ≤ (encodeChar reserved c).length := by
      intro taken
      obtain ⟨high, low, more, written⟩ := encodeChar_of_reserved taken
      simp [written]
    have some_ : 0 < (encodeChar reserved c).length := by
      by_cases taken : reserved c = true
      · have := longer taken
        omega
      · simp [encodeChar, taken]
    rw [encode, List.flatMap_cons, List.length_append, List.length_cons, ← encode]
    refine ⟨by omega, ?_⟩
    rintro ⟨d, mem, taken⟩
    rcases List.mem_cons.mp mem with rfl | later
    · have := longer taken
      omega
    · have := ih.2 ⟨d, later, taken⟩
      omega

/-- A character of the set that is neither the mark nor a digit is never written. -/
theorem notMem_encode {c : Char} (taken : reserved c = true) (mark : c ≠ '%')
    (digit : ∀ value < 16, hexDigit value ≠ c) (text : List Char) : c ∉ encode reserved text := by
  intro mem
  obtain ⟨source, -, inChar⟩ := List.mem_flatMap.mp mem
  unfold encodeChar at inChar
  split at inChar
  · obtain ⟨byte, -, inByte⟩ := List.mem_flatMap.mp inChar
    have bound := byte.toNat_lt
    simp only [percentByte, List.mem_cons, List.not_mem_nil, or_false] at inByte
    rcases inByte with isMark | high | low
    · exact mark isMark
    · exact digit _ (by omega) high.symm
    · exact digit _ (by omega) low.symm
  · rename_i kept
    obtain rfl := List.mem_singleton.mp inChar
    exact kept taken

end Encode

section Decode

/-- The two digits of a byte read back as the byte. -/
theorem digitValue_hexDigit {value : Nat} (small : value < 16) :
    digitValue (hexDigit value) = value := by
  have all : ∀ value < 16, digitValue (hexDigit value) = value := by decide
  exact all value small

/-- Encoded bytes read back as themselves. -/
theorem decode_percentByte (bytes : List UInt8) (rest : List Char) :
    decode (bytes.flatMap percentByte ++ rest) = bytes ++ decode rest := by
  induction bytes with
  | nil => rfl
  | cons byte bytes ih =>
    have bound := byte.toNat_lt
    rw [List.flatMap_cons, List.append_assoc, percentByte]
    simp only [List.cons_append, List.nil_append, decode, if_true]
    rw [ih, digitValue_hexDigit (by omega), digitValue_hexDigit (by omega), Nat.div_add_mod,
      UInt8.ofNat_toNat]

/-- Any other character reads back as its own bytes. -/
theorem decode_cons_of_ne {c : Char} (other : c ≠ '%') (rest : List Char) :
    decode (c :: rest) = String.utf8EncodeChar c ++ decode rest := by
  cases rest with
  | nil => simp [decode, other]
  | cons high rest => cases rest <;> simp [decode, other]

variable {reserved : Char → Bool}

/-- Where the mark is of the set itself, a text reads back as its bytes. -/
theorem decode_encode (percent : reserved '%' = true) (text : List Char) :
    decode (encode reserved text) = text.flatMap String.utf8EncodeChar := by
  induction text with
  | nil => rfl
  | cons c rest ih =>
    rw [List.flatMap_cons, ← ih, encode, List.flatMap_cons, ← encode]
    unfold encodeChar
    split
    · exact decode_percentByte _ _
    · rename_i kept
      have other : c ≠ '%' := by
        rintro rfl
        exact kept percent
      exact decode_cons_of_ne other _

/-- Texts are told apart by their bytes. -/
theorem flatMap_utf8EncodeChar_injective :
    Function.Injective fun text : List Char => text.flatMap String.utf8EncodeChar := by
  intro a b bytes
  have texts : String.ofList a = String.ofList b := by
    rw [← String.toByteArray_inj, String.toByteArray_ofList, String.toByteArray_ofList,
      List.utf8Encode, List.utf8Encode, show a.flatMap _ = b.flatMap _ from bytes]
  exact String.ofList_injective texts

end Decode

end Percent
