import Mathlib.Algebra.GroupWithZero.Nat
import Mathlib.Data.List.Basic

/-! UTF-8: encodings decode, their ASCII bytes are characters, and they sort as the text does. -/

namespace Utf8

/-- The bytes a text is encoded as, one character after the other. -/
def encode (text : List Char) : List UInt8 := text.flatMap String.utf8EncodeChar

/-- The bytes of a string are those of its characters. -/
theorem toUTF8_eq (text : String) : text.toUTF8.data.toList = encode text.toList := by
  rw [String.toUTF8_eq_toByteArray, ← String.utf8Encode_toList, encode, List.utf8Encode,
    List.data_toByteArray, List.toList_toArray]

/-- A text decodes from the bytes it is encoded as. -/
theorem fromUTF8?_encode (text : List Char) :
    String.fromUTF8? ⟨(encode text).toArray⟩ = some (String.ofList text) := by
  have bytes : (⟨(encode text).toArray⟩ : ByteArray) = (String.ofList text).toByteArray := by
    rw [← String.toUTF8_eq_toByteArray]
    refine ByteArray.ext (Array.ext' ?_)
    rw [toUTF8_eq, String.toList_ofList]
  rw [bytes, String.fromUTF8?, dif_pos (String.ofList text).isValidUTF8]
  rfl

/-- A byte below 128 in an encoded character is that character. -/
theorem eq_of_mem_encodeChar {c : Char} {byte : UInt8} (mem : byte ∈ String.utf8EncodeChar c)
    (ascii : byte.toNat < 128) : c.toNat = byte.toNat := by
  have same : c.val.toNat = c.toNat := rfl
  simp only [String.utf8EncodeChar] at mem
  -- The bytes of a longer encoding have their highest bit set.
  split_ifs at mem with one two three
  · obtain rfl := List.mem_singleton.mp mem
    rw [UInt8.toNat_ofNat', Nat.mod_eq_of_lt (by omega), same]
  · simp only [List.mem_cons, List.not_mem_nil, or_false] at mem
    rcases mem with rfl | rfl
    all_goals rw [UInt8.toNat_ofNat'] at ascii; omega
  · simp only [List.mem_cons, List.not_mem_nil, or_false] at mem
    rcases mem with rfl | rfl | rfl
    all_goals rw [UInt8.toNat_ofNat'] at ascii; omega
  · simp only [List.mem_cons, List.not_mem_nil, or_false] at mem
    rcases mem with rfl | rfl | rfl | rfl
    all_goals rw [UInt8.toNat_ofNat'] at ascii; omega

/-- A byte below 128 in an encoded text is one of its characters. -/
theorem mem_of_mem_encode {text : List Char} {byte : UInt8} (mem : byte ∈ encode text)
    (ascii : byte.toNat < 128) : ∃ c ∈ text, c.toNat = byte.toNat := by
  obtain ⟨c, inside, among⟩ := List.mem_flatMap.mp mem
  exact ⟨c, inside, eq_of_mem_encodeChar among ascii⟩

/-- Two byte strings compare by their first bytes, and where these agree by the rest. -/
theorem cons_lt_cons {a b : Nat} {x y : List UInt8} (small : a < 256) (small' : b < 256)
    (less : a < b ∨ a = b ∧ x < y) : UInt8.ofNat a :: x < UInt8.ofNat b :: y := by
  rw [List.cons_lt_cons_iff]
  rcases less with less | ⟨rfl, rest⟩
  · refine .inl ?_
    rw [UInt8.lt_iff_toNat_lt, UInt8.toNat_ofNat', UInt8.toNat_ofNat', Nat.mod_eq_of_lt small,
      Nat.mod_eq_of_lt small']
    exact less
  · exact .inr ⟨rfl, rest⟩

/-- A greater character has greater bytes, whatever comes after it. -/
theorem encodeChar_lt {c d : Char} (less : c.toNat < d.toNat) (x y : List UInt8) :
    String.utf8EncodeChar c ++ x < String.utf8EncodeChar d ++ y := by
  have bound : d.val.toNat < 1114112 := by
    have valid : d.val.toNat.isValidChar := d.valid
    rcases valid with low | high
    · omega
    · exact high.2
  change c.val.toNat < d.val.toNat at less
  generalize hv : c.val.toNat = v at less
  generalize hw : d.val.toNat = w at less bound
  simp only [String.utf8EncodeChar, hv, hw]
  -- A longer encoding starts with a greater byte; one of equal length decides at its first difference.
  split_ifs
  all_goals simp only [List.cons_append, List.nil_append]
  all_goals first
    | omega
    | exact cons_lt_cons (by omega) (by omega) (.inl (by omega))
    | skip
  · -- Two bytes each.
    rcases Nat.lt_or_ge (v / 64) (w / 64) with lead | lead
    · exact cons_lt_cons (by omega) (by omega) (.inl (by omega))
    · exact cons_lt_cons (by omega) (by omega)
        (.inr ⟨by omega, cons_lt_cons (by omega) (by omega) (.inl (by omega))⟩)
  · -- Three bytes each.
    rcases Nat.lt_or_ge (v / 4096) (w / 4096) with lead | lead
    · exact cons_lt_cons (by omega) (by omega) (.inl (by omega))
    · refine cons_lt_cons (by omega) (by omega) (.inr ⟨by omega, ?_⟩)
      rcases Nat.lt_or_ge (v / 64) (w / 64) with next | next
      · exact cons_lt_cons (by omega) (by omega) (.inl (by omega))
      · exact cons_lt_cons (by omega) (by omega)
          (.inr ⟨by omega, cons_lt_cons (by omega) (by omega) (.inl (by omega))⟩)
  · -- Four bytes each.
    rcases Nat.lt_or_ge (v / 262144) (w / 262144) with lead | lead
    · exact cons_lt_cons (by omega) (by omega) (.inl (by omega))
    · refine cons_lt_cons (by omega) (by omega) (.inr ⟨by omega, ?_⟩)
      rcases Nat.lt_or_ge (v / 4096) (w / 4096) with next | next
      · exact cons_lt_cons (by omega) (by omega) (.inl (by omega))
      · refine cons_lt_cons (by omega) (by omega) (.inr ⟨by omega, ?_⟩)
        rcases Nat.lt_or_ge (v / 64) (w / 64) with third | third
        · exact cons_lt_cons (by omega) (by omega) (.inl (by omega))
        · exact cons_lt_cons (by omega) (by omega)
            (.inr ⟨by omega, cons_lt_cons (by omega) (by omega) (.inl (by omega))⟩)

/-- Texts with a smaller character at the first difference have smaller bytes. -/
theorem encode_lt_encode {a b : List Char} (less : a < b) : encode a < encode b := by
  induction a generalizing b with
  | nil =>
    cases b with
    | nil => exact absurd less (List.lt_irrefl _)
    | cons d b =>
      rw [encode, encode, List.flatMap_nil, List.flatMap_cons]
      cases bytes : String.utf8EncodeChar d with
      | nil => exact absurd bytes String.utf8EncodeChar_ne_nil
      | cons byte more => exact List.nil_lt_cons _ _
  | cons c a ih =>
    cases b with
    | nil => exact absurd less (List.not_lt_nil _)
    | cons d b =>
      rw [encode, encode, List.flatMap_cons, List.flatMap_cons]
      rcases List.cons_lt_cons_iff.mp less with first | ⟨rfl, later⟩
      · exact encodeChar_lt first _ _
      · have rest := ih later
        generalize String.utf8EncodeChar c = bytes
        -- The bytes of the common character are passed over one by one.
        induction bytes with
        | nil => exact rest
        | cons byte bytes keep => exact List.cons_lt_cons_iff.mpr (.inr ⟨rfl, keep⟩)

/-- Strings compare as their bytes do. -/
theorem encode_lt_encode_iff {a b : List Char} : encode a < encode b ↔ a < b := by
  constructor
  · intro less
    by_contra other
    rcases List.le_iff_lt_or_eq.mp (List.not_lt.mp other) with above | rfl
    · exact absurd (List.lt_trans less (encode_lt_encode above)) (List.lt_irrefl _)
    · exact absurd less (List.lt_irrefl _)
  · exact encode_lt_encode

end Utf8
