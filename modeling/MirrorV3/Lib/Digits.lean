import Mathlib.Tactic.Ring
import MirrorV3.Lib.Text

/-! Decimal numbers of one width sort as text like the numbers they stand for. -/

namespace Text

variable {width a b : Nat}

/-- A digit stands for at most nine. -/
theorem digit_le {c : Char} (digit : c.isDigit = true) : c.toNat - '0'.toNat ≤ 9 := by
  simp only [Char.isDigit, Bool.and_eq_true, decide_eq_true_eq] at digit
  have most : c.val.toNat ≤ 57 := digit.2
  show c.val.toNat - 48 ≤ 9
  omega

/-- A later digit stands for more. -/
theorem digit_lt {c d : Char} (digit : c.isDigit = true) (below : c < d) :
    c.toNat - '0'.toNat < d.toNat - '0'.toNat := by
  simp only [Char.isDigit, Bool.and_eq_true, decide_eq_true_eq] at digit
  have least : 48 ≤ c.val.toNat := digit.1
  have below : c.val.toNat < d.val.toNat := below
  show c.val.toNat - 48 < d.val.toNat - 48
  omega

/-- Digits after a number reach less than the next number does. -/
theorem ofDigitChars_lt_succ {text : List Char} (digits : ∀ c ∈ text, c.isDigit = true) (n : Nat) :
    Nat.ofDigitChars 10 text n < (n + 1) * 10 ^ text.length := by
  -- Each digit multiplies by ten and adds at most nine.
  induction text generalizing n with
  | nil => simp
  | cons c text ih =>
    have later := ih (fun c mem => digits c (List.mem_cons_of_mem _ mem))
      (10 * n + (c.toNat - '0'.toNat))
    have digit := digit_le (digits c List.mem_cons_self)
    rw [Nat.ofDigitChars_cons, List.length_cons]
    calc Nat.ofDigitChars 10 text (10 * n + (c.toNat - '0'.toNat))
        < (10 * n + (c.toNat - '0'.toNat) + 1) * 10 ^ text.length := later
      _ ≤ (10 * (n + 1)) * 10 ^ text.length := Nat.mul_le_mul_right _ (by omega)
      _ = (n + 1) * 10 ^ (text.length + 1) := by ring

/-- Of two numbers with equally many digits after them, the greater one stays greater. -/
theorem ofDigitChars_lt_of_lt {text text' : List Char} (same : text.length = text'.length)
    (digits : ∀ c ∈ text, c.isDigit = true) (less : a < b) :
    Nat.ofDigitChars 10 text a < Nat.ofDigitChars 10 text' b := by
  calc Nat.ofDigitChars 10 text a
      < (a + 1) * 10 ^ text.length := ofDigitChars_lt_succ digits a
    _ ≤ b * 10 ^ text'.length := by rw [same]; exact Nat.mul_le_mul_right _ less
    _ ≤ Nat.ofDigitChars 10 text' b := by
      rw [Nat.ofDigitChars_eq_ofDigitChars_zero, Nat.mul_comm]
      exact Nat.le_add_right _ _

/-- Digits of equal length sort like the numbers they stand for, whatever comes after them. -/
theorem lt_of_ofDigitChars_lt {text text' : List Char} (same : text.length = text'.length)
    (digits : ∀ c ∈ text, c.isDigit = true) (digits' : ∀ c ∈ text', c.isDigit = true) {n : Nat}
    (less : Nat.ofDigitChars 10 text n < Nat.ofDigitChars 10 text' n) (rest rest' : List Char) :
    text ++ rest < text' ++ rest' := by
  -- The first place where the digits differ decides both orders.
  induction text generalizing text' n with
  | nil =>
    obtain rfl := List.eq_nil_of_length_eq_zero same.symm
    exact absurd less (Nat.lt_irrefl _)
  | cons c text ih =>
    cases text' with
    | nil => simp at same
    | cons d text' =>
      have lengths : text.length = text'.length := by simpa using same
      have digits₁ := fun e mem => digits e (List.mem_cons_of_mem c mem)
      have digits₂ := fun e mem => digits' e (List.mem_cons_of_mem d mem)
      rw [Nat.ofDigitChars_cons, Nat.ofDigitChars_cons] at less
      rw [List.cons_append, List.cons_append]
      rcases Nat.lt_trichotomy c.val.toNat d.val.toNat with below | equal | above
      · exact List.cons_lt_cons_iff.mpr (.inl below)
      · obtain rfl : c = d := Char.ext (UInt32.toNat_inj.mp equal)
        exact List.cons_lt_cons_iff.mpr (.inr ⟨rfl, ih lengths digits₁ digits₂ less⟩)
      · -- A greater first digit would have made the number greater.
        have more := digit_lt (digits' d List.mem_cons_self) above
        have greater := @ofDigitChars_lt_of_lt (10 * n + (d.toNat - '0'.toNat))
          (10 * n + (c.toNat - '0'.toNat)) text' text lengths.symm digits₂ (by omega)
        omega

/-- Digits of one length that stand for one number are the same digits. -/
theorem eq_of_ofDigitChars_eq {text text' : List Char} (same : text.length = text'.length)
    (digits : ∀ c ∈ text, c.isDigit = true) (digits' : ∀ c ∈ text', c.isDigit = true) {n : Nat}
    (value : Nat.ofDigitChars 10 text n = Nat.ofDigitChars 10 text' n) : text = text' := by
  induction text generalizing text' n with
  | nil => exact (List.eq_nil_of_length_eq_zero same.symm).symm
  | cons c text ih =>
    cases text' with
    | nil => simp at same
    | cons d text' =>
      have lengths : text.length = text'.length := by simpa using same
      have digits₁ := fun e mem => digits e (List.mem_cons_of_mem c mem)
      have digits₂ := fun e mem => digits' e (List.mem_cons_of_mem d mem)
      rw [Nat.ofDigitChars_cons, Nat.ofDigitChars_cons] at value
      rcases Nat.lt_trichotomy c.val.toNat d.val.toNat with below | equal | above
      · -- A smaller first digit would have made the number smaller.
        have less := digit_lt (digits c List.mem_cons_self) below
        have smaller := @ofDigitChars_lt_of_lt (10 * n + (c.toNat - '0'.toNat))
          (10 * n + (d.toNat - '0'.toNat)) text text' lengths digits₁ (by omega)
        omega
      · obtain rfl : c = d := Char.ext (UInt32.toNat_inj.mp equal)
        rw [ih lengths digits₁ digits₂ value]
      · have less := digit_lt (digits' d List.mem_cons_self) above
        have smaller := @ofDigitChars_lt_of_lt (10 * n + (d.toNat - '0'.toNat))
          (10 * n + (c.toNat - '0'.toNat)) text' text lengths.symm digits₂ (by omega)
        omega

/-- A number that fits is padded to exactly the width. -/
theorem length_padded (some_ : 0 < width) (fits : a < 10 ^ width) :
    (padded width a).length = width := by
  have short := (Nat.length_toDigits_le_iff (by decide) some_).mpr fits
  simp only [padded, List.length_append, List.length_replicate]
  omega

/-- Digits that fill the width are the number they stand for, padded. -/
theorem padded_ofDigitChars {text : List Char} (some_ : 0 < width) (filled : text.length = width)
    (digits : ∀ c ∈ text, c.isDigit = true) :
    padded width (Nat.ofDigitChars 10 text 0) = text := by
  have fits : Nat.ofDigitChars 10 text 0 < 10 ^ width := by
    have bound := ofDigitChars_lt_succ digits 0
    rw [filled] at bound
    omega
  exact @eq_of_ofDigitChars_eq _ _ (by rw [length_padded some_ fits, filled])
    (fun _ mem => isDigit_of_mem_padded mem) digits 0 (ofDigitChars_padded _ _)

/-- Padded numbers sort like the numbers, whatever comes after them. -/
theorem padded_lt_padded (some_ : 0 < width) (less : a < b) (fits : b < 10 ^ width)
    (rest rest' : List Char) : padded width a ++ rest < padded width b ++ rest' := by
  have same : (padded width a).length = (padded width b).length := by
    rw [length_padded some_ (Nat.lt_trans less fits), length_padded some_ fits]
  refine @lt_of_ofDigitChars_lt _ _ same (fun _ mem => isDigit_of_mem_padded mem)
    (fun _ mem => isDigit_of_mem_padded mem) 0 ?_ rest rest'
  rw [ofDigitChars_padded, ofDigitChars_padded]
  exact less

end Text
