import Mathlib.Algebra.GroupWithZero.Nat
import Mathlib.Data.List.Basic

/-! The standard base64 alphabet with padding: what is encoded decodes. -/

namespace Base64Text

/-- The character of a six-bit digit. -/
def digit (n : Nat) : Char :=
  if n < 26 then Char.ofNat (n + 65)
  else if n < 52 then Char.ofNat (n + 71)
  else if n < 62 then Char.ofNat (n - 4)
  else if n = 62 then '+' else '/'

/-- The six bits a character stands for. -/
def value (c : Char) : Option Nat := (List.range 64).find? fun n => digit n = c

/-- Three bytes become four digits, and an end of one or two bytes is padded. -/
def encode : List UInt8 → List Char
  | [] => []
  | [a] => [digit (a.toNat / 4), digit (a.toNat % 4 * 16), '=', '=']
  | [a, b] =>
    [digit (a.toNat / 4), digit (a.toNat % 4 * 16 + b.toNat / 16), digit (b.toNat % 16 * 4), '=']
  | a :: b :: c :: rest =>
    digit (a.toNat / 4) :: digit (a.toNat % 4 * 16 + b.toNat / 16)
      :: digit (b.toNat % 16 * 4 + c.toNat / 64) :: digit (c.toNat % 64) :: encode rest

/-- Four digits become three bytes; the bits an end leaves over must be zero. -/
def decode : List Char → Option (List UInt8)
  | [] => some []
  | w :: x :: y :: z :: rest => do
    let w ← value w
    let x ← value x
    if y = '=' then
      if z = '=' ∧ rest = [] ∧ x % 16 = 0 then some [UInt8.ofNat (w * 4 + x / 16)] else none
    else
      let y ← value y
      let a := UInt8.ofNat (w * 4 + x / 16)
      let b := UInt8.ofNat (x % 16 * 16 + y / 4)
      if z = '=' then if rest = [] ∧ y % 4 = 0 then some [a, b] else none
      else
        let z ← value z
        let more ← decode rest
        some (a :: b :: UInt8.ofNat (y % 4 * 64 + z) :: more)
  | _ => none

/-- A digit stands for its own six bits. -/
theorem value_digit {n : Nat} (small : n < 64) : value (digit n) = some n := by
  have all : ∀ n < 64, value (digit n) = some n := by decide +kernel
  exact all n small

/-- Padding is not a digit. -/
theorem digit_ne_pad {n : Nat} (small : n < 64) : digit n ≠ '=' := by
  have all : ∀ n < 64, digit n ≠ '=' := by decide +kernel
  exact all n small

/-- A byte is put together again from the bits it was cut into. -/
theorem ofNat_eq {n : Nat} {byte : UInt8} (same : n = byte.toNat) : UInt8.ofNat n = byte := by
  rw [same, UInt8.ofNat_toNat]

/-- What is encoded decodes. -/
theorem decode_encode (bytes : List UInt8) : decode (encode bytes) = some bytes := by
  induction bytes using encode.induct with
  | case1 => rfl
  | case2 a =>
    have first := a.toNat_lt
    rw [encode, decode, value_digit (by omega), value_digit (by omega)]
    simp only [Option.bind_eq_bind, Option.bind_some, if_true, true_and]
    rw [if_pos (by omega), @ofNat_eq _ a (by omega)]
  | case3 a b =>
    have first := a.toNat_lt
    have second := b.toNat_lt
    rw [encode, decode, value_digit (by omega), value_digit (by omega)]
    simp only [Option.bind_eq_bind, Option.bind_some, if_true, true_and,
      if_neg (digit_ne_pad (by omega : b.toNat % 16 * 4 < 64)),
      value_digit (by omega : b.toNat % 16 * 4 < 64)]
    rw [if_pos (by omega), @ofNat_eq _ a (by omega), @ofNat_eq _ b (by omega)]
  | case4 a b c rest ih =>
    have first := a.toNat_lt
    have second := b.toNat_lt
    have third := c.toNat_lt
    rw [encode, decode, value_digit (by omega), value_digit (by omega)]
    simp only [Option.bind_eq_bind, Option.bind_some, ih,
      if_neg (digit_ne_pad (by omega : b.toNat % 16 * 4 + c.toNat / 64 < 64)),
      value_digit (by omega : b.toNat % 16 * 4 + c.toNat / 64 < 64),
      if_neg (digit_ne_pad (by omega : c.toNat % 64 < 64)),
      value_digit (by omega : c.toNat % 64 < 64)]
    rw [@ofNat_eq _ a (by omega), @ofNat_eq _ b (by omega),
      @ofNat_eq _ c (by omega)]

end Base64Text
