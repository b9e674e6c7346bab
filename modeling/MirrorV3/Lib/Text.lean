import Mathlib.Algebra.GroupWithZero.Nat
import Mathlib.Data.List.Basic
import Mathlib.Data.List.DropRight

/-! Text as lists of characters: splitting at a pattern, and decimal numbers of fixed width. -/

namespace Text

/-- Split at the first occurrence of a pattern, which neither side keeps. -/
def splitOnce (pattern : List Char) : List Char → Option (List Char × List Char)
  | [] => if pattern = [] then some ([], []) else none
  | c :: text =>
    if pattern <+: c :: text then some ([], (c :: text).drop pattern.length)
    else (splitOnce pattern text).map fun (before, after) => (c :: before, after)

/-- Cut a suffix off the end of a text that has it. -/
def stripSuffix (suffix text : List Char) : Option (List Char) :=
  if suffix <:+ text then some (text.take (text.length - suffix.length)) else none

/-- What follows the last occurrence of a mark, if it occurs. -/
def afterLast (mark : Char) (text : List Char) : Option (List Char) :=
  if mark ∈ text then some (text.reverse.takeWhile (· ≠ mark)).reverse else none

/-- A number in decimal, zero-padded to a width. -/
def padded (width n : Nat) : List Char :=
  List.replicate (width - (Nat.toDigits 10 n).length) '0' ++ Nat.toDigits 10 n

/-- Read an unsigned 64-bit number: an optional plus sign, then digits and nothing else. -/
def parseU64 (text : List Char) : Option Nat :=
  let digits := if text.head? = some '+' then text.tail else text
  if digits ≠ [] ∧ digits.all Char.isDigit ∧ Nat.ofDigitChars 10 digits 0 < 2 ^ 64 then
    some (Nat.ofDigitChars 10 digits 0)
  else none

/-- Read an unsigned 32-bit number: an optional plus sign, then digits and nothing else. -/
def parseU32 (text : List Char) : Option Nat :=
  let digits := if text.head? = some '+' then text.tail else text
  if digits ≠ [] ∧ digits.all Char.isDigit ∧ Nat.ofDigitChars 10 digits 0 < 2 ^ 32 then
    some (Nat.ofDigitChars 10 digits 0)
  else none

/-- Whether a character is white space, in any script. -/
def isWhiteSpace (c : Char) : Bool :=
  (9 ≤ c.toNat && c.toNat ≤ 13) || c.toNat = 0x20 || c.toNat = 0x85 || c.toNat = 0xA0
    || c.toNat = 0x1680 || (0x2000 ≤ c.toNat && c.toNat ≤ 0x200A) || c.toNat = 0x2028
    || c.toNat = 0x2029 || c.toNat = 0x202F || c.toNat = 0x205F || c.toNat = 0x3000

/-- A text without the white space at its ends. -/
def trim (text : List Char) : List Char := (text.dropWhile isWhiteSpace).rdropWhile isWhiteSpace

/-- A suffix that was appended is the one that is stripped. -/
@[simp] theorem stripSuffix_append (suffix text : List Char) :
    stripSuffix suffix (text ++ suffix) = some text := by
  simp [stripSuffix]

/-- What was appended after a mark is what follows the last one. -/
theorem afterLast_append {mark : Char} (before : List Char) {after : List Char}
    (absent : mark ∉ after) : afterLast mark (before ++ mark :: after) = some after := by
  have all : ∀ c ∈ after.reverse, decide (c ≠ mark) = true := by
    intro c mem
    simpa using fun same : c = mark => absent (by simpa [same] using mem)
  have found : mark ∈ before ++ mark :: after := by simp
  rw [afterLast, if_pos found, List.reverse_append, List.reverse_cons, List.append_assoc,
    List.takeWhile_append_of_pos all]
  simp

/-- A text without the pattern's first character is not split. -/
theorem splitOnce_none {mark : Char} (pattern : List Char) {text : List Char} (absent : mark ∉ text) :
    splitOnce (mark :: pattern) text = none := by
  induction text with
  | nil => simp [splitOnce]
  | cons c text ih =>
    -- The pattern cannot start at `c`, which is not its first character.
    have other : ¬ mark :: pattern <+: c :: text := by
      rw [List.cons_prefix_cons]
      exact fun starts => absent (by simp [starts.1])
    simp [splitOnce, other, ih fun inside => absent (List.mem_cons_of_mem _ inside)]

/-- A text is split at a pattern whose first character does not occur before it. -/
theorem splitOnce_append {mark : Char} (pattern : List Char) {before : List Char}
    (after : List Char)
    (absent : mark ∉ before) :
    splitOnce (mark :: pattern) (before ++ mark :: (pattern ++ after)) = some (before, after) := by
  induction before with
  | nil =>
    have here : mark :: pattern <+: mark :: (pattern ++ after) := by simp
    simp [splitOnce, here]
  | cons c before ih =>
    have other : ¬ mark :: pattern <+: c :: (before ++ mark :: (pattern ++ after)) := by
      rw [List.cons_prefix_cons]
      exact fun starts => absent (by simp [starts.1])
    have later := ih fun inside => absent (List.mem_cons_of_mem _ inside)
    simp [splitOnce, other, later]

/-- A text that was split is its two sides with the pattern between them. -/
theorem eq_of_splitOnce {pattern text before after : List Char}
    (split : splitOnce pattern text = some (before, after)) : text = before ++ pattern ++ after := by
  induction text generalizing before with
  | nil =>
    simp only [splitOnce, Option.ite_none_right_eq_some, Option.some.injEq] at split
    obtain ⟨rfl, same⟩ := split
    cases same
    rfl
  | cons c text ih =>
    rw [splitOnce] at split
    by_cases here : pattern <+: c :: text
    · rw [if_pos here] at split
      cases split
      rw [List.nil_append]
      exact (List.prefix_iff_eq_append.mp here).symm
    · rw [if_neg here] at split
      obtain ⟨⟨before', after'⟩, later, same⟩ := Option.map_eq_some_iff.mp split
      cases same
      rw [List.cons_append, List.cons_append, ← ih later]

/-- A suffix that was cut off stood at the end. -/
theorem eq_of_stripSuffix {suffix text stem : List Char}
    (cut : stripSuffix suffix text = some stem) : text = stem ++ suffix := by
  simp only [stripSuffix, Option.ite_none_right_eq_some, Option.some.injEq] at cut
  obtain ⟨⟨front, rfl⟩, rfl⟩ := cut
  simp

/-- Two texts with the same mark for the first time are the same on both sides of it. -/
theorem append_inj_of_notMem {mark : Char} {before before' after after' : List Char}
    (absent : mark ∉ before) (absent' : mark ∉ before')
    (same : before ++ mark :: after = before' ++ mark :: after') :
    before = before' ∧ after = after' := by
  have split := splitOnce_append [] after absent
  rw [List.nil_append, same] at split
  have split' := splitOnce_append [] after' absent'
  rw [List.nil_append, split] at split'
  exact Prod.mk.inj (Option.some.inj split')

/-- Every character of a padded number is a digit. -/
theorem isDigit_of_mem_padded {width n : Nat} {c : Char} (mem : c ∈ padded width n) :
    c.isDigit = true := by
  rcases List.mem_append.mp mem with zero | digit
  · rw [(List.mem_replicate.mp zero).2]
    rfl
  · exact Nat.isDigit_of_mem_toDigits (by decide) (by decide) digit

/-- A character that is not a digit does not occur in a padded number. -/
theorem notMem_padded {width n : Nat} {c : Char} (other : c.isDigit = false) :
    c ∉ padded width n := by
  intro mem
  rw [isDigit_of_mem_padded mem] at other
  exact Bool.noConfusion other

/-- A padded number has at least one digit. -/
theorem padded_ne_nil (width n : Nat) : padded width n ≠ [] := by
  simp [padded]

/-- Padding does not change the number read back. -/
theorem ofDigitChars_padded (width n : Nat) : Nat.ofDigitChars 10 (padded width n) 0 = n := by
  rw [padded, Nat.ofDigitChars_append, Nat.ofDigitChars_replicate_zero, Nat.mul_zero,
    Nat.ofDigitChars_ten_toDigits]

/-- A padded 64-bit number reads back as itself. -/
theorem parseU64_padded {width n : Nat} (inRange : n < 2 ^ 64) :
    parseU64 (padded width n) = some n := by
  -- A leading plus sign would be a character that is not a digit.
  have unsigned : (padded width n).head? ≠ some '+' := by
    intro leads
    exact notMem_padded (by rfl) (List.mem_of_mem_head? leads)
  have digits : (padded width n).all Char.isDigit = true :=
    List.all_eq_true.mpr fun _ mem => isDigit_of_mem_padded mem
  simp only [parseU64, if_neg unsigned, ofDigitChars_padded]
  exact if_pos ⟨padded_ne_nil width n, digits, inRange⟩

/-- A number is read from digits, or from digits after a plus sign. -/
theorem of_parseU64 {text : List Char} {n : Nat} (read : parseU64 text = some n) :
    ∃ digits, (text = digits ∨ text = '+' :: digits) ∧ (∀ c ∈ digits, c.isDigit = true)
      ∧ Nat.ofDigitChars 10 digits 0 = n := by
  simp only [parseU64, ne_eq, Option.ite_none_right_eq_some, Option.some.injEq] at read
  obtain ⟨⟨-, all, -⟩, rfl⟩ := read
  refine ⟨_, ?_, List.all_eq_true.mp all, rfl⟩
  by_cases plus : text.head? = some '+'
  · obtain ⟨rest, rfl⟩ := List.head?_eq_some_iff.mp plus
    exact .inr rfl
  · rw [if_neg plus]
    exact .inl rfl

/-- A number that is read is one of 64 bits. -/
theorem lt_of_parseU64 {text : List Char} {n : Nat} (read : parseU64 text = some n) :
    n < 2 ^ 64 := by
  simp only [parseU64, ne_eq, Option.ite_none_right_eq_some, Option.some.injEq] at read
  obtain ⟨⟨-, -, inRange⟩, rfl⟩ := read
  exact inRange

/-- What a check of each character finds is so of every character. -/
theorem forall_of_all {check : Char → Prop} [DecidablePred check] {text : List Char}
    (all : text.all (check ·) = true) : ∀ c ∈ text, check c := by
  simpa using all

/-- A 32-bit number is read from digits, or from digits after a plus sign. -/
theorem parseU32_eq_some {text : List Char} {n : Nat} :
    parseU32 text = some n ↔ ∃ digits, (text = digits ∨ text = '+' :: digits) ∧ digits ≠ []
      ∧ (∀ c ∈ digits, c.isDigit = true) ∧ Nat.ofDigitChars 10 digits 0 = n ∧ n < 2 ^ 32 := by
  constructor
  · intro read
    simp only [parseU32, ne_eq, Option.ite_none_right_eq_some, Option.some.injEq] at read
    obtain ⟨⟨some_, all, inRange⟩, rfl⟩ := read
    refine ⟨_, ?_, some_, List.all_eq_true.mp all, rfl, inRange⟩
    split
    · -- A plus sign was dropped, and the text is that sign and the rest.
      rename_i plus
      obtain ⟨rest, rfl⟩ := List.head?_eq_some_iff.mp plus
      exact .inr rfl
    · exact .inl rfl
  · rintro ⟨digits, written, some_, all, rfl, inRange⟩
    have accepted : digits.all Char.isDigit = true := List.all_eq_true.mpr all
    rcases written with rfl | rfl
    · -- Digits do not start with a plus sign, so nothing is dropped.
      have unsigned : text.head? ≠ some '+' := by
        intro plus
        exact absurd (all '+' (List.mem_of_mem_head? plus)) (by decide)
      simp only [parseU32, if_neg unsigned]
      exact if_pos ⟨some_, accepted, inRange⟩
    · simp only [parseU32, List.head?_cons, List.tail_cons, if_true]
      exact if_pos ⟨some_, accepted, inRange⟩

end Text
