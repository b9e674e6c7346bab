import MirrorV3.Config.Validate
import MirrorV3.Lib.Text

/-! The time of day of a daily flush: how it is written, and its seconds since midnight. -/

namespace MirrorV3.Config

open Results Text

/-- Why a text is not a time of day, with the text. -/
inductive AtUtcError where
  /-- It is not of the shape `HH:MM` or `HH:MM:SS`. -/
  | format (atUtc : String)
  /-- A field of it is out of range. -/
  | range (atUtc : String)
  deriving Repr, DecidableEq

/-- The message about a text that is not a time of day. -/
def AtUtcError.display [ConfigLibraries] : AtUtcError → String
  | .format atUtc => s!"at-utc must be HH:MM or HH:MM:SS, got {ConfigLibraries.debug atUtc}"
  | .range atUtc =>
    s!"at-utc out of range (HH 0-23, MM 0-59, SS 0-59), got {ConfigLibraries.debug atUtc}"

/-- The number in one field of a time of day. -/
def clockField (atUtc : String) (field : List Char) : Except AtUtcError Nat :=
  match parseU32 field with
  | some n => .ok n
  | none => .error (.format atUtc)

/-- The seconds of a day before the time that three fields write. -/
def clockSeconds (atUtc : String) (hS mS sS : List Char) : Except AtUtcError Nat := do
  let h ← clockField atUtc hS
  let m ← clockField atUtc mS
  let s ← clockField atUtc sS
  if 23 < h ∨ 59 < m ∨ 59 < s then .error (.range atUtc) else .ok (h * 3600 + m * 60 + s)

/-- Read a time of day as seconds since midnight. -/
def parseAtUtc (atUtc : String) : Except AtUtcError Nat :=
  match atUtc.toList.splitOn ':' with
  | [h, m] => clockSeconds atUtc h m ['0']
  | [h, m, s] => clockSeconds atUtc h m s
  | _ => .error (.format atUtc)

/-- A field that writes a number up to a bound: digits, or digits after a plus sign. -/
def ClockField (bound : Nat) (field : List Char) : Prop :=
  ∃ digits, (field = digits ∨ field = '+' :: digits) ∧ digits ≠ []
    ∧ (∀ c ∈ digits, c.isDigit = true) ∧ Nat.ofDigitChars 10 digits 0 ≤ bound

/-- A time of day: hours and minutes, and seconds or none, with colons between them. -/
def IsClockTime (text : String) : Prop :=
  ∃ h m, ClockField 23 h ∧ ClockField 59 m
    ∧ (text.toList = h ++ ':' :: m ∨ ∃ s, ClockField 59 s ∧ text.toList = h ++ ':' :: (m ++ ':' :: s))

section Fields

variable {atUtc : String} {bound : Nat} {field h m s : List Char} {seconds : Nat}

/-- A field writes a number up to a small bound when one is read from it. -/
theorem clockField_iff (small : bound < 2 ^ 32) :
    ClockField bound field ↔ ∃ n ≤ bound, clockField atUtc field = .ok n := by
  have read : ∀ n, clockField atUtc field = .ok n ↔ parseU32 field = some n := by
    intro n
    unfold clockField
    split <;> simp [*]
  constructor
  · rintro ⟨digits, written, some_, all, le⟩
    refine ⟨_, le, (read _).mpr (parseU32_eq_some.mpr ⟨digits, written, some_, all, rfl, ?_⟩)⟩
    omega
  · rintro ⟨n, le, parsed⟩
    obtain ⟨digits, written, some_, all, rfl, -⟩ := parseU32_eq_some.mp ((read n).mp parsed)
    exact ⟨digits, written, some_, all, le⟩

/-- A field has no colon in it. -/
theorem ClockField.notMem (is : ClockField bound field) : ':' ∉ field := by
  obtain ⟨digits, written, -, all, -⟩ := is
  have absent : ':' ∉ digits := fun mem => absurd (all ':' mem) (by decide)
  rcases written with rfl | rfl
  · exact absent
  · simpa using absent

/-- Three fields write a time of day when each is within its bound. -/
theorem clockSeconds_iff :
    (∃ seconds, clockSeconds atUtc h m s = .ok seconds)
      ↔ ClockField 23 h ∧ ClockField 59 m ∧ ClockField 59 s := by
  rw [@clockField_iff atUtc 23 h (by omega), @clockField_iff atUtc 59 m (by omega),
    @clockField_iff atUtc 59 s (by omega)]
  constructor
  · rintro ⟨seconds, read⟩
    obtain ⟨hours, hRead, read⟩ := of_bind_ok read
    obtain ⟨minutes, mRead, read⟩ := of_bind_ok read
    obtain ⟨rest, sRead, read⟩ := of_bind_ok read
    split at read
    · cases read
    · rename_i inRange
      exact ⟨⟨hours, by omega, hRead⟩, ⟨minutes, by omega, mRead⟩, ⟨rest, by omega, sRead⟩⟩
  · rintro ⟨⟨hours, hLe, hRead⟩, ⟨minutes, mLe, mRead⟩, ⟨rest, sLe, sRead⟩⟩
    refine ⟨hours * 3600 + minutes * 60 + rest, ?_⟩
    simp only [clockSeconds, hRead, mRead, sRead, bind, Except.bind]
    exact if_neg (by omega)

/-- A time of day lies within a day. -/
theorem clockSeconds_lt (read : clockSeconds atUtc h m s = .ok seconds) : seconds < 86400 := by
  obtain ⟨hours, -, read⟩ := of_bind_ok read
  obtain ⟨minutes, -, read⟩ := of_bind_ok read
  obtain ⟨rest, -, read⟩ := of_bind_ok read
  split at read
  · cases read
  · have := Except.ok.inj read
    omega

end Fields

/-- What is read from a text lies within a day. -/
theorem parseAtUtc_lt {atUtc : String} {seconds : Nat} (read : parseAtUtc atUtc = .ok seconds) :
    seconds < 86400 := by
  unfold parseAtUtc at read
  split at read
  · exact clockSeconds_lt read
  · exact clockSeconds_lt read
  · cases read

/-- A text without seconds writes the seconds of a full minute. -/
theorem clockField_zero : ClockField 59 ['0'] :=
  ⟨['0'], .inl rfl, by decide, forall_of_all (by decide), by decide⟩

/-- Exactly a time of day is read. -/
theorem parseAtUtc_iff (atUtc : String) :
    (∃ seconds, parseAtUtc atUtc = .ok seconds) ↔ IsClockTime atUtc := by
  constructor
  · rintro ⟨seconds, read⟩
    -- The parts with colons between them are the text.
    have joined : [':'].intercalate (atUtc.toList.splitOn ':') = atUtc.toList :=
      List.intercalate_splitOn ':'
    unfold parseAtUtc at read
    split at read
    · rename_i h m parts
      obtain ⟨hours, minutes, -⟩ := clockSeconds_iff.mp ⟨seconds, read⟩
      rw [parts] at joined
      exact ⟨h, m, hours, minutes, .inl (by simpa using joined.symm)⟩
    · rename_i h m s parts
      obtain ⟨hours, minutes, rest⟩ := clockSeconds_iff.mp ⟨seconds, read⟩
      rw [parts] at joined
      exact ⟨h, m, hours, minutes, .inr ⟨s, rest, by simpa using joined.symm⟩⟩
    · cases read
  · rintro ⟨h, m, hours, minutes, two | ⟨s, rest, three⟩⟩
    · have parts : atUtc.toList.splitOn ':' = [h, m] := by
        rw [two, List.splitOn_append_cons_self_of_not_mem hours.notMem,
          List.splitOn_eq_singleton minutes.notMem]
      simp only [parseAtUtc, parts]
      exact clockSeconds_iff.mpr ⟨hours, minutes, clockField_zero⟩
    · have parts : atUtc.toList.splitOn ':' = [h, m, s] := by
        rw [three, List.splitOn_append_cons_self_of_not_mem hours.notMem,
          List.splitOn_append_cons_self_of_not_mem minutes.notMem,
          List.splitOn_eq_singleton rest.notMem]
      simp only [parseAtUtc, parts]
      exact clockSeconds_iff.mpr ⟨hours, minutes, rest⟩

end MirrorV3.Config
