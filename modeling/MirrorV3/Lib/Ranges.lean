import Mathlib.Algebra.GroupWithZero.Nat
import Mathlib.Data.List.Basic

/-! Closed ranges of positions that follow one another without a gap. -/

namespace Ranges

/-- Ranges each of which goes on where the one before it ended, the first at `start`. -/
def Chained : Nat → List (Nat × Nat) → Prop
  | _, [] => True
  | start, (lo, hi) :: rest => lo = start ∧ lo ≤ hi ∧ Chained (hi + 1) rest

/-- A chain is followed range by range. -/
instance decidableChained : ∀ start ranges, Decidable (Chained start ranges)
  | _, [] => isTrue trivial
  | start, (lo, hi) :: rest =>
    have := decidableChained (hi + 1) rest
    inferInstanceAs (Decidable (lo = start ∧ lo ≤ hi ∧ Chained (hi + 1) rest))

/-- One past the last range, and `start` before the first. -/
def reached (start : Nat) (ranges : List (Nat × Nat)) : Nat :=
  (ranges.getLast?.map (·.2 + 1)).getD start

variable {start : Nat} {ranges more : List (Nat × Nat)} {range : Nat × Nat}

/-- Before the first range nothing is reached. -/
@[simp] theorem reached_nil : reached start [] = start := rfl

/-- The last range is reached. -/
@[simp] theorem reached_concat : reached start (ranges ++ [range]) = range.2 + 1 := by
  simp [reached]

/-- What follows the first range is reached from its end. -/
theorem reached_cons : reached start (range :: ranges) = reached (range.2 + 1) ranges := by
  cases ranges with
  | nil => rfl
  | cons next rest =>
    simp only [reached, List.getLast?_cons_cons]
    cases found : (next :: rest).getLast? with
    | none => simp at found
    | some last => rfl

/-- What follows several ranges is reached from their end. -/
theorem reached_append : reached start (ranges ++ more) = reached (reached start ranges) more := by
  induction ranges generalizing start with
  | nil => rfl
  | cons range ranges ih => rw [List.cons_append, reached_cons, ih, reached_cons]

/-- Chained ranges only go up. -/
theorem le_reached (chained : Chained start ranges) : start ≤ reached start ranges := by
  induction ranges generalizing start with
  | nil => exact Nat.le_refl start
  | cons range ranges ih =>
    obtain ⟨rfl, ordered, rest⟩ := chained
    have := ih rest
    rw [reached_cons]
    omega

/-- No range of a chain ends below its start. -/
theorem le_of_mem (chained : Chained start ranges) (mem : range ∈ ranges) : start ≤ range.2 := by
  induction ranges generalizing start with
  | nil => exact absurd mem List.not_mem_nil
  | cons first rest ih =>
    obtain ⟨rfl, ordered, chained⟩ := chained
    rcases List.mem_cons.mp mem with rfl | later
    · exact ordered
    · have := ih chained later
      omega

/-- No range of a chain starts below its start. -/
theorem chained_ge (chained : Chained start ranges) : ∀ range ∈ ranges, start ≤ range.1 := by
  induction ranges generalizing start with
  | nil => exact fun _ mem => absurd mem List.not_mem_nil
  | cons first rest ih =>
    obtain ⟨rfl, ordered, chained⟩ := chained
    intro range mem
    rcases List.mem_cons.mp mem with rfl | later
    · exact Nat.le_refl _
    · have := ih chained range later
      omega

/-- A chain is a chain up to any point of it and one from there. -/
theorem chained_append :
    Chained start (ranges ++ more) ↔ Chained start ranges ∧ Chained (reached start ranges) more := by
  induction ranges generalizing start with
  | nil => simp [Chained]
  | cons range ranges ih =>
    rw [List.cons_append, reached_cons]
    simp only [Chained, ih]
    tauto

/-- A chain goes on with the range that starts where it ended. -/
theorem chained_concat :
    Chained start (ranges ++ [range])
      ↔ Chained start ranges ∧ range.1 = reached start ranges ∧ range.1 ≤ range.2 := by
  simp [chained_append, Chained]

/-- Along a chain every range ends above those before it. -/
theorem Chained.increasing (chained : Chained start ranges) :
    (ranges.map (·.2)).Pairwise (· < ·) := by
  induction ranges generalizing start with
  | nil => exact .nil
  | cons range ranges ih =>
    obtain ⟨-, -, rest⟩ := chained
    refine List.pairwise_cons.mpr ⟨fun hi mem => ?_, ih rest⟩
    obtain ⟨later, listed, rfl⟩ := List.mem_map.mp mem
    exact le_of_mem rest listed

/-- Along a chain every range ends before those after it start. -/
theorem Chained.apart (chained : Chained start ranges) : ranges.Pairwise (·.2 < ·.1) := by
  induction ranges generalizing start with
  | nil => exact .nil
  | cons range ranges ih =>
    obtain ⟨-, -, rest⟩ := chained
    refine List.pairwise_cons.mpr ⟨fun later mem => ?_, ih rest⟩
    exact (chained_ge rest later mem : range.2 + 1 ≤ later.1)

/-- A first part of a chain is a chain. -/
theorem Chained.firstPart (chained : Chained start more) (first : ranges <+: more) :
    Chained start ranges := by
  obtain ⟨rest, rfl⟩ := first
  exact (chained_append.mp chained).1

/-- No range of a chain ends at the end of the chain or above. -/
theorem lt_reached (chained : Chained start ranges) (mem : range ∈ ranges) :
    range.2 < reached start ranges := by
  induction ranges generalizing start with
  | nil => exact absurd mem List.not_mem_nil
  | cons first rest ih =>
    obtain ⟨rfl, ordered, chained⟩ := chained
    rw [reached_cons]
    rcases List.mem_cons.mp mem with rfl | later
    · exact Nat.lt_of_succ_le (le_reached chained)
    · exact ih chained later

/-- Ranges that hold every position from `start` up to `bound` exactly once, and no other. -/
structure Tiling (start bound : Nat) (ranges : List (Nat × Nat)) : Prop where
  ordered : start ≤ bound
  inside : ∀ range ∈ ranges, start ≤ range.1 ∧ range.1 ≤ range.2 ∧ range.2 < bound
  once : ∀ position, start ≤ position → position < bound →
    ranges.countP (fun range => range.1 ≤ position ∧ position ≤ range.2) = 1

/-- In any order the ranges of a tiling are one. -/
theorem Tiling.perm {bound : Nat} (tiling : Tiling start bound ranges)
    (shuffled : more.Perm ranges) : Tiling start bound more where
  ordered := tiling.ordered
  inside range mem := tiling.inside range (shuffled.mem_iff.mp mem)
  once position above below := by
    rw [shuffled.countP_eq]
    exact tiling.once position above below

/-- A chain is a tiling of what it reaches. -/
theorem Chained.tiling (chained : Chained start ranges) :
    Tiling start (reached start ranges) ranges := by
  -- By induction on the ranges, of which the rest starts right after the first.
  induction ranges generalizing start with
  | nil =>
    refine ⟨Nat.le_refl _, fun range mem => absurd mem List.not_mem_nil, fun position above below => ?_⟩
    rw [reached_nil] at below
    omega
  | cons first rest ih =>
    have whole := le_reached chained
    have ends : first.2 < reached start (first :: rest) := lt_reached chained List.mem_cons_self
    obtain ⟨rfl, ordered, chained⟩ := chained
    have later := ih chained
    rw [reached_cons] at whole ends ⊢
    refine ⟨whole, fun range mem => ?_, fun position above below => ?_⟩
    · rcases List.mem_cons.mp mem with rfl | mem'
      · exact ⟨Nat.le_refl _, ordered, ends⟩
      · have := later.inside range mem'
        omega
    · rw [List.countP_cons]
      rcases Nat.lt_or_ge first.2 position with beyond | within
      · -- Past the first range, the rest holds the position once.
        rw [later.once position beyond below, if_neg (by simp; omega)]
      · -- In the first range, no later one reaches down to the position.
        have none_ : rest.countP (fun range => range.1 ≤ position ∧ position ≤ range.2) = 0 := by
          rw [List.countP_eq_zero]
          intro range mem
          have := later.inside range mem
          simp only [decide_eq_true_eq]
          omega
        rw [none_, if_pos (by simp; omega)]

/-- Ranges in order that tile an interval are a chain over it. -/
theorem Tiling.chained {bound : Nat} (tiling : Tiling start bound ranges)
    (sorted : ranges.Pairwise (·.1 ≤ ·.1)) :
    Chained start ranges ∧ reached start ranges = bound := by
  induction ranges generalizing start with
  | nil =>
    -- A position in the interval would be held by no range.
    have ordered := tiling.ordered
    refine ⟨trivial, ?_⟩
    rcases Nat.lt_or_eq_of_le ordered with some_ | same
    · have once := tiling.once start (Nat.le_refl _) some_
      cases once
    · exact same
  | cons first rest ih =>
    obtain ⟨ahead, sorted⟩ := List.pairwise_cons.mp sorted
    obtain ⟨above, ordered, within⟩ := tiling.inside first List.mem_cons_self
    -- The range that holds the start is not below it, so the first range starts there.
    have starts : first.1 = start := by
      have once := tiling.once start (Nat.le_refl _) (by omega)
      have some_ : 0 < (first :: rest).countP
          (fun range => range.1 ≤ start ∧ start ≤ range.2) := by omega
      obtain ⟨range, mem, holds⟩ := List.countP_pos_iff.mp some_
      simp only [decide_eq_true_eq] at holds
      rcases List.mem_cons.mp mem with rfl | mem
      · omega
      · have := ahead range mem
        omega
    have rest_ : Tiling (first.2 + 1) bound rest := by
      refine ⟨within, fun range mem => ?_, fun position beyond below => ?_⟩
      · obtain ⟨above', ordered', within'⟩ := tiling.inside range (List.mem_cons_of_mem _ mem)
        refine ⟨?_, ordered', within'⟩
        -- A later range that starts in the first would hold its start a second time.
        by_contra overlap
        have once := tiling.once range.1 above' (by omega)
        have second : 0 < rest.countP (fun other => other.1 ≤ range.1 ∧ range.1 ≤ other.2) :=
          List.countP_pos_iff.mpr ⟨range, mem, by simp only [decide_eq_true_eq]; omega⟩
        have down := ahead range mem
        rw [List.countP_cons, if_pos (by simp only [decide_eq_true_eq]; omega)] at once
        omega
      · have once := tiling.once position (by omega) below
        rwa [List.countP_cons, if_neg (by simp only [decide_eq_true_eq]; omega), Nat.add_zero]
          at once
    obtain ⟨chained, ends⟩ := ih rest_ sorted
    refine ⟨⟨starts, ordered, chained⟩, ?_⟩
    rw [reached_cons]
    exact ends

section Missing

/-- The first position from `start` up to `bound` that is missing, if any is. -/
def FirstMissing (present : Nat → Prop) (start bound : Nat) : Option Nat → Prop
  | none => ∀ position, start ≤ position → position < bound → present position
  | some hole => start ≤ hole ∧ hole < bound ∧ ¬ present hole
    ∧ ∀ position, start ≤ position → position < hole → present position

variable {present other : Nat → Prop} {mid bound : Nat} {hole later : Option Nat}

/-- Of two stretches that adjoin, the first hole is in the first if that has one. -/
theorem FirstMissing.append (first : FirstMissing present start mid hole)
    (second : FirstMissing present mid bound later) (low : start ≤ mid) (high : mid ≤ bound) :
    FirstMissing present start bound (hole.or later) := by
  cases hole with
  | some hole =>
    obtain ⟨above, below, absent, before⟩ := first
    exact ⟨above, by omega, absent, before⟩
  | none =>
    cases later with
    | none =>
      intro position above below
      by_cases early : position < mid
      · exact first position above early
      · exact second position (by omega) below
    | some hole =>
      obtain ⟨above, below, absent, before⟩ := second
      refine ⟨by omega, below, absent, fun position above' below' => ?_⟩
      by_cases early : position < mid
      · exact first position above' early
      · exact before position (by omega) below'

/-- Only the positions of the stretch matter. -/
theorem FirstMissing.congr (first : FirstMissing present start bound hole)
    (same : ∀ position, start ≤ position → position < bound → (present position ↔ other position)) :
    FirstMissing other start bound hole := by
  cases hole with
  | none => exact fun position above below => (same position above below).mp (first position above below)
  | some hole =>
    obtain ⟨above, below, absent, before⟩ := first
    refine ⟨above, below, fun there => absent ((same hole above below).mpr there), ?_⟩
    intro position above' below'
    exact (same position above' (by omega)).mp (before position above' below')

/-- There is no first hole exactly when nothing is missing. -/
theorem FirstMissing.eq_none_iff (first : FirstMissing present start bound hole) :
    hole = none ↔ ∀ position, start ≤ position → position < bound → present position := by
  cases hole with
  | none => exact ⟨fun _ => first, fun _ => rfl⟩
  | some hole =>
    obtain ⟨above, below, absent, -⟩ := first
    constructor
    · intro no_hole
      cases no_hole
    · intro all
      exact absurd (all hole above below) absent

end Missing

end Ranges
