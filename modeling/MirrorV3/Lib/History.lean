import Mathlib.Algebra.GroupWithZero.Nat
import Mathlib.Data.List.Basic

/-! What survives of a log that one writer after another extends and may be stopped extending. -/

namespace History

variable {σ α : Type}

/--
What a state looks like after lifetimes that each run on what the one before left.

A lifetime may be cut short at any point, and then only what it had added by then is there.
-/
inductive Reached (shows : σ → List α) (fresh : σ → Prop) (runs : σ → σ → Prop) : σ → Prop where
  | fresh {s : σ} (start : fresh s) : Reached shows fresh runs s
  | lifetime {s last s' : σ} (earlier : Reached shows fresh runs s) (run : runs s last)
      (kept : shows s <+: shows s') (cut : shows s' <+: shows last) : Reached shows fresh runs s'

variable {shows : σ → List α} {fresh : σ → Prop} {runs : σ → σ → Prop}

/-- What every whole lifetime preserves and every cut preserves holds after every history. -/
theorem Reached.rule (holds : List α → Prop) (starts : ∀ s, fresh s → holds (shows s))
    (run : ∀ s last, holds (shows s) → runs s last → holds (shows last))
    (cut : ∀ shown whole, shown <+: whole → holds whole → holds shown) {s : σ}
    (reached : Reached shows fresh runs s) : holds (shows s) := by
  induction reached with
  | fresh start => exact starts _ start
  | lifetime earlier ran kept short ih =>
    -- The lifetime ran on what the earlier ones left, and a part of what it added is there.
    exact cut _ _ short (run _ _ ih ran)

end History
