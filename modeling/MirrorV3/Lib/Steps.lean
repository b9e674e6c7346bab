import Mathlib.Algebra.GroupWithZero.Nat
import Mathlib.Data.List.Basic

/-! A system that takes one step after another, as events come that it can take. -/

namespace Steps

variable {σ ε : Type} {step : σ → ε → Option σ}

/-- The state after a list of events, if each of them could be taken. -/
def run (step : σ → ε → Option σ) : σ → List ε → Option σ
  | s, [] => some s
  | s, event :: events => (step s event).bind fun s' => run step s' events

/-- One more event is taken in the state that the ones before lead to. -/
theorem run_cons_eq_some {s s' : σ} {event : ε} {events : List ε} :
    run step s (event :: events) = some s'
      ↔ ∃ between, step s event = some between ∧ run step between events = some s' := by
  rw [run, Option.bind_eq_some_iff]

/-- What every step keeps holds after every run. -/
theorem run_rule (holds : σ → Prop)
    (keeps : ∀ s event s', step s event = some s' → holds s → holds s') {s s' : σ}
    {events : List ε} (ran : run step s events = some s') (start : holds s) : holds s' := by
  induction events generalizing s with
  | nil =>
    obtain rfl := Option.some.inj ran
    exact start
  | cons event events ih =>
    obtain ⟨between, taken, rest⟩ := run_cons_eq_some.mp ran
    exact ih rest (keeps s event between taken start)

/-- A run of steps that each leave less to do is no longer than what there was to do at its start. -/
theorem length_le_of_decreases (kind : σ → Prop) (work : σ → Nat)
    (keeps : ∀ s event s', step s event = some s' → kind s → kind s')
    (less : ∀ s event s', step s event = some s' → kind s → work s' < work s) {s s' : σ}
    {events : List ε} (ran : run step s events = some s') (start : kind s) :
    events.length + work s' ≤ work s := by
  induction events generalizing s with
  | nil =>
    obtain rfl := Option.some.inj ran
    exact Nat.le_of_eq (Nat.zero_add _)
  | cons event events ih =>
    obtain ⟨between, taken, rest⟩ := run_cons_eq_some.mp ran
    have decreased := less s event between taken start
    have short := ih rest (keeps s event between taken start)
    rw [List.length_cons]
    omega

/-- Replacing a part by one with less to do leaves less to do. -/
theorem sum_map_set_lt {α : Type} {work : α → Nat} {parts : List α} {i : Nat} {part part' : α}
    (here : parts[i]? = some part) (less : work part' < work part) :
    ((parts.set i part').map work).sum < (parts.map work).sum := by
  -- The part is the first one, or one of the rest.
  induction parts generalizing i with
  | nil => simp at here
  | cons first parts ih =>
    cases i with
    | zero =>
      obtain rfl : first = part := by simpa using here
      simp only [List.set_cons_zero, List.map_cons, List.sum_cons]
      omega
    | succ i =>
      have rest := ih (by simpa using here : parts[i]? = some part)
      simp only [List.set_cons_succ, List.map_cons, List.sum_cons]
      omega

/-- Every state a run comes through, its last one included, is one that `holds`. -/
def Throughout (step : σ → ε → Option σ) (holds : σ → Prop) (s : σ) (events : List ε) : Prop :=
  ∀ before s', before <+: events → run step s before = some s' → holds s'

/-- What every step between states of a kind keeps holds after every run through such states. -/
theorem run_rule_throughout (kind holds : σ → Prop)
    (keeps : ∀ s event s', step s event = some s' → kind s → kind s' → holds s → holds s')
    {s s' : σ} {events : List ε} (ran : run step s events = some s')
    (through : Throughout step kind s events) (start : holds s) : holds s' := by
  induction events generalizing s with
  | nil =>
    obtain rfl := Option.some.inj ran
    exact start
  | cons event events ih =>
    obtain ⟨between, taken, rest⟩ := run_cons_eq_some.mp ran
    have here : kind s := through [] s List.nil_prefix rfl
    have next : kind between :=
      through [event] between ⟨events, rfl⟩ (run_cons_eq_some.mpr ⟨between, taken, rfl⟩)
    -- The rest of the run goes through states that the whole run goes through.
    have later : Throughout step kind between events := by
      intro before last shorter reached
      exact through (event :: before) last ((List.cons_prefix_cons).mpr ⟨rfl, shorter⟩)
        (run_cons_eq_some.mpr ⟨between, taken, reached⟩)
    exact ih rest later (keeps s event between taken here next start)

end Steps
