import MirrorV3.Lib.Effect

/-! Rounds that are repeated with a pause in between, as long as they ask for it and a budget lasts. -/

namespace Effect

variable {ε σ τ ρ ρ' α : Type}

/-- Something that is tried in rounds. -/
structure Retry (ε σ ρ α : Type) where
  /-- The round of an attempt. -/
  round : Nat → Program ε σ ρ
  /-- Whether a round asks for another one. -/
  again : ρ → Bool
  /-- What is done between an attempt and the next one. -/
  pause : Nat → Program ε σ Unit
  /-- What the last round, which was made at an attempt, comes to. -/
  finish : Nat → ρ → Program ε σ α

namespace Retry

/-- Try from an attempt on, up to the attempt that is the budget. -/
def run (r : Retry ε σ ρ α) (budget attempt : Nat) : Program ε σ α := do
  let outcome ← r.round attempt
  if _more : r.again outcome = true ∧ attempt < budget then do
    r.pause attempt
    r.run budget (attempt + 1)
  else r.finish attempt outcome
termination_by budget - attempt

/-- So many rounds after a first one, from an attempt on, with the pauses between them. -/
def rounds (r : Retry ε σ ρ α) : Nat → Nat → Program ε σ (List ρ)
  | 0, attempt => do
    let outcome ← r.round attempt
    pure [outcome]
  | more + 1, attempt => do
    let outcome ← r.round attempt
    r.pause attempt
    let later ← r.rounds more (attempt + 1)
    pure (outcome :: later)

/-- Rounds and pauses that cannot fail. -/
structure Total (r : Retry ε σ ρ α) : Prop where
  round : ∀ attempt s, ∃ outcome s', r.round attempt s = .ok outcome s'
  pause : ∀ attempt s, ∃ s', r.pause attempt s = .ok () s'

variable {r : Retry ε σ ρ α} {budget : Nat}

/-- A round that asks for another one within the budget is followed by the rest of the run. -/
theorem run_again {attempt : Nat} {s s' s'' : σ} {outcome : ρ}
    (made : r.round attempt s = .ok outcome s')
    (more : r.again outcome = true ∧ attempt < budget) (paused : r.pause attempt s' = .ok () s'') :
    r.run budget attempt s = r.run budget (attempt + 1) s'' := by
  rw [run, bind_of_ok made, dif_pos more, bind_of_ok paused]

/-- A round that asks for no other, or has none left, is the last. -/
theorem run_last {attempt : Nat} {s s' : σ} {outcome : ρ}
    (made : r.round attempt s = .ok outcome s')
    (last : ¬ (r.again outcome = true ∧ attempt < budget)) :
    r.run budget attempt s = r.finish attempt outcome s' := by
  rw [run, bind_of_ok made, dif_neg last]

/--
A run is the rounds it makes and what the last of them comes to.

Every round but the last asked for another one; the last did not, or it was the one of the budget.
-/
theorem run_spec (total : r.Total) (attempt : Nat) (within : attempt ≤ budget) (s : σ) :
    ∃ before last s', r.rounds before.length attempt s = .ok (before ++ [last]) s'
      ∧ attempt + before.length ≤ budget
      ∧ (∀ outcome ∈ before, r.again outcome = true)
      ∧ (r.again last = true → attempt + before.length = budget)
      ∧ r.run budget attempt s = r.finish (attempt + before.length) last s' := by
  -- The induction is on what is left of the budget.
  induction left : budget - attempt generalizing attempt s with
  | zero =>
    obtain ⟨last, s', made⟩ := total.round attempt s
    have spent : ¬ (r.again last = true ∧ attempt < budget) := by omega
    refine ⟨[], last, s', ?_, within, by simp, fun _ => by simp; omega, ?_⟩
    · rw [List.length_nil, rounds, bind_of_ok made]
      rfl
    · exact run_last made spent
  | succ left ih =>
    obtain ⟨outcome, s₁, made⟩ := total.round attempt s
    by_cases more : r.again outcome = true ∧ attempt < budget
    · -- After the pause the rest of the run is one of a smaller budget.
      obtain ⟨s₂, paused⟩ := total.pause attempt s₁
      obtain ⟨before, last, s', later, most, asked, ended, ran⟩ :=
        ih (attempt + 1) more.2 s₂ (by omega)
      have count : attempt + (outcome :: before).length = attempt + 1 + before.length := by
        rw [List.length_cons]
        omega
      refine ⟨outcome :: before, last, s', ?_, by omega, ?_, fun again => ?_, ?_⟩
      · rw [List.length_cons, rounds, bind_of_ok made, bind_of_ok paused, bind_of_ok later]
        rfl
      · intro other mem
        rcases List.mem_cons.mp mem with rfl | mem
        · exact more.1
        · exact asked other mem
      · rw [count]
        exact ended again
      · rw [run_again made more paused, ran, count]
    · refine ⟨[], outcome, s₁, ?_, within, by simp, fun again => ?_, ?_⟩
      · rw [List.length_nil, rounds, bind_of_ok made]
        rfl
      · exact absurd ⟨again, by omega⟩ more
      · exact run_last made more

/-- Two ends that are the same, of states that go together. -/
def Agree (ended : σ → τ → Prop) : EStateM.Result ε σ α → EStateM.Result ε τ α → Prop
  | .ok a s, .ok b u => a = b ∧ ended s u
  | .error e s, .error f u => e = f ∧ ended s u
  | _, _ => False

/-- Two retries whose rounds go alike from states that go together. -/
def Alike (together ended : σ → τ → Prop) (r : Retry ε σ ρ α) (t : Retry ε τ ρ' α) : Prop :=
  ∀ attempt s u, together s u → ∃ outcome s' outcome' u',
    r.round attempt s = .ok outcome s' ∧ t.round attempt u = .ok outcome' u'
      ∧ r.again outcome = t.again outcome'
      ∧ (r.again outcome = true → ∃ s'' u'', r.pause attempt s' = .ok () s''
        ∧ t.pause attempt u' = .ok () u'' ∧ together s'' u'')
      ∧ Agree ended (r.finish attempt outcome s') (t.finish attempt outcome' u')

/-- Retries whose rounds go alike end alike. -/
theorem Alike.run {t : Retry ε τ ρ' α} {together ended : σ → τ → Prop}
    (alike : Alike together ended r t) (attempt : Nat) {s : σ} {u : τ} (start : together s u) :
    Agree ended (r.run budget attempt s) (t.run budget attempt u) := by
  induction left : budget - attempt generalizing attempt s u with
  | zero =>
    obtain ⟨outcome, s', outcome', u', made, made', -, -, finished⟩ := alike attempt s u start
    rw [run_last made (by omega), run_last made' (by omega)]
    exact finished
  | succ left ih =>
    obtain ⟨outcome, s', outcome', u', made, made', asked, goes, finished⟩ := alike attempt s u start
    by_cases more : r.again outcome = true ∧ attempt < budget
    · obtain ⟨s'', u'', paused, paused', next⟩ := goes more.1
      rw [run_again made more paused, run_again made' (asked ▸ more) paused']
      exact ih (attempt + 1) next (by omega)
    · rw [run_last made more, run_last made' (asked ▸ more)]
      exact finished

end Retry

end Effect
