import MirrorV3.Lib.Effect

/-! Programs that keep notes beside another program's state, which reading that state alone erases. -/

namespace Effect

variable {ε σ τ α β : Type}

/-- How a program ended, with only the part of its state that `read` shows. -/
def shown (read : τ → σ) : EStateM.Result ε τ α → EStateM.Result ε σ α
  | .ok a t => .ok a (read t)
  | .error e t => .error e (read t)

/-- With the notes erased, the noting program is the program. -/
def Erases (read : τ → σ) (noting : Program ε τ α) (program : Program ε σ α) : Prop :=
  ∀ t, shown read (noting t) = program (read t)

namespace Erases

variable {read : τ → σ} {noting : Program ε τ α} {program : Program ε σ α}

/-- Returning takes no notes. -/
theorem pure (a : α) : Erases (ε := ε) read (Pure.pure a) (Pure.pure a) := by
  -- Neither program looks at its state.
  intro t
  rfl

/-- A result is handed on, or fails, without notes. -/
theorem ofExcept (result : Except ε α) :
    Erases read (MonadExcept.ofExcept result : Program ε τ α)
      (MonadExcept.ofExcept result : Program ε σ α) := by
  -- The two programs end as the result says.
  intro t
  cases result <;> rfl

/-- A required condition is checked without notes. -/
theorem ensure (condition : Prop) [Decidable condition] (e : ε) :
    Erases read (Effect.ensure condition e) (Effect.ensure condition e) := by
  -- Both programs take the branch that the condition picks.
  intro t
  by_cases holds : condition
  · rw [Effect.ensure, Effect.ensure, if_pos holds, if_pos holds]
    rfl
  · rw [Effect.ensure, Effect.ensure, if_neg holds, if_neg holds]
    rfl

/-- Notes are erased from a sequence by erasing them from its parts. -/
theorem bind {first : Program ε τ β} {first' : Program ε σ β} {rest : β → Program ε τ α}
    {rest' : β → Program ε σ α} (head : Erases read first first')
    (tail : ∀ b, Erases read (rest b) (rest' b)) :
    Erases read (first >>= rest) (first' >>= rest') := by
  -- The first parts end alike, so either both fail or the rests run from the same state.
  intro t
  have same := head t
  cases outcome : first t with
  | ok b t' =>
    rw [outcome] at same
    rw [bind_of_ok outcome, bind_of_ok same.symm]
    exact tail b t'
  | error e t' =>
    rw [outcome] at same
    rw [bind_of_error outcome, bind_of_error same.symm]
    rfl

/-- A reading of the state sees what is left of it once the notes are erased. -/
theorem get_bind {rest : τ → Program ε τ α} {rest' : σ → Program ε σ α}
    (tail : ∀ t, Erases read (rest t) (rest' (read t))) :
    Erases read (get >>= rest) (get >>= rest') := by
  -- A reading returns the state it is made in.
  intro t
  exact tail t t

/-- An update may touch the notes as it pleases. -/
theorem update {f : τ → τ} {f' : σ → σ} (same : ∀ t, read (f t) = f' (read t)) :
    Erases (ε := ε) read (modify f) (modify f') := by
  -- Of the updated state only the shown part is left.
  intro t
  exact congrArg (EStateM.Result.ok PUnit.unit) (same t)

/-- A choice is erased branch by branch. -/
theorem ite {condition : Prop} [Decidable condition] {no : Program ε τ α} {no' : Program ε σ α}
    (yes : Erases read noting program) (otherwise : Erases read no no') :
    Erases read (if condition then noting else no) (if condition then program else no') := by
  -- Both sides take the same branch.
  by_cases holds : condition
  · rw [if_pos holds, if_pos holds]
    exact yes
  · rw [if_neg holds, if_neg holds]
    exact otherwise

/-- A step that is only made under a condition is erased where it is made. -/
theorem guarded {condition : Prop} [Decidable condition] {step : Program ε τ Unit}
    {step' : Program ε σ Unit} {rest : Unit → Program ε τ α} {rest' : Unit → Program ε σ α}
    (made : Erases read step step') (tail : ∀ u, Erases read (rest u) (rest' u)) :
    Erases read (if condition then step >>= rest else rest ())
      (if condition then step' >>= rest' else rest' ()) := by
  -- Either way the same rest follows.
  exact .ite (.bind made tail) (tail ())

/-- A program that runs on the shown part takes no notes. -/
theorem focus (part : Part τ σ) (stored : ∀ s t, part.get (part.set s t) = s)
    (program : Program ε σ α) : Erases part.get (Effect.focus part id program) program := by
  -- The part is put back as the program left it.
  intro t
  rw [Effect.focus]
  cases program (part.get t) with
  | ok a s => exact congrArg (EStateM.Result.ok a) (stored s t)
  | error e s => exact congrArg (EStateM.Result.error e) (stored s t)

/-- What a noting program leaves behind shows what the program does. -/
theorem read_after (erases : Erases read noting program) (t : τ) :
    read (after noting t) = after program (read t) := by
  -- Both ends leave a state behind.
  rw [after, after, ← erases t]
  cases noting t <;> rfl

end Erases

end Effect
