import Mathlib.Algebra.GroupWithZero.Nat
import Mathlib.Data.List.Basic
import Mathlib.Order.Basic

/-! Programs over an explicit state that return or fail, and rules for reasoning about both ends. -/

namespace Effect

variable {ε ε' σ τ α β : Type}

/-- A program updates one state and ends by returning a value or by failing with an error. -/
abbrev Program (ε σ α : Type) := EStateM ε σ α

/-- A named part of a larger state, read and replaced without touching the rest. -/
structure Part (τ σ : Type) where
  /-- The part as the whole holds it. -/
  get : τ → σ
  /-- The whole with the part replaced. -/
  set : σ → τ → τ

/-- Run a program on one part of the state, naming its errors in the terms of the whole. -/
def focus (part : Part τ σ) (wrap : ε → ε') (program : Program ε σ α) : Program ε' τ α :=
  fun whole =>
    match program (part.get whole) with
    | .ok value inner => .ok value (part.set inner whole)
    | .error error inner => .error (wrap error) (part.set inner whole)

/-- Run a program and hand on how it ended, whichever way that was. -/
def attempt (program : Program ε σ α) : Program ε' σ (Except ε α) := fun s =>
  match program s with
  | .ok value s' => .ok (.ok value) s'
  | .error error s' => .ok (.error error) s'

/-- Fail with `error` unless the condition holds. -/
def ensure (condition : Prop) [Decidable condition] (error : ε) : Program ε σ Unit :=
  if condition then pure () else throw error

/-- Run the program for whichever of two kinds of state is there. -/
def onEither (left : Program ε σ α) (right : Program ε τ α) : Program ε (σ ⊕ τ) α
  | .inl s =>
    match left s with
    | .ok a s => .ok a (.inl s)
    | .error e s => .error e (.inl s)
  | .inr t =>
    match right t with
    | .ok a t => .ok a (.inr t)
    | .error e t => .error e (.inr t)

/-- The state a program leaves behind, however it ends. -/
def after (program : Program ε σ α) (s : σ) : σ :=
  match program s with
  | .ok _ s' => s'
  | .error _ s' => s'

/-- The value a program returned, if it returned one. -/
def value? : EStateM.Result ε σ α → Option α
  | .ok a _ => some a
  | .error _ _ => none

/-- The error a program failed with, if it failed. -/
def failure? (program : Program ε σ α) (s : σ) : Option ε :=
  match program s with
  | .ok _ _ => none
  | .error e _ => some e

/-- A program whose value is known returned it in the state it left behind. -/
theorem eq_ok_of_value? {program : Program ε σ α} {s : σ} {a : α}
    (returned : value? (program s) = some a) : program s = .ok a (after program s) := by
  cases outcome : program s with
  | ok b s' =>
    rw [outcome] at returned
    cases returned
    simp only [after, outcome]
  | error e s' =>
    rw [outcome] at returned
    cases returned

/-- Started in `s`, a program satisfies `post` if it returns and `fail` if it fails. -/
def wp (program : Program ε σ α) (post : α → σ → Prop) (fail : ε → σ → Prop) (s : σ) : Prop :=
  match program s with
  | .ok value s' => post value s'
  | .error error s' => fail error s'

section Rules

variable {post : α → σ → Prop} {fail : ε → σ → Prop} {s : σ}

/-- A returned value meets the postcondition in the state it was returned in. -/
theorem wp_of_ok {program : Program ε σ α} {a : α} {s' : σ}
    (holds : wp program post fail s) (returned : program s = .ok a s') : post a s' := by
  simpa only [wp, returned] using holds

/-- Of a program that is known to return, only what it returns matters. -/
theorem wp_eq_of_ok {program : Program ε σ α} {a : α} {s' : σ} (returned : program s = .ok a s') :
    wp program post fail s = post a s' := by
  simp only [wp, returned]

/-- A failure meets the failure condition in the state it left behind. -/
theorem wp_of_error {program : Program ε σ α} {e : ε} {s' : σ}
    (holds : wp program post fail s) (failed : program s = .error e s') : fail e s' := by
  simpa only [wp, failed] using holds

/-- What holds however a program ends holds of the state it leaves behind. -/
theorem after_of_wp {program : Program ε σ α} (holds : σ → Prop)
    (ends : wp program (fun _ => holds) (fun _ => holds) s) : holds (after program s) := by
  cases outcome : program s with
  | ok a s' => simpa only [after, outcome] using wp_of_ok ends outcome
  | error e s' => simpa only [after, outcome] using wp_of_error ends outcome

/-- A program that can only return one value returns it. -/
theorem value?_of_wp {program : Program ε σ α} {a : α}
    (ends : wp program (fun b _ => b = a) (fun _ _ => False) s) :
    value? (program s) = some a := by
  cases outcome : program s with
  | ok b s' =>
    have same := wp_of_ok ends outcome
    rw [value?, same]
  | error e s' =>
    have never := wp_of_error ends outcome
    exact never.elim

/-- What a program fails with, if it fails, is what every way it can end says. -/
theorem failure?_of_wp {program : Program ε σ α} {failed : Option ε}
    (ends : wp program (fun _ _ => failed = none) (fun e _ => failed = some e) s) :
    failure? program s = failed := by
  cases outcome : program s with
  | ok a s' =>
    have never := wp_of_ok ends outcome
    rw [failure?, outcome, never]
  | error e s' =>
    have same := wp_of_error ends outcome
    rw [failure?, outcome, same]

/-- Both conditions may be weakened. -/
theorem wp_mono {program : Program ε σ α} {post' : α → σ → Prop} {fail' : ε → σ → Prop}
    (holds : wp program post fail s) (returns : ∀ a s', post a s' → post' a s')
    (fails : ∀ e s', fail e s' → fail' e s') : wp program post' fail' s := by
  cases outcome : program s with
  | ok a s' => simpa only [wp, outcome] using returns a s' (wp_of_ok holds outcome)
  | error e s' => simpa only [wp, outcome] using fails e s' (wp_of_error holds outcome)

/-- Conditions that always hold need nothing of the program. -/
theorem wp_any {program : Program ε σ α} (returns : ∀ a s', post a s')
    (fails : ∀ e s', fail e s') : wp program post fail s := by
  cases outcome : program s with
  | ok a s' => simpa only [wp, outcome] using returns a s'
  | error e s' => simpa only [wp, outcome] using fails e s'

/-- Both ends may be reasoned about knowing which one the program came to. -/
theorem wp_intro {program : Program ε σ α} (returns : ∀ a s', program s = .ok a s' → post a s')
    (fails : ∀ e s', program s = .error e s' → fail e s') : wp program post fail s := by
  cases outcome : program s with
  | ok a s' => simpa only [wp, outcome] using returns a s' outcome
  | error e s' => simpa only [wp, outcome] using fails e s' outcome

/-- What a program ensures for each of many, it ensures for all of them. -/
theorem wp_forall {ι : Sort*} {program : Program ε σ α} {post' : ι → α → σ → Prop}
    {fail' : ι → ε → σ → Prop} (each : ∀ i, wp program (post' i) (fail' i) s) :
    wp program (fun a s' => ∀ i, post' i a s') (fun e s' => ∀ i, fail' i e s') s := by
  -- The program ends in one way, whichever of them is asked about.
  refine wp_intro (fun a s' returned i => ?_) (fun e s' failed i => ?_)
  · exact wp_of_ok (each i) returned
  · exact wp_of_error (each i) failed

/-- Two facts proved about the same run hold together. -/
theorem wp_and {program : Program ε σ α} {post' : α → σ → Prop} {fail' : ε → σ → Prop}
    (left : wp program post fail s) (right : wp program post' fail' s) :
    wp program (fun a s' => post a s' ∧ post' a s') (fun e s' => fail e s' ∧ fail' e s') s := by
  cases outcome : program s with
  | ok a s' => simpa only [wp, outcome] using ⟨wp_of_ok left outcome, wp_of_ok right outcome⟩
  | error e s' =>
    simpa only [wp, outcome] using ⟨wp_of_error left outcome, wp_of_error right outcome⟩

/-- Returning changes nothing. -/
@[simp] theorem wp_pure (a : α) : wp (pure a : Program ε σ α) post fail s = post a s := rfl

/-- Throwing fails in the state it was reached in. -/
@[simp] theorem wp_throw (e : ε) : wp (throw e : Program ε σ α) post fail s = fail e s := rfl

/-- A sequence hands each value to the rest of the program. -/
@[simp] theorem wp_bind (first : Program ε σ β) (rest : β → Program ε σ α) :
    wp (first >>= rest) post fail s
      = wp first (fun b s' => wp (rest b) post fail s') fail s := by
  -- Both sides run the first program once and differ only in when its result is inspected.
  simp only [wp, bind, EStateM.bind]
  cases first s with
  | ok b s' => rfl
  | error e s' => rfl

/-- Mapping a function over a program changes only the value it returns. -/
@[simp] theorem wp_map (f : β → α) (program : Program ε σ β) :
    wp (f <$> program) post fail s = wp program (fun b s' => post (f b) s') fail s := by
  simp only [wp, Functor.map, EStateM.map]
  cases program s with
  | ok b s' => rfl
  | error e s' => rfl

/-- Either branch is reasoned about under its own condition. -/
@[simp] theorem wp_ite (condition : Prop) [Decidable condition] (yes no : Program ε σ α) :
    wp (if condition then yes else no) post fail s
      = if condition then wp yes post fail s else wp no post fail s := by
  split <;> rfl

/-- A required condition either holds or is the failure. -/
@[simp] theorem wp_ensure (condition : Prop) [Decidable condition] (e : ε)
    {post : Unit → σ → Prop} :
    wp (ensure condition e) post fail s = if condition then post () s else fail e s := by
  simp only [ensure, wp_ite, wp_pure, wp_throw]

/-- A pure result returns its value or fails with its error. -/
@[simp] theorem wp_ofExcept (result : Except ε α) :
    wp (MonadExcept.ofExcept result : Program ε σ α) post fail s
      = match result with
        | .ok a => post a s
        | .error e => fail e s := by
  cases result <;> rfl

/-- A focused program leaves everything outside its part as it was. -/
@[simp] theorem wp_focus (part : Part τ σ) (wrap : ε → ε') (program : Program ε σ α)
    {post : α → τ → Prop} {fail : ε' → τ → Prop} {whole : τ} :
    wp (focus part wrap program) post fail whole
      = wp program (fun a inner => post a (part.set inner whole))
          (fun e inner => fail (wrap e) (part.set inner whole)) (part.get whole) := by
  simp only [wp, focus]
  cases program (part.get whole) with
  | ok a inner => rfl
  | error e inner => rfl

/-- An attempt never fails, and tells the two ends of the program apart. -/
@[simp] theorem wp_attempt (program : Program ε σ α) {post : Except ε α → σ → Prop}
    {fail : ε' → σ → Prop} :
    wp (attempt program : Program ε' σ _) post fail s
      = wp program (fun a s' => post (.ok a) s') (fun e s' => post (.error e) s') s := by
  simp only [wp, attempt]
  cases program s with
  | ok a s' => rfl
  | error e s' => rfl

/-- What follows a program that returned runs from where it returned. -/
theorem bind_of_ok {first : Program ε σ β} {rest : β → Program ε σ α} {b : β} {s' : σ}
    (returned : first s = .ok b s') : (first >>= rest) s = rest b s' := by
  simp only [bind, EStateM.bind, returned]

/-- Nothing follows a program that failed. -/
theorem bind_of_error {first : Program ε σ β} {rest : β → Program ε σ α} {e : ε} {s' : σ}
    (failed : first s = .error e s') : (first >>= rest) s = .error e s' := by
  simp only [bind, EStateM.bind, failed]

/-- A focused program fails when the program does, its error named in the terms of the whole. -/
theorem failure?_focus (part : Part τ σ) (wrap : ε → ε') (program : Program ε σ α) (whole : τ) :
    failure? (focus part wrap program) whole = (failure? program (part.get whole)).map wrap := by
  unfold failure? focus
  cases program (part.get whole) <;> rfl

/-- What cannot fail after a program leaves the program's failure as it is. -/
theorem failure?_bind (program : Program ε σ β) (rest : β → Program ε σ α)
    (never : ∀ b s', failure? (rest b) s' = none) :
    failure? (program >>= rest) s = failure? program s := by
  unfold failure? at never ⊢
  simp only [bind, EStateM.bind]
  cases program s with
  | ok b s' => exact never b s'
  | error e s' => rfl

/-- On the left kind of state the left program runs. -/
@[simp] theorem wp_onEither_inl (left : Program ε σ α) (right : Program ε τ α)
    {post : α → σ ⊕ τ → Prop} {fail : ε → σ ⊕ τ → Prop} {s : σ} :
    wp (onEither left right) post fail (.inl s)
      = wp left (fun a s => post a (.inl s)) (fun e s => fail e (.inl s)) s := by
  simp only [wp, onEither]
  cases left s with
  | ok a s' => rfl
  | error e s' => rfl

/-- On the right kind of state the right program runs. -/
@[simp] theorem wp_onEither_inr (left : Program ε σ α) (right : Program ε τ α)
    {post : α → σ ⊕ τ → Prop} {fail : ε → σ ⊕ τ → Prop} {t : τ} :
    wp (onEither left right) post fail (.inr t)
      = wp right (fun a t => post a (.inr t)) (fun e t => fail e (.inr t)) t := by
  simp only [wp, onEither]
  cases right t with
  | ok a t' => rfl
  | error e t' => rfl

end Rules

section State

variable {fail : ε → σ → Prop} {s : σ}

/-- Reading hands the state itself to the rest of the program. -/
@[simp] theorem wp_get {post : σ → σ → Prop} :
    wp (get : Program ε σ σ) post fail s = post s s := rfl

/-- Reading returns the state it is run in. -/
theorem get_apply : (get : Program ε σ σ) s = .ok s s := rfl

/-- Replacing the state ends in the new one. -/
@[simp] theorem wp_set {post : PUnit → σ → Prop} (s' : σ) :
    wp (set s' : Program ε σ PUnit) post fail s = post ⟨⟩ s' := rfl

/-- Updating the state ends in its image. -/
@[simp] theorem wp_modify {post : PUnit → σ → Prop} (f : σ → σ) :
    wp (modify f : Program ε σ PUnit) post fail s = post ⟨⟩ (f s) := rfl

end State

end Effect
