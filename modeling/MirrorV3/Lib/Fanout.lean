import Mathlib.Data.List.Forall2
import MirrorV3.Lib.Effect

/-! One program run on every element of a list, and what relates the list before and after. -/

namespace Effect

variable {ε σ α : Type}

/-- Run one program on every element in order, collect the values, and stop at the first failure. -/
def forEach (program : Program ε σ α) : Program ε (List σ) (List α)
  | [] => .ok [] []
  | first :: rest =>
    match program first with
    | .error error first => .error error (first :: rest)
    | .ok value first =>
      match forEach program rest with
      | .ok values rest => .ok (value :: values) (first :: rest)
      | .error error rest => .error error (first :: rest)

/-- Run one program on every element whatever the others do, and report the first failure. -/
def forAll (program : Program ε σ Unit) : Program ε (List σ) Unit
  | [] => .ok () []
  | first :: rest =>
    match program first, forAll program rest with
    | .ok _ first, .ok _ rest => .ok () (first :: rest)
    | .ok _ first, .error error rest => .error error (first :: rest)
    | .error error first, .ok _ rest => .error error (first :: rest)
    | .error error first, .error _ rest => .error error (first :: rest)

/-- Of the elements run in order, the first to fail is the failure of them all. -/
theorem failure?_forEach (program : Program ε σ α) (items : List σ) :
    failure? (forEach program) items = items.findSome? (failure? program) := by
  induction items with
  | nil => rfl
  | cons first rest ih =>
    unfold failure? at ih ⊢
    rw [List.findSome?_cons, forEach]
    cases program first with
    | error e first' => rfl
    | ok value first' =>
      -- The first element ran, so the failure is that of the rest.
      simp only [← ih]
      cases forEach program rest <;> rfl

/-- Of the elements run side by side, the first to fail in their order is what is reported. -/
theorem failure?_forAll (program : Program ε σ Unit) (items : List σ) :
    failure? (forAll program) items = (items.filterMap (failure? program)).head? := by
  induction items with
  | nil => rfl
  | cons first rest ih =>
    rw [List.filterMap_cons]
    unfold failure? at ih ⊢
    rw [forAll]
    -- Whatever the rest does, a failure of the first element comes before it.
    cases program first with
    | error e first' => cases forAll program rest <;> rfl
    | ok value first' =>
      simp only [← ih]
      cases forAll program rest <;> rfl

variable {items items' : List σ}

/-- What every step establishes holds of every element after it. -/
theorem forall_mem_of_forall₂ {related : σ → σ → Prop} {holds : σ → Prop}
    (steps : List.Forall₂ related items items') (each : ∀ s s', related s s' → holds s') :
    ∀ s' ∈ items', holds s' := by
  induction steps with
  | nil => exact fun _ mem => absurd mem List.not_mem_nil
  | cons step _ ih =>
    intro s' mem
    rcases List.mem_cons.mp mem with rfl | later
    · exact each _ _ step
    · exact ih s' later

/-- Every element after the steps comes from one before them. -/
theorem exists_of_forall₂ {τ : Type} {items : List τ} {related : τ → σ → Prop}
    (steps : List.Forall₂ related items items') {s' : σ} (mem : s' ∈ items') :
    ∃ s ∈ items, related s s' := by
  induction steps with
  | nil => exact absurd mem List.not_mem_nil
  | cons step _ ih =>
    rcases List.mem_cons.mp mem with rfl | later
    · exact ⟨_, List.mem_cons_self, step⟩
    · obtain ⟨s, mem, related⟩ := ih later
      exact ⟨s, List.mem_cons_of_mem _ mem, related⟩

/-- Steps that say more about the elements of this list are those steps. -/
theorem forall₂_of_mem {related stronger : σ → σ → Prop}
    (steps : List.Forall₂ related items items')
    (each : ∀ s s', s ∈ items → related s s' → stronger s s') :
    List.Forall₂ stronger items items' := by
  induction steps with
  | nil => exact .nil
  | cons step _ ih =>
    exact .cons (each _ _ List.mem_cons_self step)
      (ih fun s s' mem => each s s' (List.mem_cons_of_mem _ mem))

/-- Every element before the steps becomes one after them. -/
theorem exists_after_of_forall₂ {τ : Type} {related : σ → τ → Prop} {items' : List τ}
    (steps : List.Forall₂ related items items') {s : σ} (mem : s ∈ items) :
    ∃ s' ∈ items', related s s' := by
  induction steps with
  | nil => exact absurd mem List.not_mem_nil
  | cons step _ ih =>
    rcases List.mem_cons.mp mem with rfl | later
    · exact ⟨_, List.mem_cons_self, step⟩
    · obtain ⟨s', mem, related⟩ := ih later
      exact ⟨s', List.mem_cons_of_mem _ mem, related⟩

/-- The element at an index becomes the one at that index. -/
theorem getElem?_of_forall₂ {related : σ → σ → Prop} (steps : List.Forall₂ related items items')
    {i : Nat} {s : σ} (here : items[i]? = some s) : ∃ s', items'[i]? = some s' ∧ related s s' := by
  induction steps generalizing i with
  | nil => simp at here
  | cons step _ ih =>
    cases i with
    | zero =>
      obtain rfl : _ = s := by simpa using here
      exact ⟨_, rfl, step⟩
    | succ i =>
      simpa using ih (by simpa using here)

/-- Two steps of every element one after the other are one step of it. -/
theorem forall₂_trans {first second both : σ → σ → Prop} {items'' : List σ}
    (one : List.Forall₂ first items items') (other : List.Forall₂ second items' items'')
    (compose : ∀ s s' s'', first s s' → second s' s'' → both s s'') :
    List.Forall₂ both items items'' := by
  induction one generalizing items'' with
  | nil =>
    cases other
    exact .nil
  | cons step _ ih =>
    cases other with
    | cons step' rest' => exact .cons (compose _ _ _ step step') (ih rest')

/-- What every step leaves as it was reads the same all along the list. -/
theorem map_eq_of_forall₂ {related : σ → σ → Prop} {β : Type} {read : σ → β}
    (steps : List.Forall₂ related items items') (kept : ∀ s s', related s s' → read s' = read s) :
    items'.map read = items.map read := by
  induction steps with
  | nil => rfl
  | cons step _ ih => rw [List.map_cons, List.map_cons, kept _ _ step, ih]

/-- Values that are each read from their element are those read all along the list. -/
theorem eq_map_of_forall₂ {read : σ → α} {values : List α}
    (told : List.Forall₂ (fun s value => value = read s) items values) :
    values = items.map read := by
  induction told with
  | nil => rfl
  | cons here _ ih => rw [List.map_cons, here, ← ih]

/--
Elements run in order are each related to what they were.

When one fails, it and those before it have run, and those after it are as they were.
-/
theorem wp_forEach {program : Program ε σ α} {ran failed : σ → σ → Prop} (returned : σ → α → Prop)
    (fail : ε → Prop) (same : ∀ s ∈ items, failed s s) (ranFailed : ∀ s s', ran s s' → failed s s')
    (each : ∀ s ∈ items, wp program (fun value s' => ran s s' ∧ returned s' value)
      (fun e s' => fail e ∧ failed s s') s) :
    wp (forEach program)
      (fun values items' => List.Forall₂ ran items items' ∧ List.Forall₂ returned items' values)
      (fun e items' => fail e ∧ List.Forall₂ failed items items') items := by
  induction items with
  | nil => exact ⟨.nil, .nil⟩
  | cons first rest ih =>
    have here := each first List.mem_cons_self
    have later := ih (fun s mem => same s (List.mem_cons_of_mem _ mem))
      fun s mem => each s (List.mem_cons_of_mem _ mem)
    -- The elements after a failure keep the values they had.
    have untouched : List.Forall₂ failed rest rest :=
      List.forall₂_same.mpr fun s mem => same s (List.mem_cons_of_mem _ mem)
    simp only [wp, forEach]
    cases outcome : program first with
    | error e first' =>
      obtain ⟨reported, left⟩ := wp_of_error here outcome
      exact ⟨reported, .cons left untouched⟩
    | ok value first' =>
      obtain ⟨moved, answered⟩ := wp_of_ok here outcome
      cases others : forEach program rest with
      | ok values rest' =>
        obtain ⟨moves, answers⟩ := wp_of_ok later others
        exact ⟨.cons moved moves, .cons answered answers⟩
      | error e rest' =>
        obtain ⟨reported, left⟩ := wp_of_error later others
        exact ⟨reported, .cons (ranFailed _ _ moved) left⟩

/-- Elements that all run in order, each returning what is known of it. -/
theorem wp_forEach_total {program : Program ε σ α} {ran : σ → σ → Prop} {returned : σ → α → Prop}
    (each : ∀ s ∈ items,
      wp program (fun value s' => ran s s' ∧ returned s' value) (fun _ _ => False) s) :
    wp (forEach program)
      (fun values items' => List.Forall₂ ran items items' ∧ List.Forall₂ returned items' values)
      (fun _ _ => False) items := by
  have ends : ∀ s ∈ items, wp program (fun value s' => ran s s' ∧ returned s' value)
      (fun _ _ => False ∧ True) s :=
    fun s mem => wp_mono (each s mem) (fun _ _ ended => ended) (fun _ _ failed => failed.elim)
  exact wp_mono (wp_forEach returned (fun _ => False) (fun _ _ => trivial) (fun _ _ _ => trivial)
    ends) (fun _ _ ended => ended) (fun _ _ failed => failed.1)

/-- Elements run side by side are each related to what they were, whichever of them failed. -/
theorem wp_forAll {program : Program ε σ Unit} {ran failed : σ → σ → Prop} (fail : ε → Prop)
    (ranFailed : ∀ s s', ran s s' → failed s s')
    (each : ∀ s ∈ items, wp program (fun _ s' => ran s s') (fun e s' => fail e ∧ failed s s') s) :
    wp (forAll program) (fun _ items' => List.Forall₂ ran items items')
      (fun e items' => fail e ∧ List.Forall₂ failed items items') items := by
  induction items with
  | nil => exact .nil
  | cons first rest ih =>
    have here := each first List.mem_cons_self
    have later := ih fun s mem => each s (List.mem_cons_of_mem _ mem)
    simp only [wp] at later
    simp only [wp, forAll]
    -- All four outcomes leave both the first element and the rest in a known relation.
    cases outcome : program first with
    | ok value first' =>
      have moved := wp_of_ok here outcome
      cases others : forAll program rest with
      | ok values rest' =>
        rw [others] at later
        exact .cons moved later
      | error e rest' =>
        rw [others] at later
        exact ⟨later.1, .cons (ranFailed _ _ moved) later.2⟩
    | error e first' =>
      obtain ⟨reported, left⟩ := wp_of_error here outcome
      cases others : forAll program rest with
      | ok values rest' =>
        rw [others] at later
        exact ⟨reported, .cons left (later.imp ranFailed)⟩
      | error e' rest' =>
        rw [others] at later
        exact ⟨reported, .cons left later.2⟩

end Effect
