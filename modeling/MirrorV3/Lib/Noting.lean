import MirrorV3.Lib.Fanout

/-! Calls whose answers are kept, so that a run can be held to what it was answered. -/

namespace Effect

variable {ε σ ρ α : Type}

/-- A party to a program, with notes of how it answered. -/
structure Noted (ρ σ : Type) where
  party : σ
  /-- Of the calls so far, in their order. -/
  notes : List ρ

/-- Make a call and note its answer. -/
def noting (note : Except ε α → ρ) (call : Program ε σ α) : Program ε (Noted ρ σ) α := fun s =>
  match call s.party with
  | .ok a party => .ok a ⟨party, s.notes ++ [note (.ok a)]⟩
  | .error e party => .error e ⟨party, s.notes ++ [note (.error e)]⟩

/-- A call is answered as it would be unnoted, and its answer is the last of the notes. -/
@[simp] theorem wp_noting (note : Except ε α → ρ) (call : Program ε σ α)
    {post : α → Noted ρ σ → Prop} {fail : ε → Noted ρ σ → Prop} {s : Noted ρ σ} :
    wp (noting note call) post fail s
      = wp call (fun a party => post a ⟨party, s.notes ++ [note (.ok a)]⟩)
          (fun e party => fail e ⟨party, s.notes ++ [note (.error e)]⟩) s.party := by
  simp only [wp, noting]
  cases call s.party with
  | ok a party => rfl
  | error e party => rfl

/-- A note is among the notes once it was made. -/
theorem mem_noted (notes : List ρ) (note : ρ) : note ∈ notes ++ [note] :=
  List.mem_append_right _ (List.mem_singleton_self note)

/-- However a call ends, its answer is among the notes. -/
theorem wp_noted {note : Except ε α → ρ} {call : Program ε σ α} {post : α → Noted ρ σ → Prop}
    {fail : ε → Noted ρ σ → Prop} {s : Noted ρ σ}
    (returns : ∀ a s', note (.ok a) ∈ s'.notes → post a s')
    (fails : ∀ e s', note (.error e) ∈ s'.notes → fail e s') :
    wp (noting note call) post fail s := by
  rw [wp_noting]
  exact wp_any (fun a _ => returns a _ (mem_noted _ _)) (fun e _ => fails e _ (mem_noted _ _))

/-- Of elements run in order, one shows why they failed. -/
theorem wp_forEach_failed {program : Program ε σ α} {fails : ε → σ → Prop}
    (each : ∀ s, wp program (fun _ _ => True) fails s) (items : List σ) :
    wp (forEach program) (fun _ _ => True) (fun e items' => ∃ s ∈ items', fails e s) items := by
  induction items with
  | nil => trivial
  | cons first rest ih =>
    simp only [wp] at ih
    simp only [wp, forEach]
    cases outcome : program first with
    | error e first' => exact ⟨first', List.mem_cons_self, wp_of_error (each first) outcome⟩
    | ok value first' =>
      cases others : forEach program rest with
      | ok values rest' => trivial
      | error e rest' =>
        rw [others] at ih
        obtain ⟨s, mem, failed⟩ := ih
        exact ⟨s, List.mem_cons_of_mem _ mem, failed⟩

/-- Of elements run side by side, one shows why they are reported failed. -/
theorem wp_forAll_failed {program : Program ε σ Unit} {fails : ε → σ → Prop}
    (each : ∀ s, wp program (fun _ _ => True) fails s) (items : List σ) :
    wp (forAll program) (fun _ _ => True) (fun e items' => ∃ s ∈ items', fails e s) items := by
  induction items with
  | nil => trivial
  | cons first rest ih =>
    simp only [wp] at ih
    simp only [wp, forAll]
    cases outcome : program first with
    | error e first' =>
      -- The first element is reported, whatever the others did.
      have failed := wp_of_error (each first) outcome
      cases forAll program rest with
      | ok _ rest' => exact ⟨first', List.mem_cons_self, failed⟩
      | error _ rest' => exact ⟨first', List.mem_cons_self, failed⟩
    | ok value first' =>
      cases others : forAll program rest with
      | ok _ rest' => trivial
      | error e rest' =>
        rw [others] at ih
        obtain ⟨s, mem, failed⟩ := ih
        exact ⟨s, List.mem_cons_of_mem _ mem, failed⟩

end Effect
