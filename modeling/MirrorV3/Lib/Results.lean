import Mathlib.Algebra.GroupWithZero.Nat
import Mathlib.Data.List.Forall2

/-! Reading every element of a list with a reader that may fail. -/

namespace Results

variable {ε α β : Type}

/-- A sequence that succeeded did so step by step. -/
theorem of_bind_ok {first : Except ε α} {rest : α → Except ε β} {b : β}
    (succeeded : first >>= rest = .ok b) : ∃ a, first = .ok a ∧ rest a = .ok b := by
  cases first with
  | error e => cases succeeded
  | ok a => exact ⟨a, rfl, succeeded⟩

/-- A check that passed on a whole list passed on every element. -/
theorem of_forM_ok {check : α → Except ε PUnit} {items : List α}
    (passed : items.forM check = .ok ()) : ∀ item ∈ items, check item = .ok () := by
  induction items with
  | nil => simp
  | cons first rest ih =>
    obtain ⟨⟨⟩, here, later⟩ := of_bind_ok passed
    intro item mem
    rcases List.mem_cons.mp mem with rfl | mem
    · exact here
    · exact ih later item mem

/-- A reader that succeeds on every element succeeds on the whole list. -/
theorem mapM_ok {read : α → Except ε β} {value : α → β} {items : List α}
    (reads : ∀ item ∈ items, read item = .ok (value item)) :
    items.mapM read = .ok (items.map value) := by
  induction items with
  | nil => rfl
  | cons item items ih =>
    have first := reads item (by simp)
    have rest := ih fun other mem => reads other (by simp [mem])
    simp [List.mapM_cons, first, rest]
    rfl

/-- What a reader gives back for every written element, it gives back for the whole list. -/
theorem mapM_map_ok {write : α → β} {read : β → Except ε α} {items : List α}
    (inverse : ∀ item ∈ items, read (write item) = .ok item) :
    (items.map write).mapM read = .ok items := by
  rw [List.mapM_map]
  simpa [Function.comp_def] using mapM_ok inverse

/-- Readers that agree on every element agree on the whole list. -/
theorem mapM_congr {read read' : α → Except ε β} {items : List α}
    (agree : ∀ item ∈ items, read item = read' item) : items.mapM read = items.mapM read' := by
  induction items with
  | nil => rfl
  | cons item items ih =>
    rw [List.mapM_cons, List.mapM_cons, agree item (by simp),
      ih fun other mem => agree other (by simp [mem])]

/-- A list is read exactly when every element is. -/
theorem mapM_ok_iff {read : α → Except ε β} {items : List α} {values : List β} :
    items.mapM read = .ok values
      ↔ List.Forall₂ (fun item value => read item = .ok value) items values := by
  constructor
  · intro all
    induction items generalizing values with
    | nil =>
      rw [List.mapM_nil] at all
      cases all
      exact .nil
    | cons item items ih =>
      rw [List.mapM_cons] at all
      obtain ⟨value, first, all⟩ := of_bind_ok all
      obtain ⟨rest, later, all⟩ := of_bind_ok all
      cases all
      exact .cons first (ih later)
  · intro each
    induction each with
    | nil => rfl
    | cons first _ ih =>
      rw [List.mapM_cons, first, ih]
      rfl

/-- A list that was read was read element by element. -/
theorem of_mapM_ok {read : α → Except ε β} {value : α → β} {accepted : α → Prop} {items : List α}
    {values : List β} (each : ∀ item b, read item = .ok b → b = value item ∧ accepted item)
    (all : items.mapM read = .ok values) :
    values = items.map value ∧ ∀ item ∈ items, accepted item := by
  induction items generalizing values with
  | nil =>
    rw [List.mapM_nil] at all
    cases all
    simp
  | cons item items ih =>
    rw [List.mapM_cons] at all
    cases first : read item with
    | error e => simp [first, bind, Except.bind] at all
    | ok b =>
      cases rest : items.mapM read with
      | error e => simp [first, rest, bind, Except.bind] at all
      | ok bs =>
        have same : b :: bs = values := by
          simpa [first, rest, bind, Except.bind, pure, Except.pure] using all
        obtain ⟨value_eq, accepts⟩ := each item b first
        obtain ⟨values_eq, accept⟩ := ih rest
        subst same value_eq values_eq
        exact ⟨rfl, by simpa using ⟨accepts, accept⟩⟩

/-- Reading the rows of a table one after the other gives the list they are numbered by. -/
theorem mapM_range'_ok {read : Nat → Except ε α} {items : List α} :
    ∀ start, (∀ row (inside : row < items.length), read (start + row) = .ok items[row]) →
      (List.range' start items.length).mapM read = .ok items := by
  induction items with
  | nil => intro start rows; rfl
  | cons item items ih =>
    intro start rows
    have first : read start = .ok item := rows 0 (by simp)
    have rest := ih (start + 1) fun row inside => by
      have next := rows (row + 1) (by simpa using inside)
      rw [← Nat.add_assoc, Nat.add_right_comm] at next
      simpa using next
    simp [List.range'_succ, List.mapM_cons, first, rest]
    rfl

/-- Whatever a result fails with is of a kind. -/
def FailsWith (kind : ε → Prop) (result : Except ε α) : Prop := ∀ e, result = .error e → kind e

section FailsWith

variable {kind : ε → Prop}

/-- What is returned is no failure. -/
theorem FailsWith.ok (a : α) : FailsWith kind (.ok a) := by
  intro e never
  cases never

/-- A failure of the kind is one. -/
theorem FailsWith.error {e : ε} (of_kind : kind e) : FailsWith kind (.error e : Except ε α) := by
  intro e' same
  cases same
  exact of_kind

/-- A sequence fails with what one of its steps fails with. -/
theorem FailsWith.bind {first : Except ε α} {rest : α → Except ε β} (head : FailsWith kind first)
    (tail : ∀ a, FailsWith kind (rest a)) : FailsWith kind (first >>= rest) := by
  cases outcome : first with
  | error e => exact .error (head e outcome)
  | ok a => exact tail a

/-- Reading a list fails with what reading one of its elements fails with. -/
theorem FailsWith.mapM {read : α → Except ε β} (each : ∀ item, FailsWith kind (read item))
    (items : List α) : FailsWith kind (items.mapM read) := by
  induction items with
  | nil => exact .ok []
  | cons item items ih =>
    rw [List.mapM_cons]
    exact .bind (each item) fun b => .bind ih fun rest => .ok (b :: rest)

/-- Folding a list fails with what one of the steps fails with. -/
theorem FailsWith.foldlM {step : β → α → Except ε β} (each : ∀ b item, FailsWith kind (step b item))
    (items : List α) (b : β) : FailsWith kind (items.foldlM step b) := by
  induction items generalizing b with
  | nil => exact .ok b
  | cons item items ih =>
    rw [List.foldlM_cons]
    exact .bind (each b item) ih

end FailsWith

end Results
