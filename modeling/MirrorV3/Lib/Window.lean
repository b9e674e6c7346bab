import Mathlib.Algebra.GroupWithZero.Nat
import Mathlib.Data.List.Basic
import Mathlib.Data.List.Pairwise

/-! Stretches of a list whose elements are numbered in strictly increasing order. -/

namespace Window

variable {α : Type} (key : α → Nat)

/-- The elements numbered from `lo` up to but not including `hi`. -/
def between (lo hi : Nat) (items : List α) : List α :=
  items.filter fun item => lo ≤ key item ∧ key item < hi

/-- The first element numbered `lo` or more. -/
def firstFrom (lo : Nat) (items : List α) : Option α :=
  items.find? fun item => lo ≤ key item

variable {key} {lo mid hi : Nat} {items : List α} {item : α}

/-- An element of a stretch is an element of the list with a number in the bounds. -/
theorem mem_between :
    item ∈ between key lo hi items ↔ item ∈ items ∧ lo ≤ key item ∧ key item < hi := by
  simp [between]

/-- A stretch up to an element has that element last. -/
theorem getLast?_between (increasing : items.Pairwise (key · < key ·)) (mem : item ∈ items)
    (low : lo ≤ key item) : (between key lo (key item + 1) items).getLast? = some item := by
  have inside : item ∈ between key lo (key item + 1) items :=
    mem_between.mpr ⟨mem, low, Nat.lt_succ_self _⟩
  cases ends : (between key lo (key item + 1) items).getLast? with
  | none =>
    rw [List.getLast?_eq_none_iff.mp ends] at inside
    exact absurd inside List.not_mem_nil
  | some last =>
    -- What stands before the last one is numbered lower, and nothing is numbered higher.
    have below := (mem_between.mp (List.mem_of_getLast? ends)).2.2
    obtain ⟨front, split⟩ := List.getLast?_eq_some_iff.mp ends
    have ordered : (between key lo (key item + 1) items).Pairwise (key · < key ·) :=
      increasing.filter _
    rw [split] at inside ordered
    rcases List.mem_append.mp inside with before | same
    · have := (List.pairwise_append.mp ordered).2.2 item before last (by simp)
      omega
    · rw [List.mem_singleton.mp same]

/-- The first elements of an ordered list hold everything that is not above them. -/
theorem mem_of_prefix {front : List α} (increasing : items.Pairwise (key · < key ·))
    (first : front <+: items) {other : α} (inside : item ∈ front) (mem : other ∈ items)
    (below : key other ≤ key item) : other ∈ front := by
  obtain ⟨back, rfl⟩ := first
  rcases List.mem_append.mp mem with here | later
  · exact here
  · have := (List.pairwise_append.mp increasing).2.2 item inside other later
    omega

/-- A stretch is empty where no number is in its bounds. -/
theorem between_eq_nil (absent : ∀ item ∈ items, ¬ (lo ≤ key item ∧ key item < hi)) :
    between key lo hi items = [] :=
  List.filter_eq_nil_iff.mpr fun item mem => by simpa using absent item mem

/-- An element in the bounds heads the stretch of the list it heads. -/
theorem between_cons_in (inside : lo ≤ key item ∧ key item < hi) :
    between key lo hi (item :: items) = item :: between key lo hi items :=
  List.filter_cons_of_pos (by simpa using inside)

/-- An element out of the bounds leaves the stretch as it is. -/
theorem between_cons_out (outside : ¬ (lo ≤ key item ∧ key item < hi)) :
    between key lo hi (item :: items) = between key lo hi items :=
  List.filter_cons_of_neg (by simpa using outside)

/-- A stretch that ends where it starts is empty. -/
@[simp] theorem between_self : between key lo lo items = [] :=
  between_eq_nil fun item _ => by omega

/-- The first element from a number on is an element of the list with that number or more. -/
theorem of_firstFrom (found : firstFrom key lo items = some item) : item ∈ items ∧ lo ≤ key item :=
  ⟨List.mem_of_find?_eq_some found, by simpa using List.find?_some found⟩

/-- Where nothing is numbered `lo` or more, every stretch from there is empty. -/
theorem between_of_firstFrom_none (absent : firstFrom key lo items = none) :
    between key lo hi items = [] :=
  between_eq_nil fun item mem bounds => by
    have below : ¬ lo ≤ key item := by simpa using List.find?_eq_none.mp absent item mem
    exact below bounds.1

/-- Two adjoining stretches make up the stretch over both. -/
theorem between_append (increasing : items.Pairwise (key · < key ·)) (first : lo ≤ mid)
    (second : mid ≤ hi) :
    between key lo mid items ++ between key mid hi items = between key lo hi items := by
  induction items with
  | nil => rfl
  | cons item items ih =>
    rw [List.pairwise_cons] at increasing
    have rest := ih increasing.2
    by_cases early : key item < mid
    · -- The first element belongs to the first stretch if to any.
      rw [between_cons_out (by omega : ¬ (mid ≤ key item ∧ key item < hi))]
      by_cases inside : lo ≤ key item
      · rw [between_cons_in ⟨inside, early⟩, between_cons_in ⟨inside, by omega⟩, List.cons_append,
          rest]
      · rw [between_cons_out (fun bounds => inside bounds.1),
          between_cons_out (fun bounds => inside bounds.1), rest]
    · -- Every later element is numbered higher still, so nothing is left for the first stretch.
      have empty : between key lo mid items = [] := between_eq_nil fun later mem => by
        have := increasing.1 later mem
        omega
      rw [empty, List.nil_append] at rest
      rw [between_cons_out (by omega : ¬ (lo ≤ key item ∧ key item < mid)), empty, List.nil_append]
      by_cases inside : key item < hi
      · rw [between_cons_in ⟨by omega, inside⟩, between_cons_in ⟨by omega, inside⟩, rest]
      · rw [between_cons_out (fun bounds => inside bounds.2),
          between_cons_out (fun bounds => inside bounds.2), rest]

/-- The stretch from `lo` through the first element is that element alone. -/
theorem between_firstFrom (increasing : items.Pairwise (key · < key ·))
    (found : firstFrom key lo items = some item) :
    between key lo (key item + 1) items = [item] := by
  induction items with
  | nil => simp [firstFrom] at found
  | cons head items ih =>
    rw [List.pairwise_cons] at increasing
    by_cases here : lo ≤ key head
    · have same : head = item := by simpa [firstFrom, here] using found
      subst same
      have rest : between key lo (key head + 1) items = [] := between_eq_nil fun later mem => by
        have := increasing.1 later mem
        omega
      rw [between_cons_in ⟨here, by omega⟩, rest]
    · have later : firstFrom key lo items = some item := by simpa [firstFrom, here] using found
      rw [between_cons_out (fun bounds => here bounds.1)]
      exact ih increasing.2 later

/-- Reading the next element extends the stretch read so far by that element. -/
theorem between_snoc (increasing : items.Pairwise (key · < key ·)) (ordered : lo ≤ mid)
    (found : firstFrom key mid items = some item) :
    between key lo mid items ++ [item] = between key lo (key item + 1) items := by
  have after := (of_firstFrom found).2
  rw [← between_firstFrom increasing found]
  exact between_append increasing ordered (by omega)

end Window
