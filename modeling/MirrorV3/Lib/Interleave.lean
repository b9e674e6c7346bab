import Mathlib.Algebra.GroupWithZero.Nat
import Mathlib.Data.List.Basic

/-! Several lists of things that happen side by side, and one list in which they all happened. -/

namespace Interleave

variable {α : Type} {tag : α → Nat}

/-- Each part holds what is tagged with its index. -/
def Tagged (tag : α → Nat) (parts : List (List α)) : Prop :=
  ∀ (i : Nat), ∀ a ∈ parts[i]?.getD [], tag a = i

/-- One list made of several, each of them in its own order. -/
def Interleaves (tag : α → Nat) (parts : List (List α)) (whole : List α) : Prop :=
  ∀ i : Nat, whole.filter (tag · = i) = parts[i]?.getD []

/-- A way to run several things side by side. -/
structure Schedule (tag : α → Nat) where
  merge : List (List α) → List α
  interleaves : ∀ parts, Tagged tag parts → Interleaves tag parts (merge parts)

variable {parts : List (List α)} {whole first : List α}

/-- A moment of what happened is a moment of each part. -/
theorem Interleaves.firstPart (interleaves : Interleaves tag parts whole) (moment : first <+: whole)
    (i : Nat) : first.filter (tag · = i) <+: parts[i]?.getD [] := by
  rw [← interleaves i]
  exact moment.filter _

/-- The parts one after the other hold of each tag the part with that index. -/
theorem interleaves_flatten (tagged : Tagged tag parts) : Interleaves tag parts parts.flatten := by
  -- The induction counts the tags on from where the parts before have left them.
  have from_ : ∀ (parts : List (List α)) (start : Nat),
      (∀ (i : Nat), ∀ a ∈ parts[i]?.getD [], tag a = start + i) →
        ∀ i, parts.flatten.filter (tag · = start + i) = parts[i]?.getD []
          ∧ ∀ j < start, parts.flatten.filter (tag · = j) = [] := by
    intro parts
    induction parts with
    | nil => simp
    | cons part rest ih =>
      intro start tagged i
      have here : ∀ a ∈ part, tag a = start := by simpa using tagged 0
      have later := ih (start + 1) fun i a mem => by
        have := tagged (i + 1) a (by simpa using mem)
        omega
      have others : ∀ j, j ≠ start → part.filter (tag · = j) = [] := by
        intro j differs
        simp only [List.filter_eq_nil_iff, decide_eq_true_eq]
        intro a mem same
        exact differs (same.symm.trans (here a mem))
      refine ⟨?_, fun j below => ?_⟩
      · rw [List.flatten_cons, List.filter_append]
        cases i with
        | zero =>
          have own : part.filter (tag · = start + 0) = part :=
            List.filter_eq_self.mpr fun a mem => by simpa using here a mem
          rw [own, (later 0).2 (start + 0) (by omega)]
          simp
        | succ i =>
          rw [others _ (by omega)]
          have next := (later i).1
          rw [show start + 1 + i = start + (i + 1) by omega] at next
          simpa using next
      · rw [List.flatten_cons, List.filter_append, others j (by omega),
          (later 0).2 j (by omega)]
        rfl
  intro i
  simpa using (from_ parts 0 (fun i a mem => by simpa using tagged i a mem) i).1

/-- Everything of one part before anything of the next. -/
def inOrder : Schedule tag := ⟨List.flatten, fun _ => interleaves_flatten⟩

section Moments

variable {start second : List α} {last : α} {later : α → α → Prop}

/-- A first part that ends in the middle of a list ends in the first half or in the second. -/
theorem concat_prefix_append (moment : start ++ [last] <+: first ++ second) :
    start ++ [last] <+: first ∨ ∃ rest, start = first ++ rest ∧ rest ++ [last] <+: second := by
  rcases List.prefix_or_prefix_of_prefix moment (List.prefix_append first second) with inside | past
  · exact .inl inside
  · rcases List.prefix_concat_iff.mp past with whole | before
    · exact .inl (by simp only [whole, List.prefix_rfl])
    · obtain ⟨rest, rfl⟩ := before
      rw [List.append_assoc] at moment
      exact .inr ⟨rest, rfl, (List.prefix_append_right_inj first).mp moment⟩

/-- What moments keep up to one of them, and it keeps on, they keep on as well. -/
theorem pairwise_through (trans : ∀ a b c, later a b → later b c → later a c)
    (upTo : (first ++ [last]).Pairwise later) (on : (last :: second).Pairwise later) :
    (first ++ second).Pairwise later := by
  -- Each earlier moment comes to each of the later ones by way of the one in between.
  obtain ⟨before, -, near⟩ := List.pairwise_append.mp upTo
  obtain ⟨far, after⟩ := List.pairwise_cons.mp on
  refine List.pairwise_append.mpr ⟨before, after, fun a memA b memB => ?_⟩
  exact trans a last b (near a memA last (List.mem_singleton_self last)) (far b memB)

/-- What moments keep from each to the next is kept at the last of them. -/
theorem getLast?_of_pairwise (refl : ∀ a, later a a) (kept : first.Pairwise later) {a : α}
    (mem : a ∈ first) : ∃ last ∈ first.getLast?, later a last := by
  -- The moment is the last one, or comes before it.
  obtain ⟨before, last, rfl⟩ :=
    (List.eq_nil_or_concat' first).resolve_left (List.ne_nil_of_mem mem)
  refine ⟨last, by simp, ?_⟩
  rcases List.mem_append.mp mem with earlier | here
  · exact (List.pairwise_append.mp kept).2.2 a earlier last (List.mem_singleton_self last)
  · rw [List.mem_singleton.mp here]
    exact refl last

end Moments

end Interleave
