import Mathlib.Algebra.GroupWithZero.Nat
import Mathlib.Data.List.Basic

/-! Paths of a file system: joining two of them, and comparing them component by component. -/

namespace Paths

/-- Whether a path starts at the root. -/
def isAbsolute (path : List Char) : Bool := path.head? = some '/'

/-- A path followed by another one, which replaces it if it starts at the root. -/
def join (base path : List Char) : List Char :=
  if isAbsolute path then path
  else if base = [] ∨ base.getLast? = some '/' then base ++ path
  else base ++ '/' :: path

/-- The segments of a path that name something: neither empty nor a single dot. -/
def segments (path : List Char) : List (List Char) :=
  (path.splitOn '/').filter fun segment => segment ≠ [] ∧ segment ≠ ['.']

/-- What paths are compared by. -/
structure Components where
  rooted : Bool
  /-- A dot is a component at the start of a path, and only there. -/
  here : Bool
  segments : List (List Char)
  deriving Repr, DecidableEq

/-- The components of a path. -/
def components (path : List Char) : Components where
  rooted := isAbsolute path
  here := (path.splitOn '/').head? = some ['.']
  segments := segments path

variable {base path : List Char}

/-- Segments on both sides of a slash are those of the two sides. -/
theorem segments_append_slash (base path : List Char) :
    segments (base ++ '/' :: path) = segments base ++ segments path := by
  rw [segments, List.splitOn_append_cons_self, List.filter_append]
  rfl

/-- Nothing has no segments. -/
@[simp] theorem segments_nil : segments [] = [] := by simp [segments]

/-- The first segment of a path is not changed by what follows a slash. -/
theorem head?_splitOn_append (base path : List Char) :
    ((base ++ '/' :: path).splitOn '/').head? = (base.splitOn '/').head? := by
  rw [List.splitOn_append_cons_self, List.head?_append]
  cases split : base.splitOn '/' with
  | nil => exact absurd split (List.splitOn_ne_nil '/' base)
  | cons first rest => rfl

/-- Joined to a path that says where it starts, a relative path adds its segments. -/
theorem components_join (some_ : base ≠ []) (relative : isAbsolute path = false) :
    components (join base path)
      = ⟨isAbsolute base, (components base).here, segments base ++ segments path⟩ := by
  -- Either way there is exactly one slash between the two.
  obtain ⟨front, joined, same⟩ : ∃ front, join base path = front ++ '/' :: path
      ∧ (front = base ∨ base = front ++ ['/']) := by
    unfold join
    rw [if_neg (by simp [relative])]
    by_cases ends : base.getLast? = some '/'
    · obtain ⟨front, rfl⟩ := List.getLast?_eq_some_iff.mp ends
      exact ⟨front, by simp, .inr rfl⟩
    · exact ⟨base, by simp [some_, ends], .inl rfl⟩
  rw [joined]
  rcases same with rfl | rfl
  · have first : isAbsolute (front ++ '/' :: path) = isAbsolute front := by
      cases front with
      | nil => exact absurd rfl some_
      | cons c rest => rfl
    simp only [components, first, head?_splitOn_append, segments_append_slash]
  · have first : isAbsolute (front ++ '/' :: path) = isAbsolute (front ++ ['/']) := by
      cases front <;> rfl
    simp only [components, first, head?_splitOn_append, segments_append_slash, segments_nil,
      List.append_nil]

/-- Joined to nothing, a path is itself, as it is when it starts at the root. -/
theorem join_eq (alone : base = [] ∨ isAbsolute path = true) : join base path = path := by
  unfold join
  rcases alone with rfl | absolute
  · simp
  · rw [if_pos absolute]

/-- A path that starts at the root does not start with a dot. -/
theorem here_of_isAbsolute (absolute : isAbsolute path = true) : (components path).here = false := by
  cases path with
  | nil => cases absolute
  | cons c rest =>
    obtain rfl : c = '/' := by simpa [isAbsolute] using absolute
    simp [components, List.splitOn_cons_eq_if_modifyHead]

/-- One segment that names something is a path of its own. -/
theorem segments_single (whole : '/' ∉ path) (some_ : path ≠ []) (named : path ≠ ['.']) :
    segments path = [path] := by
  rw [segments, List.splitOn_eq_singleton whole]
  simp [some_, named]

end Paths
