import Mathlib.Algebra.GroupWithZero.Nat
import Mathlib.Data.List.Basic

/-! References to environment variables in the text of a configuration. -/

namespace MirrorV3.Config

/-- Why a text could not be expanded. -/
inductive EnvSubstError where
  | undefinedVariable (name : String)
  | unterminated
  deriving Repr, DecidableEq

/-- The body of a reference and what follows its closing brace. -/
def consumeUntilClose : List Char → Option (List Char × List Char)
  | [] => none
  | c :: chars =>
    if c = '}' then some ([], chars)
    else (consumeUntilClose chars).map fun (body, rest) => (c :: body, rest)

/-- The name in the body of a reference, and the default after the first `:-`. -/
def splitNameDefault : List Char → List Char × Option (List Char)
  | [] => ([], none)
  | ':' :: '-' :: default => ([], some default)
  | c :: body =>
    let (name, default) := splitNameDefault body
    (c :: name, default)

/-- A letter or an underscore, and then letters, digits and underscores. -/
def isValidName : List Char → Bool
  | [] => false
  | first :: rest =>
    (first.isAlpha || first == '_') && rest.all fun c => c.isAlphanum || c == '_'

/-- What follows a body is shorter than what the body was in. -/
theorem length_of_consumeUntilClose {chars body rest : List Char}
    (closed : consumeUntilClose chars = some (body, rest)) : rest.length < chars.length := by
  induction chars generalizing body with
  | nil => simp [consumeUntilClose] at closed
  | cons c chars ih =>
    simp only [consumeUntilClose] at closed
    split at closed
    · obtain ⟨-, rfl⟩ := Prod.mk.inj (Option.some.inj closed)
      exact Nat.lt_succ_self _
    · obtain ⟨⟨body', rest'⟩, found, same⟩ := Option.map_eq_some_iff.mp closed
      obtain ⟨-, rfl⟩ := Prod.mk.inj same
      exact Nat.lt_succ_of_lt (ih found)

/-- Expand the references of a text, from the left and without reading what came of one again. -/
def expand (lookup : String → Option String) : List Char → Except EnvSubstError (List Char)
  | [] => .ok []
  | '$' :: '$' :: chars => do return '$' :: (← expand lookup chars)
  | '$' :: '{' :: chars =>
    match closed : consumeUntilClose chars with
    | none => .error .unterminated
    | some (body, rest) => do
      have := length_of_consumeUntilClose closed
      let (name, default) := splitNameDefault body
      let expanded ←
        -- What does not look like a variable is left alone.
        if isValidName name = false then pure ('$' :: '{' :: body ++ ['}'])
        else
          match lookup (String.ofList name), default with
          | some value, _ => pure value.toList
          | none, some default => pure default
          | none, none => throw (.undefinedVariable (String.ofList name))
      return expanded ++ (← expand lookup rest)
  | c :: chars => do return c :: (← expand lookup chars)
termination_by chars => chars.length
decreasing_by all_goals simp only [List.length_cons]; omega

example (lookup : String → Option String) : expand lookup ['$', '$'] = .ok ['$'] := by
  simp only [expand]
  rfl

end MirrorV3.Config
