import MirrorV3.Config.EnvSubst

/-! Interpolation reads a text once from the left, and a doubled dollar sign escapes anything. -/

namespace MirrorV3.Config

/-- What the body of a reference is replaced with. -/
def substituted (lookup : String → Option String) (body : List Char) :
    Except EnvSubstError (List Char) :=
  let (name, default) := splitNameDefault body
  if isValidName name = false then .ok ('$' :: '{' :: body ++ ['}'])
  else
    match lookup (String.ofList name), default with
    | some value, _ => .ok value.toList
    | none, some default => .ok default
    | none, none => .error (.undefinedVariable (String.ofList name))

/-- Whether scanning a text ends neither inside a reference nor on a dollar sign of its own. -/
def scansShut : List Char → Bool
  | [] => true
  | ['$'] => false
  | '$' :: '$' :: chars => scansShut chars
  | '$' :: '{' :: chars =>
    match closed : consumeUntilClose chars with
    | none => false
    | some (_, rest) =>
      have := length_of_consumeUntilClose closed
      scansShut rest
  | _ :: chars => scansShut chars
termination_by chars => chars.length
decreasing_by all_goals simp only [List.length_cons]; omega

/-- One text after another, the first error from the left being the error of both. -/
def followedBy (first second : Except EnvSubstError (List Char)) :
    Except EnvSubstError (List Char) := do
  let left ← first
  let right ← second
  return left ++ right

/-- A text with each of its dollar signs doubled. -/
def escaped (text : List Char) : List Char :=
  text.flatMap fun c => if c = '$' then ['$', '$'] else [c]

section Steps

variable {lookup : String → Option String}

/-- Following on is associative. -/
theorem followedBy_assoc (first second third : Except EnvSubstError (List Char)) :
    followedBy (followedBy first second) third
      = followedBy first (followedBy second third) := by
  cases first with
  | error error => rfl
  | ok left =>
    cases second with
    | error error => rfl
    | ok right =>
      cases third with
      | error error => rfl
      | ok last => exact congrArg Except.ok (List.append_assoc left right last)

/-- What was found before a brace is still found when more text follows. -/
theorem consumeUntilClose_append {chars body rest : List Char} (more : List Char)
    (closed : consumeUntilClose chars = some (body, rest)) :
    consumeUntilClose (chars ++ more) = some (body, rest ++ more) := by
  induction chars generalizing body with
  | nil => simp [consumeUntilClose] at closed
  | cons c chars ih =>
    simp only [consumeUntilClose, List.cons_append] at closed ⊢
    by_cases brace : c = '}'
    · rw [if_pos brace] at closed ⊢
      obtain ⟨rfl, rfl⟩ := Prod.mk.inj (Option.some.inj closed)
      rfl
    · -- The brace is further on, and what lies before it is kept.
      rw [if_neg brace] at closed ⊢
      obtain ⟨⟨body', rest'⟩, found, same⟩ := Option.map_eq_some_iff.mp closed
      obtain ⟨rfl, rfl⟩ := Prod.mk.inj same
      rw [ih found]
      rfl

/-- A body that holds no brace is read up to the brace behind it. -/
theorem consumeUntilClose_brace {body : List Char} (rest : List Char) (inside : '}' ∉ body) :
    consumeUntilClose (body ++ '}' :: rest) = some (body, rest) := by
  induction body with
  | nil => rfl
  | cons c body ih =>
    obtain ⟨other, inside⟩ := not_or.mp (List.mem_cons.not.mp inside)
    simp only [List.cons_append, consumeUntilClose, if_neg (Ne.symm other), ih inside,
      Option.map_some]

/-- A doubled dollar sign comes out as one. -/
theorem expand_doubled (chars : List Char) :
    expand lookup ('$' :: '$' :: chars) = followedBy (.ok ['$']) (expand lookup chars) := by
  rw [expand]
  rfl

/-- A reference comes out as what its body is replaced with, which is not read again. -/
theorem expand_reference {chars body rest : List Char}
    (closed : consumeUntilClose chars = some (body, rest)) :
    expand lookup ('$' :: '{' :: chars)
      = followedBy (substituted lookup body) (expand lookup rest) := by
  rw [expand]
  split
  next unclosed => cases unclosed.symm.trans closed
  next body' rest' closed' =>
    obtain ⟨rfl, rfl⟩ := Prod.mk.inj (Option.some.inj (closed'.symm.trans closed))
    simp only [substituted, followedBy]
    by_cases name : isValidName (splitNameDefault body').1 = false
    · simp only [if_pos name]
      rfl
    · simp only [if_neg name]
      -- The three ways of finding a text, or the lack of one.
      cases lookup (String.ofList (splitNameDefault body').1) with
      | some value => rfl
      | none =>
        cases (splitNameDefault body').2 with
        | some default => rfl
        | none => rfl

/-- Any other character comes out as itself. -/
theorem expand_other {c : Char} {chars : List Char}
    (doubled : ∀ rest, c = '$' → chars ≠ '$' :: rest)
    (reference : ∀ rest, c = '$' → chars ≠ '{' :: rest) :
    expand lookup (c :: chars) = followedBy (.ok [c]) (expand lookup chars) := by
  rw [expand]
  · rfl
  · intro rest dollar same
    exact doubled rest dollar same
  · intro rest dollar same
    exact reference rest dollar same

/-- Once a text has been scanned to its end, the text behind it is read as if it stood alone. -/
theorem expand_append {first : List Char} (second : List Char) (shut : scansShut first = true) :
    expand lookup (first ++ second) = followedBy (expand lookup first) (expand lookup second) := by
  induction first using scansShut.induct with
  | case1 =>
    rw [List.nil_append, expand]
    cases expand lookup second with
    | error error => rfl
    | ok right => rfl
  | case2 => simp [scansShut] at shut
  | case3 chars ih =>
    rw [scansShut] at shut
    rw [List.cons_append, List.cons_append, expand_doubled, expand_doubled, ih shut,
      followedBy_assoc]
  | case4 chars unclosed =>
    rw [scansShut] at shut
    split at shut
    · cases shut
    next closed => cases unclosed.symm.trans closed
  | case5 chars body rest closed shorter ih =>
    -- The body ends in the first text, so the second is not looked into for its brace.
    rw [scansShut] at shut
    split at shut
    · cases shut
    next body' rest' closed' =>
      obtain ⟨rfl, rfl⟩ := Prod.mk.inj (Option.some.inj (closed'.symm.trans closed))
      rw [List.cons_append, List.cons_append,
        expand_reference (consumeUntilClose_append second closed), expand_reference closed,
        ih shut, followedBy_assoc]
  | case6 c chars alone doubled reference ih =>
    rw [scansShut] at shut
    · have apart : ∀ d rest, c = '$' → d ∈ ['$', '{'] → chars ++ second ≠ d :: rest := by
        intro d rest dollar escaping same
        cases chars with
        | nil => exact alone dollar rfl
        | cons e chars =>
          obtain ⟨rfl, -⟩ := List.cons.inj same
          rcases List.mem_pair.mp escaping with rfl | rfl
          · exact doubled chars dollar rfl
          · exact reference chars dollar rfl
      rw [List.cons_append,
        expand_other (fun rest dollar => apart '$' rest dollar (by simp))
          (fun rest dollar => apart '{' rest dollar (by simp)),
        expand_other (fun rest dollar same => doubled rest dollar same)
          (fun rest dollar same => reference rest dollar same),
        ih shut, followedBy_assoc]
    · exact fun dollar same => alone dollar same
    · exact fun rest dollar same => doubled rest dollar same
    · exact fun rest dollar same => reference rest dollar same

/-- A text with its dollar signs doubled comes out as the text, whatever the environment. -/
theorem expand_escaped (text : List Char) : expand lookup (escaped text) = .ok text := by
  induction text with
  | nil => rw [escaped, List.flatMap_nil, expand]
  | cons c text ih =>
    rw [escaped, List.flatMap_cons]
    change expand lookup (_ ++ escaped text) = _
    by_cases dollar : c = '$'
    · rw [if_pos dollar, List.cons_append, List.cons_append, List.nil_append, expand_doubled, ih,
        dollar]
      rfl
    · rw [if_neg dollar, List.cons_append, List.nil_append,
        expand_other (fun rest same => absurd same dollar) (fun rest same => absurd same dollar),
        ih]
      rfl

/-- A reference between two texts comes out as what its body is replaced with. -/
theorem expand_between {first body : List Char} (second : List Char)
    (shut : scansShut first = true) (inside : '}' ∉ body) :
    expand lookup (first ++ ('$' :: '{' :: body ++ '}' :: second))
      = followedBy (expand lookup first)
          (followedBy (substituted lookup body) (expand lookup second)) := by
  rw [expand_append _ shut, List.cons_append, List.cons_append,
    expand_reference (consumeUntilClose_brace second inside)]

end Steps

/-- Interpolation is one pass from the left: it expands one text after another, what a variable or
a default stood for is not read again, and doubling the dollar signs of a text escapes it. -/
theorem expand_isSinglePass (lookup : String → Option String) :
    (∀ first second, scansShut first = true →
      expand lookup (first ++ second)
        = followedBy (expand lookup first) (expand lookup second)) ∧
    (∀ first body second, scansShut first = true → '}' ∉ body →
      expand lookup (first ++ ('$' :: '{' :: body ++ '}' :: second))
        = followedBy (expand lookup first)
            (followedBy (substituted lookup body) (expand lookup second))) ∧
    ∀ text, expand lookup (escaped text) = .ok text := by
  refine ⟨?_, ?_, ?_⟩
  · intro first second shut
    exact expand_append second shut
  · intro first body second shut inside
    exact expand_between second shut inside
  · intro text
    exact expand_escaped text

/-- A variable whose text looks like a reference, and then a default with a dollar sign. -/
theorem expand_isSinglePass_nested :
    expand (fun name => if name = "A" then some "${B}" else none)
        ("${A}".toList ++ "-$$-".toList) = .ok "${B}-$-".toList ∧
      expand (fun name => if name = "A" then some "${B}" else none)
        ("${A}".toList ++ ('$' :: '{' :: "C:-$".toList ++ '}' :: "{A}".toList))
        = .ok "${B}${A}".toList := by
  have pass := expand_isSinglePass fun name => if name = "A" then some "${B}" else none
  have both := pass.1 "${A}".toList "-$$-".toList (by decide +kernel)
  have between := pass.2.1 "${A}".toList "C:-$".toList "{A}".toList (by decide +kernel)
    (by decide +kernel)
  rw [both, between]
  decide +kernel

end MirrorV3.Config
