import MirrorV3.Envelope.Ndjson

/-! JSON documents as text on one line, and a reader for the texts written so. -/

namespace MirrorV3.Ndjson

/-- An integer in decimal. -/
def decimal (value : Int) : List Char :=
  if value < 0 then '-' :: Nat.toDigits 10 value.natAbs else Nat.toDigits 10 value.natAbs

/-- Texts one after the other, a comma between each two. -/
def commaSeparated : List (List Char) → List Char
  | [] => []
  | [text] => text
  | text :: next :: texts => text ++ ',' :: commaSeparated (next :: texts)

/-- A document without spaces or line ends of its own, its texts quoted as told. -/
def compact (quote : String → List Char) : Json → List Char
  | .null => "null".toList
  | .bool value => if value then "true".toList else "false".toList
  | .int value => decimal value
  | .float text => text.toList
  | .str text => quote text
  | .arr items => '[' :: commaSeparated (items.map (compact quote)) ++ [']']
  | .obj fields =>
    '{' :: commaSeparated (fields.map fun field => quote field.1 ++ ':' :: compact quote field.2)
      ++ ['}']
decreasing_by
  · rename_i mem
    have listed := List.sizeOf_lt_of_mem mem
    simp only [Json.arr.sizeOf_spec]
    omega
  · rename_i mem
    have listed := List.sizeOf_lt_of_mem mem
    cases field
    simp only [Prod.mk.sizeOf_spec, Json.obj.sizeOf_spec] at listed ⊢
    omega

section Escaping

/-- The letter a control character is escaped by, if it has one. -/
def shortEscape (c : Char) : Option Char :=
  [('"', '"'), ('\\', '\\'), ('\x08', 'b'), ('\t', 't'), ('\n', 'n'), ('\x0c', 'f'),
    ('\r', 'r')].lookup c

/-- A hexadecimal digit. -/
def hexDigit (n : Nat) : Char := if n < 10 then Char.ofNat (n + 48) else Char.ofNat (n + 87)

/-- How a character stands inside a quoted text. -/
def escape (c : Char) : List Char :=
  match shortEscape c with
  | some letter => ['\\', letter]
  | none =>
    if c.toNat < 32 then
      ['\\', 'u', '0', '0', hexDigit (c.toNat / 16), hexDigit (c.toNat % 16)]
    else [c]

/-- A text between quotation marks. -/
def quoted (text : String) : List Char := '"' :: text.toList.flatMap escape ++ ['"']

/-- The character an escape by one letter stands for. -/
def readShort (letter : Char) : Option Char :=
  [('"', '"'), ('\\', '\\'), ('b', '\x08'), ('t', '\t'), ('n', '\n'), ('f', '\x0c'),
    ('r', '\r')].lookup letter

/-- The character of a value below 32 written in two hexadecimal digits. -/
def readControl (high low : Char) : Option Char :=
  ((List.range 32).find? fun n => hexDigit (n / 16) = high ∧ hexDigit (n % 16) = low).map Char.ofNat

/-- Read a quoted text up to its end, and what follows. -/
def unquote : List Char → Option (List Char × List Char)
  | [] => none
  | '"' :: rest => some ([], rest)
  | '\\' :: 'u' :: '0' :: '0' :: high :: low :: rest => do
    let c ← readControl high low
    let (text, rest) ← unquote rest
    some (c :: text, rest)
  | '\\' :: letter :: rest => do
    let c ← readShort letter
    let (text, rest) ← unquote rest
    some (c :: text, rest)
  | c :: rest => do
    let (text, rest) ← unquote rest
    some (c :: text, rest)

/-- The seven characters with a letter of their own. -/
theorem mem_of_shortEscape {c letter : Char} (short : shortEscape c = some letter) :
    (c, letter) ∈ [('"', '"'), ('\\', '\\'), ('\x08', 'b'), ('\t', 't'), ('\n', 'n'),
      ('\x0c', 'f'), ('\r', 'r')] := by
  obtain ⟨before, after, split, -⟩ := List.lookup_eq_some_iff.mp short
  simp [split]

/-- A control character reads back from its two hexadecimal digits. -/
theorem readControl_hexDigit {c : Char} (control : c.toNat < 32) :
    readControl (hexDigit (c.toNat / 16)) (hexDigit (c.toNat % 16)) = some c := by
  have all : ∀ n < 32, readControl (hexDigit (n / 16)) (hexDigit (n % 16)) = some (Char.ofNat n) := by
    decide
  rw [all c.toNat control, Char.ofNat_toNat]

/-- A character reads back from how it stands inside a quoted text. -/
theorem unquote_escape (c : Char) (rest : List Char) :
    unquote (escape c ++ rest)
      = (unquote rest).map fun (text, rest) => (c :: text, rest) := by
  -- How a character is written depends on whether it has a letter, and else on its value.
  have read : ∀ text, unquote rest = text →
      (do let (text, rest) ← text; some (c :: text, rest))
        = text.map fun (text, rest) => (c :: text, rest) := by
    intro text _
    cases text <;> rfl
  cases short : shortEscape c with
  | some letter =>
    have listed := mem_of_shortEscape short
    rw [escape, short]
    simp only [List.mem_cons, Prod.mk.injEq, List.not_mem_nil, or_false] at listed
    rcases listed with ⟨rfl, rfl⟩ | ⟨rfl, rfl⟩ | ⟨rfl, rfl⟩ | ⟨rfl, rfl⟩ | ⟨rfl, rfl⟩ | ⟨rfl, rfl⟩
      | ⟨rfl, rfl⟩
    all_goals exact read _ rfl
  | none =>
    simp only [escape, short]
    by_cases control : c.toNat < 32
    · rw [if_pos control]
      rw [List.cons_append, List.cons_append, List.cons_append, List.cons_append, List.cons_append,
        List.cons_append, List.nil_append, unquote,
        readControl_hexDigit control]
      exact read _ rfl
    · -- Neither a quotation mark nor a backslash is left, both have a letter.
      rw [if_neg control, List.cons_append, List.nil_append, unquote]
      · exact read _ rfl
      · rintro rfl
        simp [shortEscape] at short
      · rintro _ _ _ rfl
        simp [shortEscape] at short
      · rintro _ _ rfl
        simp [shortEscape] at short

/-- A quoted text reads back, and what follows it is left. -/
theorem unquote_quoted (text : List Char) (rest : List Char) :
    unquote (text.flatMap escape ++ '"' :: rest) = some (text, rest) := by
  induction text with
  | nil => rfl
  | cons c text ih =>
    rw [List.flatMap_cons, List.append_assoc, unquote_escape, ih]
    rfl

/-- Nothing in a quoted text is a control character. -/
theorem not_control_of_mem_quoted {text : String} {c : Char} (mem : c ∈ quoted text) :
    32 ≤ c.toNat := by
  -- The quotation marks aside, what stands there comes from one character of the text.
  simp only [quoted, List.cons_append, List.mem_cons, List.mem_append, List.mem_flatMap,
    List.not_mem_nil, or_false] at mem
  rcases mem with rfl | ⟨d, -, among⟩ | rfl
  · decide
  · simp only [escape] at among
    split at among
    · -- Only a backslash and one of the seven letters.
      rename_i letter short
      have letters : ∀ pair ∈ [('"', '"'), ('\\', '\\'), ('\x08', 'b'), ('\t', 't'), ('\n', 'n'),
          ('\x0c', 'f'), ('\r', 'r')], 32 ≤ pair.2.toNat := by decide
      rcases List.mem_pair.mp among with rfl | rfl
      · decide
      · exact letters _ (mem_of_shortEscape short)
    · by_cases control : d.toNat < 32
      · rw [if_pos control] at among
        have digits : ∀ n < 16, 32 ≤ (hexDigit n).toNat := by decide
        simp only [List.mem_cons, List.not_mem_nil, or_false] at among
        rcases among with rfl | rfl | rfl | rfl | rfl | rfl
        · decide
        · decide
        · decide
        · decide
        · exact digits _ (by omega)
        · exact digits _ (by omega)
      · rw [if_neg control, List.mem_singleton] at among
        rw [among]
        omega
  · decide

end Escaping

section Reading

/-- Read items with a comma between each two, up to a closing mark. -/
def readItems {α : Type} (read : List Char → Option (α × List Char)) (close : Char) :
    Nat → List Char → Option (List α × List Char)
  | 0, _ => none
  | fuel + 1, text => do
    let (item, rest) ← read text
    match rest with
    | [] => none
    | c :: rest =>
      if c = ',' then
        let (items, rest) ← readItems read close fuel rest
        some (item :: items, rest)
      else if c = close then some ([item], rest) else none

/-- Read a quoted name, a colon and what it names. -/
def readMember {α : Type} (read : List Char → Option (α × List Char)) :
    List Char → Option ((String × α) × List Char)
  | '"' :: rest => do
    let (name, rest) ← unquote rest
    match rest with
    | ':' :: rest =>
      let (item, rest) ← read rest
      some ((String.ofList name, item), rest)
    | _ => none
  | _ => none

/-- Read a document nested at most so deep, and what follows it. -/
def readJson : Nat → List Char → Option (Json × List Char)
  | 0, _ => none
  | _ + 1, [] => none
  | depth + 1, c :: rest =>
    if c = '"' then (unquote rest).map fun (text, rest) => (.str (String.ofList text), rest)
    else if c = '[' then
      if rest.head? = some ']' then some (.arr [], rest.tail)
      else (readItems (readJson depth) ']' rest.length rest).map fun (items, rest) =>
        (.arr items, rest)
    else if c = '{' then
      if rest.head? = some '}' then some (.obj [], rest.tail)
      else (readItems (readMember (readJson depth)) '}' rest.length rest).map fun (fields, rest) =>
        (.obj fields, rest)
    else if c = '-' then
      if rest.takeWhile Char.isDigit = [] then none
      else some (.int (-Nat.ofDigitChars 10 (rest.takeWhile Char.isDigit) 0),
        rest.dropWhile Char.isDigit)
    else if c.isDigit then
      some (.int (Nat.ofDigitChars 10 ((c :: rest).takeWhile Char.isDigit) 0),
        rest.dropWhile Char.isDigit)
    else if ['u', 'l', 'l'] <+: rest ∧ c = 'n' then some (.null, rest.drop 3)
    else if ['r', 'u', 'e'] <+: rest ∧ c = 't' then some (.bool true, rest.drop 3)
    else if ['a', 'l', 's', 'e'] <+: rest ∧ c = 'f' then some (.bool false, rest.drop 4)
    else none

/-- Whether a text is read as an item wherever no digit follows it. -/
def ReadsAs {α : Type} (read : List Char → Option (α × List Char)) (text : List Char) (item : α) :
    Prop :=
  ∀ rest, (∀ c ∈ rest.head?, c.isDigit = false) → read (text ++ rest) = some (item, rest)

/-- Whether a document reads back where it is nested at most so deep. -/
def ReadsBack (depth : Nat) (json : Json) : Prop :=
  ReadsAs (readJson depth) (compact quoted json) json

/-- A text reads back. -/
theorem readsBack_str (depth : Nat) (text : String) : ReadsBack (depth + 1) (.str text) := by
  intro rest _
  rw [compact, quoted, List.append_assoc, List.cons_append, readJson, if_pos rfl, List.singleton_append,
    unquote_quoted]
  simp

/-- Null reads back. -/
theorem readsBack_null (depth : Nat) : ReadsBack (depth + 1) .null := by
  intro rest _
  have shown : compact quoted .null ++ rest = 'n' :: 'u' :: 'l' :: 'l' :: rest := by
    rw [compact]
    rfl
  rw [shown, readJson]
  simp

/-- An integer reads back. -/
theorem readsBack_int (depth : Nat) (value : Int) : ReadsBack (depth + 1) (.int value) := by
  intro rest apart
  rw [compact]
  have digits : ∀ c ∈ Nat.toDigits 10 value.natAbs, c.isDigit = true := fun c mem =>
    Nat.isDigit_of_mem_toDigits (by decide) (by decide) mem
  -- No digit follows, so the digits read are exactly those written.
  have taken : (Nat.toDigits 10 value.natAbs ++ rest).takeWhile Char.isDigit
      = Nat.toDigits 10 value.natAbs := by
    rw [List.takeWhile_append_of_pos digits]
    cases rest with
    | nil => simp
    | cons c rest => simp [apart c (by simp)]
  have dropped : (Nat.toDigits 10 value.natAbs ++ rest).dropWhile Char.isDigit = rest := by
    rw [List.dropWhile_append_of_pos digits]
    cases rest with
    | nil => simp
    | cons c rest => simp [apart c (by simp)]
  by_cases negative : value < 0
  · rw [decimal, if_pos negative, List.cons_append, readJson, taken, dropped]
    simp only [Nat.ofDigitChars_ten_toDigits, Nat.toDigits_ne_nil, if_false]
    have same : -(value.natAbs : Int) = value := by omega
    rw [same]
    rfl
  · rw [decimal, if_neg negative]
    have same : (value.natAbs : Int) = value := by omega
    cases written : Nat.toDigits 10 value.natAbs with
    | nil => exact absurd written Nat.toDigits_ne_nil
    | cons c more =>
      rw [written] at digits taken dropped
      have digit : c.isDigit = true := digits c (by simp)
      have other : ∀ d : Char, d.isDigit = false → c ≠ d := by
        rintro d notDigit rfl
        rw [digit] at notDigit
        cases notDigit
      rw [List.cons_append] at taken dropped ⊢
      rw [List.dropWhile_cons, if_pos digit] at dropped
      rw [readJson, if_neg (other '"' rfl), if_neg (other '[' rfl), if_neg (other '{' rfl),
        if_neg (other '-' rfl), if_pos digit, taken, dropped, ← written,
        Nat.ofDigitChars_ten_toDigits, same]

/-- Each text is followed by a comma or by the end, so there are no more texts than characters. -/
theorem length_le_commaSeparated (texts : List (List Char)) :
    texts.length ≤ (commaSeparated texts).length + 1 := by
  induction texts with
  | nil => simp
  | cons text texts ih =>
    cases texts with
    | nil => simp
    | cons next texts =>
      simp only [commaSeparated, List.length_append, List.length_cons] at ih ⊢
      omega

/-- Items that are read one by one are read in a row. -/
theorem readItems_commaSeparated {α : Type} {read : List Char → Option (α × List Char)}
    {close : Char} (mark : close.isDigit = false) (apart : close ≠ ',') {write : α → List Char}
    {items : List α} (nonempty : items ≠ []) (each : ∀ item ∈ items, ReadsAs read (write item) item) :
    ∀ fuel rest, items.length ≤ fuel →
      readItems read close fuel (commaSeparated (items.map write) ++ close :: rest)
        = some (items, rest) := by
  -- By induction on the items: a comma follows each but the last, which the closing mark follows.
  induction items with
  | nil => exact absurd rfl nonempty
  | cons item items ih =>
    intro fuel rest enough
    obtain ⟨fuel, rfl⟩ := Nat.exists_eq_add_one_of_ne_zero
      (by simp only [List.length_cons] at enough; omega : fuel ≠ 0)
    have first := each item (by simp)
    cases items with
    | nil =>
      have read := first (close :: rest) (by simpa using mark)
      simp only [List.map_cons, List.map_nil, commaSeparated, readItems, read,
        Option.bind_eq_bind, Option.bind_some, if_neg apart, if_pos]
    | cons next items =>
      have later := ih (by simp) (fun other mem => each other (by simp [mem])) fuel rest
        (by simpa using enough)
      have read := first (',' :: (commaSeparated ((next :: items).map write) ++ close :: rest))
        (by simp)
      rw [List.map_cons, List.map_cons, commaSeparated, List.append_assoc, List.cons_append,
        ← List.map_cons, readItems, read]
      simp only [Option.bind_eq_bind, Option.bind_some, if_true, later]

/-- A list of documents that read back one by one reads back. -/
theorem readsBack_arr {depth : Nat} {items : List Json} (nonempty : items ≠ [])
    (starts : ∀ item ∈ items, ∃ c more, compact quoted item = c :: more ∧ c ≠ ']')
    (each : ∀ item ∈ items, ReadsBack depth item) : ReadsBack (depth + 1) (.arr items) := by
  intro rest _
  have more := length_le_commaSeparated (items.map (compact quoted))
  rw [List.length_map] at more
  have read := @readItems_commaSeparated _ (readJson depth) ']' (by rfl) (by decide)
    (compact quoted) items nonempty each
    (commaSeparated (items.map (compact quoted)) ++ ']' :: rest).length rest
    (by simp only [List.length_append, List.length_cons]; omega)
  have unclosed : (commaSeparated (items.map (compact quoted)) ++ ']' :: rest).head? ≠ some ']' := by
    cases items with
    | nil => exact absurd rfl nonempty
    | cons item items =>
      obtain ⟨c, more, text, other⟩ := starts item (by simp)
      cases items <;> simpa [commaSeparated, text] using other
  rw [compact, List.append_assoc, List.cons_append, List.singleton_append, readJson,
    if_neg (by decide), if_pos rfl, if_neg unclosed, read]
  rfl

/-- A named document is read when the document is. -/
theorem readsAs_member {depth : Nat} (name : String) {item : Json} (each : ReadsBack depth item) :
    ReadsAs (readMember (readJson depth)) (quoted name ++ ':' :: compact quoted item)
      (name, item) := by
  intro rest apart
  rw [quoted, List.append_assoc, List.cons_append, List.cons_append, List.append_assoc, readMember,
    List.singleton_append, unquote_quoted]
  simp only [Option.bind_eq_bind, Option.bind_some, List.cons_append]
  rw [each rest apart]
  simp

/-- An object whose members read back one by one reads back. -/
theorem readsBack_obj {depth : Nat} {fields : List (String × Json)}
    (each : ∀ field ∈ fields, ReadsBack depth field.2) : ReadsBack (depth + 1) (.obj fields) := by
  intro rest _
  by_cases empty : fields = []
  · -- Nothing but the two braces is read.
    subst empty
    simp [compact, commaSeparated, readJson]
  rename' empty => nonempty
  let write (field : String × Json) := quoted field.1 ++ ':' :: compact quoted field.2
  have more := length_le_commaSeparated (fields.map write)
  rw [List.length_map] at more
  have read := @readItems_commaSeparated _ (readMember (readJson depth)) '}' (by rfl) (by decide)
    write fields nonempty (fun field mem => readsAs_member field.1 (each field mem))
    (commaSeparated (fields.map write) ++ '}' :: rest).length rest
    (by simp only [List.length_append, List.length_cons]; omega)
  -- The first name starts with a quotation mark.
  have unclosed : (commaSeparated (fields.map write) ++ '}' :: rest).head? ≠ some '}' := by
    cases fields with
    | nil => exact absurd rfl nonempty
    | cons field fields => cases fields <;> simp [commaSeparated, write, quoted]
  rw [compact, List.append_assoc, List.cons_append, List.singleton_append, readJson,
    if_neg (by decide), if_neg (by decide), if_pos rfl, if_neg unclosed, read]
  rfl

/--
A document that says the same to every reader, and that a reader nests so deep to read.

It is made of texts, whole numbers and nulls, in objects that have every name once.
-/
inductive Json.Plain : Nat → Json → Prop where
  | null (depth : Nat) : Plain (depth + 1) .null
  | int (depth : Nat) (value : Int) : Plain (depth + 1) (.int value)
  | str (depth : Nat) (text : String) : Plain (depth + 1) (.str text)
  | obj {depth : Nat} {fields : List (String × Json)} (distinct : (fields.map (·.1)).Nodup)
      (each : ∀ field ∈ fields, Plain depth field.2) : Plain (depth + 1) (.obj fields)

/-- A plain document reads back. -/
theorem Json.Plain.readsBack {depth : Nat} {json : Json} (plain : json.Plain depth) :
    ReadsBack depth json := by
  -- By induction on how the document is built, the members of an object before the object.
  induction plain with
  | null depth => exact readsBack_null depth
  | int depth value => exact readsBack_int depth value
  | str depth text => exact readsBack_str depth text
  | obj _ _ ih => exact readsBack_obj ih

end Reading

end MirrorV3.Ndjson
