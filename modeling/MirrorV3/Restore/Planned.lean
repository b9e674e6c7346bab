import MirrorV3.Fs.Accepted
import MirrorV3.Restore.Chain

/-! A restore plans exactly the listings that the mirror itself would go on from. -/

namespace MirrorV3

open Results

/-- A name is planned as an object: it is read as the object's range and key. -/
structure PlannedAs (format : Format) (name : String) (object : ChainObject) : Prop where
  named : object.name = name
  ordered : object.lo ≤ object.hi
  parsed : parseBlobName name format.extension = some ⟨object.lo, object.hi, object.keyId⟩

section Planning

variable {format : Format} {name : String} {names : List String} {object : ChainObject}
  {objects : List ChainObject} {keyring : Option Keyring} {start expected : Nat}

/-- An object is taken from a name exactly when the name is planned as it. -/
theorem chainObject_eq_ok : chainObject format name = .ok object ↔ PlannedAs format name object := by
  constructor
  · intro taken
    simp only [chainObject] at taken
    split at taken
    · cases taken
    · rename_i blob parsed
      split at taken
      · cases taken
      · rename_i ordered
        cases taken
        exact ⟨rfl, by simpa using ordered, parsed⟩
  · rintro ⟨rfl, ordered, parsed⟩
    simp [chainObject, parsed, Nat.not_lt.mpr ordered]

/-- What is planned is read as an entry of the same range. -/
theorem PlannedAs.readAs (planned : PlannedAs format name object) :
    ReadAs format name object.entry :=
  ⟨planned.named, planned.ordered, object.keyId, planned.parsed⟩

/-- Entries have no gap exactly when the objects adjoin, and end where the last of them does. -/
theorem contiguous_entries {durable : Nat} :
    contiguous expected (objects.map (·.entry)) = .ok durable
      ↔ adjoining expected objects = .ok ()
        ∧ durable = (objects.getLast?.map fun o => addOne o.hi).getD expected := by
  induction objects generalizing expected with
  | nil =>
    simp only [contiguous, adjoining, List.map_nil, List.getLast?_nil, Option.map_none,
      Option.getD_none, Except.ok.injEq, true_and]
    exact eq_comm
  | cons object objects ih =>
    have ends : ((object :: objects).getLast?.map fun o => addOne o.hi).getD expected
        = (objects.getLast?.map fun o => addOne o.hi).getD (addOne object.hi) := by
      cases objects with
      | nil => rfl
      | cons next objects =>
        rw [List.getLast?_cons_cons]
        cases at_end : (next :: objects).getLast? with
        | none => simp at at_end
        | some last => rfl
    rw [ends, adjoining, List.map_cons, contiguous]
    show ite (object.lo ≠ expected) _ (contiguous (addOne object.hi) _) = _ ↔ _
    -- A gap and an overlap are told apart by one side and not by the other.
    rcases Nat.lt_trichotomy object.lo expected with overlap | same | gap
    · rw [if_pos (by omega), if_neg (by omega), if_pos overlap]
      simp
    · rw [if_neg (by omega), if_neg (by omega), if_neg (by omega)]
      exact ih
    · rw [if_pos (by omega), if_pos gap]
      simp

/-- The lowest start of objects in order that adjoin is where they start. -/
theorem min_lo_of_adjoining {read : List ChainObject}
    (some_ : read ≠ [])
    (adjoins : adjoining start (read.mergeSort fun a b => a.entry.before b.entry) = .ok ()) :
    (read.map (·.lo)).min? = some start := by
  have shuffled := List.mergeSort_perm read fun a b => a.entry.before b.entry
  have sorted := @List.pairwise_mergeSort _ (fun a b : ChainObject => a.entry.before b.entry)
    (fun a b c => ChainEntry.before_trans) (fun a b => ChainEntry.before_total _ _) read
  generalize (read.mergeSort fun a b => a.entry.before b.entry) = inOrder at *
  cases inOrder with
  | nil => exact absurd shuffled.nil_eq.symm some_
  | cons first rest =>
    have starts : first.lo = start := by
      rw [adjoining] at adjoins
      by_contra differ
      rcases Nat.lt_or_gt_of_ne differ with overlap | gap
      · rw [if_neg (by omega), if_pos overlap] at adjoins
        cases adjoins
      · rw [if_pos gap] at adjoins
        cases adjoins
    rw [List.min?_eq_some_iff]
    refine ⟨starts ▸ List.mem_map_of_mem (shuffled.mem_iff.mp List.mem_cons_self), fun lo mem => ?_⟩
    obtain ⟨object, listed, rfl⟩ := List.mem_map.mp mem
    rcases List.mem_cons.mp (shuffled.mem_iff.mpr listed) with rfl | later
    · exact Nat.le_of_eq starts.symm
    · -- In the order of ranges nothing starts before the first.
      have before := (List.pairwise_cons.mp sorted).1 object later
      rw [ChainEntry.before_iff] at before
      simp only [ChainObject.entry] at before
      omega

/-- A listing is planned exactly when it is read, not empty, adjoins, and lacks no key. -/
theorem planChain_ok_iff :
    planChain names format start keyring = .ok objects
      ↔ ∃ read, List.Forall₂ (PlannedAs format) names read ∧ read ≠ []
        ∧ objects = read.mergeSort (fun a b => a.entry.before b.entry)
        ∧ adjoining start objects = .ok () ∧ missingKeys keyring objects = [] := by
  have reads : ∀ read, names.mapM (chainObject format) = .ok read
      ↔ List.Forall₂ (PlannedAs format) names read := by
    intro read
    simp only [mapM_ok_iff, chainObject_eq_ok]
  constructor
  · intro planned
    obtain ⟨read, listed, planned⟩ := of_bind_ok planned
    cases least : (read.map (·.lo)).min? with
    | none =>
      rw [least] at planned
      cases planned
    | some first =>
      rw [least] at planned
      have some_ : read ≠ [] := by
        rintro rfl
        cases least
      dsimp only at planned
      split at planned
      · cases planned
      · obtain ⟨⟨⟩, adjoins, planned⟩ := of_bind_ok planned
        split at planned
        · rename_i held
          cases planned
          exact ⟨read, (reads read).mp listed, some_, rfl, adjoins, held⟩
        · cases planned
  · rintro ⟨read, listed, some_, rfl, adjoins, held⟩
    have least := min_lo_of_adjoining some_ adjoins
    unfold planChain
    rw [(reads read).mpr listed]
    simp only [bind, Except.bind, least]
    rw [adjoins, held, if_neg (not_not_intro rfl)]
    rfl

/-- Where every key is held none is missing. -/
theorem missingKeys_eq_nil (held : ∀ object ∈ objects, ∀ id ∈ object.keyId,
    holdsKey keyring id = true) : missingKeys keyring objects = [] := by
  unfold missingKeys
  induction objects with
  | nil => rfl
  | cons object objects ih =>
    have rest := ih fun other mem => held other (List.mem_cons_of_mem _ mem)
    rw [List.foldl_cons]
    cases key : object.keyId with
    | none => exact rest
    | some id =>
      simp only [held object List.mem_cons_self id key, Bool.true_eq_false, false_and, if_false]
      exact rest

/-- Names that are read as entries are planned as objects of these entries. -/
theorem plannedAs_of_readAs {entries : List ChainEntry}
    (reads : List.Forall₂ (ReadAs format) names entries) :
    ∃ read, List.Forall₂ (PlannedAs format) names read ∧ read.map (·.entry) = entries := by
  induction reads with
  | nil => exact ⟨[], .nil, rfl⟩
  | cons first _ ih =>
    rename_i name entry _ _ _
    obtain ⟨read, planned, same⟩ := ih
    obtain ⟨keyId, parsed⟩ := first.parsed
    refine ⟨⟨entry.name, entry.lo, entry.hi, keyId⟩ :: read,
      .cons ⟨first.named, first.ordered, parsed⟩ planned, ?_⟩
    rw [List.map_cons, same]
    rfl

/-- Objects are sorted as their entries are. -/
theorem map_entry_mergeSort (read : List ChainObject) :
    (read.mergeSort fun a b => a.entry.before b.entry).map (·.entry)
      = (read.map (·.entry)).mergeSort ChainEntry.before :=
  List.map_mergeSort fun _ _ _ _ => rfl

/-- What is planned from the start of a topic the mirror goes on from, and where the plan ends. -/
theorem validateChain_of_planChain (planned : planChain names format 0 keyring = .ok objects) :
    validateChain names format none
      = .ok ⟨(objects.getLast?.map fun o => addOne o.hi).getD 0, none,
          (objects.drop (objects.length - 2)).map (·.name)⟩ := by
  obtain ⟨read, reads, -, rfl, adjoins, -⟩ := planChain_ok_iff.mp planned
  have gapless := contiguous_entries.mpr ⟨adjoins, rfl⟩
  rw [map_entry_mergeSort] at gapless
  refine validateChain_append.mpr ⟨read.map (·.entry), ?_, gapless, rfl, ?_⟩
  · exact List.forall₂_map_right_iff.mpr (reads.imp fun _ _ planned => planned.readAs)
  · rw [← map_entry_mergeSort, tailOf, List.length_map, ← List.map_drop, List.map_map]
    rfl

/-- What the mirror goes on from is planned, unless there is nothing or a key is missing. -/
theorem planChain_of_validateChain {chain : Chain} (some_ : names ≠ [])
    (held : ∀ name ∈ names, ∀ blob ∈ parseBlobName name format.extension, ∀ id ∈ blob.keyId,
      holdsKey keyring id = true)
    (valid : validateChain names format none = .ok chain) :
    ∃ objects, planChain names format 0 keyring = .ok objects := by
  obtain ⟨entries, reads, gapless, -, -⟩ := validateChain_append.mp valid
  obtain ⟨read, planned, rfl⟩ := plannedAs_of_readAs reads
  refine ⟨_, planChain_ok_iff.mpr ⟨read, planned, ?_, rfl, ?_, ?_⟩⟩
  · rintro rfl
    cases planned
    exact some_ rfl
  · rw [← map_entry_mergeSort] at gapless
    exact (contiguous_entries.mp gapless).1
  · apply missingKeys_eq_nil
    intro object mem id key
    obtain ⟨name, listed, planned⟩ := Effect.exists_after_of_forall₂ planned.flip
      ((List.mergeSort_perm _ _).mem_iff.mp mem)
    exact held name listed _ planned.parsed id key

end Planning

section Starts

variable {entries others : List ChainEntry} {start expected durable : Nat}

/-- Entries have one sorted order. -/
theorem mergeSort_before_eq (shuffled : others.Perm entries)
    (sorted : others.Pairwise (·.before · = true)) :
    entries.mergeSort ChainEntry.before = others :=
  List.Perm.eq_of_pairwise (fun _ _ _ _ ab ba => ChainEntry.before_antisymm ab ba)
    (List.pairwise_mergeSort (fun a b c => @ChainEntry.before_trans a b c) ChainEntry.before_total _)
    sorted ((List.mergeSort_perm _ _).trans shuffled.symm)

/-- Behind a range of all positions only ranges of all positions can follow in order. -/
theorem lo_eq_zero_of_full {full : ChainEntry} (low : full.lo = 0) (high : full.hi = 2 ^ 64 - 1)
    (before : ∀ entry ∈ entries, full.before entry = true)
    (inRange : ∀ entry ∈ entries, entry.hi < 2 ^ 64)
    (gapless : contiguous 0 entries = .ok durable) : ∀ entry ∈ entries, entry.lo = 0 := by
  induction entries with
  | nil => simp
  | cons entry entries ih =>
    have first := before entry List.mem_cons_self
    have below := inRange entry List.mem_cons_self
    rw [ChainEntry.before_iff] at first
    rw [contiguous] at gapless
    split at gapless
    · cases gapless
    · rename_i starts
      have starts : entry.lo = 0 := by simpa using starts
      -- It reaches the last position as well, so the successor wraps to the first again.
      have wraps : addOne entry.hi = 0 := by
        rw [show entry.hi = 2 ^ 64 - 1 by omega]
        decide
      rw [wraps] at gapless
      intro other mem
      rcases List.mem_cons.mp mem with rfl | later
      · exact starts
      · exact ih (fun x mem => before x (List.mem_cons_of_mem _ mem))
          (fun x mem => inRange x (List.mem_cons_of_mem _ mem)) gapless other later

/-- What is left of a chain that something starts in at a position has no gap from there. -/
theorem contiguous_filter (sorted : entries.Pairwise (·.before · = true))
    (regular : ∀ entry ∈ entries, entry.lo ≤ entry.hi ∧ entry.hi < 2 ^ 64)
    (gapless : contiguous expected entries = .ok durable)
    (starts : ∃ entry ∈ entries, entry.lo = start) :
    contiguous start (entries.filter (start ≤ ·.hi)) = .ok durable := by
  induction entries generalizing expected with
  | nil =>
    obtain ⟨entry, mem, -⟩ := starts
    cases mem
  | cons entry entries ih =>
    obtain ⟨before, sorted⟩ := List.pairwise_cons.mp sorted
    have above : ∀ other ∈ entries, entry.lo ≤ other.lo := by
      intro other mem
      have := before other mem
      rw [ChainEntry.before_iff] at this
      omega
    obtain ⟨ordered, below⟩ := regular entry List.mem_cons_self
    have regular' : ∀ other ∈ entries, other.lo ≤ other.hi ∧ other.hi < 2 ^ 64 :=
      fun other mem => regular other (List.mem_cons_of_mem _ mem)
    have here : entry.lo = expected := by
      rw [contiguous] at gapless
      split at gapless
      · cases gapless
      · rename_i same
        simpa using same
    by_cases first : entry.lo = start
    · -- Nothing is below the start, so nothing is left out.
      have all : (entry :: entries).filter (start ≤ ·.hi) = entry :: entries := by
        rw [List.filter_eq_self]
        intro other mem
        rcases List.mem_cons.mp mem with rfl | later
        · simp only [decide_eq_true_eq]
          omega
        · have := above other later
          have := (regular' other later).1
          simp only [decide_eq_true_eq]
          omega
      rw [all, ← first, here]
      exact gapless
    · obtain ⟨found, mem, same⟩ := starts
      have later : found ∈ entries := by
        rcases List.mem_cons.mp mem with rfl | later
        · exact absurd same first
        · exact later
      have up := above found later
      rw [contiguous, if_neg (not_not_intro here)] at gapless
      rcases Nat.lt_or_eq_of_le (Nat.le_sub_one_of_lt below) with inside | full
      · -- The next range starts past this one, and what starts at the position is there or later.
        rw [addOne_eq (by omega)] at gapless
        have past : entry.hi < start := by
          cases entries with
          | nil => cases later
          | cons next entries =>
            have adjoins : next.lo = entry.hi + 1 := by
              rw [contiguous] at gapless
              split at gapless
              · cases gapless
              · rename_i same
                simpa using same
            rcases List.mem_cons.mp later with rfl | after
            · omega
            · have := (List.pairwise_cons.mp sorted).1 found after
              rw [ChainEntry.before_iff] at this
              omega
        rw [List.filter_cons_of_neg (by simpa using past)]
        exact ih sorted regular' gapless ⟨found, later, same⟩
      · -- The successor wraps, and nothing would start anywhere but at zero.
        have wraps : addOne entry.hi = 0 := by
          rw [full]
          decide
        rw [wraps] at gapless
        have zero : entry.lo = 0 := by
          cases entries with
          | nil => cases later
          | cons next entries =>
            have adjoins : next.lo = 0 := by
              rw [contiguous] at gapless
              split at gapless
              · cases gapless
              · rename_i same
                simpa using same
            have := above next List.mem_cons_self
            omega
        have stuck := lo_eq_zero_of_full zero full before (fun other mem => (regular' other mem).2)
          gapless found later
        omega

end Starts

/-- Whether a name is not one of an object below a position. -/
def notBelow (format : Format) (position : Nat) (name : String) : Bool :=
  (parseBlobName name format.extension).all (position ≤ ·.hi)

section Parts

variable {format : Format} {names whole : List String} {objects : List ChainObject}
  {keyring : Option Keyring} {start : Nat}

/-- What is not below a position is read as the entries that are not below it. -/
theorem reads_filter {entries : List ChainEntry}
    (reads : List.Forall₂ (ReadAs format) whole entries) :
    List.Forall₂ (ReadAs format) (whole.filter (notBelow format start))
      (entries.filter (start ≤ ·.hi)) := by
  induction reads with
  | nil => exact .nil
  | cons first _ ih =>
    rename_i name entry _ _ _
    obtain ⟨keyId, parsed⟩ := first.parsed
    have same : notBelow format start name = decide (start ≤ entry.hi) := by
      rw [notBelow, parsed]
      rfl
    rw [List.filter_cons, List.filter_cons, same]
    split
    · exact .cons first ih
    · exact ih

/-- What a plan from a position starts with is an object that starts there. -/
theorem starts_of_planChain (planned : planChain names format start keyring = .ok objects) :
    (∃ object ∈ objects, object.lo = start) ∧ ∀ object ∈ objects, start ≤ object.lo := by
  obtain ⟨read, reads, some_, rfl, adjoins, -⟩ := planChain_ok_iff.mp planned
  obtain ⟨mem, least⟩ := List.min?_eq_some_iff.mp (min_lo_of_adjoining some_ adjoins)
  obtain ⟨object, listed, starts⟩ := List.mem_map.mp mem
  have shuffled := List.mergeSort_perm read fun a b => a.entry.before b.entry
  refine ⟨⟨object, shuffled.mem_iff.mpr listed, starts⟩, fun other mem => ?_⟩
  exact least _ (List.mem_map_of_mem (shuffled.mem_iff.mp mem))

/-- A plan from a position is of names one of which starts there. -/
theorem exists_start (planned : planChain names format start keyring = .ok objects) :
    ∃ name ∈ names, ∃ blob ∈ parseBlobName name format.extension, blob.lo = start := by
  obtain ⟨⟨object, mem, starts⟩, -⟩ := starts_of_planChain planned
  obtain ⟨read, reads, -, rfl, -, -⟩ := planChain_ok_iff.mp planned
  obtain ⟨name, listed, planned⟩ := Effect.exists_after_of_forall₂ reads.flip
    ((List.mergeSort_perm _ _).mem_iff.mp mem)
  exact ⟨name, listed, _, planned.parsed, starts⟩

/-- What is planned from a position is what is left of some chain from the start of the topic. -/
theorem whole_of_planChain (planned : planChain names format start keyring = .ok objects) :
    ∃ whole chain, validateChain whole format none = .ok chain
      ∧ (∃ name ∈ whole, ∃ blob ∈ parseBlobName name format.extension, blob.lo = start)
      ∧ names = whole.filter (notBelow format start) := by
  have here := exists_start planned
  have inRange : start < 2 ^ 64 := by
    obtain ⟨name, -, blob, parsed, starts⟩ := here
    exact starts ▸ (lt_of_parseBlobName parsed).1
  obtain ⟨-, above⟩ := starts_of_planChain planned
  obtain ⟨read, reads, -, rfl, adjoins, -⟩ := planChain_ok_iff.mp planned
  have shuffled := List.mergeSort_perm read fun a b => a.entry.before b.entry
  -- None of the names planned is one below the start.
  have kept : ∀ name ∈ names, notBelow format start name = true := by
    intro name listed
    obtain ⟨object, mem, planned⟩ := Effect.exists_after_of_forall₂ reads listed
    have := above object (shuffled.mem_iff.mpr mem)
    have := planned.ordered
    rw [notBelow, planned.parsed]
    simp only [Option.all_some, decide_eq_true_eq]
    omega
  have entries : List.Forall₂ (ReadAs format) names (read.map (·.entry)) :=
    List.forall₂_map_right_iff.mpr (reads.imp fun _ _ planned => planned.readAs)
  obtain ⟨durable, gapless⟩ : ∃ durable,
      contiguous start ((read.map (·.entry)).mergeSort ChainEntry.before) = .ok durable := by
    rw [← map_entry_mergeSort]
    exact ⟨_, contiguous_entries.mpr ⟨adjoins, rfl⟩⟩
  rcases Nat.eq_zero_or_pos start with rfl | positive
  · exact ⟨names, _, validateChain_of_planChain planned, here, (List.filter_eq_self.mpr kept).symm⟩
  · -- One object of everything below the start makes the chain whole.
    obtain ⟨ahead, named⟩ : ∃ ahead, ahead = blobFilename 0 (start - 1) none format.extension :=
      ⟨_, rfl⟩
    have parsed : parseBlobName ahead format.extension = some ⟨0, start - 1, none⟩ := by
      rw [named]
      exact parseBlobName_blobFilename _ (by decide) (by omega) (by simp)
    have sorted : (⟨0, start - 1, ahead⟩ :: read.map (·.entry)).mergeSort ChainEntry.before
        = ⟨0, start - 1, ahead⟩ :: (read.map (·.entry)).mergeSort ChainEntry.before := by
      apply mergeSort_before_eq ((List.mergeSort_perm _ _).cons _)
      refine List.pairwise_cons.mpr ⟨fun entry mem => ?_,
        List.pairwise_mergeSort (fun a b c => @ChainEntry.before_trans a b c)
          ChainEntry.before_total _⟩
      obtain ⟨object, listed, rfl⟩ := List.mem_map.mp ((List.mergeSort_perm _ _).mem_iff.mp mem)
      have := above object (shuffled.mem_iff.mpr listed)
      exact ChainEntry.before_iff.mpr (.inl (by show 0 < object.lo; omega))
    have reaches : addOne (start - 1) = start := by
      rw [addOne_eq (by omega)]
      omega
    refine ⟨ahead :: names, ⟨durable, none, _⟩, validateChain_append.mpr
      ⟨⟨0, start - 1, ahead⟩ :: read.map (·.entry),
        .cons ⟨rfl, Nat.zero_le _, none, parsed⟩ entries, ?_, rfl, rfl⟩, ?_, ?_⟩
    · rw [sorted, contiguous, if_neg (not_not_intro rfl), reaches]
      exact gapless
    · obtain ⟨name, listed, starts⟩ := here
      exact ⟨name, List.mem_cons_of_mem _ listed, starts⟩
    · have left : notBelow format start ahead = false := by
        rw [notBelow, parsed]
        simp only [Option.all_some, decide_eq_false_iff_not]
        omega
      rw [List.filter_cons_of_neg (by simp [left]), List.filter_eq_self.mpr kept]

/-- What is left of a chain from one of its objects on is planned from there. -/
theorem planChain_of_whole {chain : Chain}
    (held : ∀ name ∈ whole.filter (notBelow format start),
      ∀ blob ∈ parseBlobName name format.extension, ∀ id ∈ blob.keyId,
        holdsKey keyring id = true)
    (valid : validateChain whole format none = .ok chain)
    (starts : ∃ name ∈ whole, ∃ blob ∈ parseBlobName name format.extension, blob.lo = start) :
    ∃ objects, planChain (whole.filter (notBelow format start)) format start keyring
      = .ok objects := by
  obtain ⟨entries, reads, gapless, -, -⟩ := validateChain_append.mp valid
  have remaining := @reads_filter _ _ start _ reads
  obtain ⟨read, planned, same⟩ := plannedAs_of_readAs remaining
  have sorted := List.pairwise_mergeSort (fun a b c => @ChainEntry.before_trans a b c)
    ChainEntry.before_total entries
  have shuffled := List.mergeSort_perm entries ChainEntry.before
  -- Sorting what is left is leaving out of what is sorted.
  have inOrder : (read.map (·.entry)).mergeSort ChainEntry.before
      = (entries.mergeSort ChainEntry.before).filter (start ≤ ·.hi) := by
    rw [same]
    exact mergeSort_before_eq (shuffled.filter _) (sorted.filter _)
  have regular : ∀ entry ∈ entries.mergeSort ChainEntry.before,
      entry.lo ≤ entry.hi ∧ entry.hi < 2 ^ 64 := by
    intro entry mem
    obtain ⟨name, -, readAs⟩ := Effect.exists_after_of_forall₂ reads.flip (shuffled.mem_iff.mp mem)
    obtain ⟨keyId, parsed⟩ := readAs.parsed
    exact ⟨readAs.ordered, (lt_of_parseBlobName parsed).2⟩
  obtain ⟨name, listed, blob, parsed, starts⟩ := starts
  obtain ⟨entry, mem, readAs⟩ := Effect.exists_after_of_forall₂ reads listed
  obtain ⟨keyId, parsed'⟩ := readAs.parsed
  have starts : entry.lo = start := by
    rw [Option.mem_def.mp parsed] at parsed'
    cases parsed'
    exact starts
  have rest := contiguous_filter sorted regular gapless ⟨entry, shuffled.mem_iff.mpr mem, starts⟩
  rw [← inOrder, ← map_entry_mergeSort] at rest
  refine ⟨_, planChain_ok_iff.mpr ⟨read, planned, ?_, rfl, (contiguous_entries.mp rest).1, ?_⟩⟩
  · -- The object that starts there is left itself.
    rintro rfl
    have kept : entry ∈ entries.filter (start ≤ ·.hi) := by
      have := readAs.ordered
      exact List.mem_filter.mpr ⟨mem, by simpa using (by omega : start ≤ entry.hi)⟩
    rw [← same] at kept
    cases kept
  · apply missingKeys_eq_nil
    intro object mem id key
    obtain ⟨name, listed, planned⟩ := Effect.exists_after_of_forall₂ planned.flip
      ((List.mergeSort_perm _ _).mem_iff.mp mem)
    exact held name listed _ planned.parsed id key

end Parts

/--
The mirror and a restore agree on listings: from the start of a topic each accepts what the other
does, with the same end and the same last objects, and from a position the restore accepts what is
left of a chain in which an object starts there.
-/
theorem validators_agree (names : List String) (format : Format) (keyring : Option Keyring)
    (some_ : names ≠ [])
    (held : ∀ name ∈ names, ∀ blob ∈ parseBlobName name format.extension, ∀ id ∈ blob.keyId,
      holdsKey keyring id = true) :
    ((∃ objects, planChain names format 0 keyring = .ok objects)
        ↔ ∃ chain, validateChain names format none = .ok chain)
      ∧ (∀ objects chain, planChain names format 0 keyring = .ok objects →
        validateChain names format none = .ok chain →
        (objects.getLast?.map fun o => addOne o.hi) = some chain.durable
          ∧ chain.tail = (objects.drop (objects.length - 2)).map (·.name))
      ∧ ∀ start, (∃ objects, planChain names format start keyring = .ok objects)
        ↔ ∃ whole chain, validateChain whole format none = .ok chain
          ∧ (∃ name ∈ whole, ∃ blob ∈ parseBlobName name format.extension, blob.lo = start)
          ∧ names = whole.filter (notBelow format start) := by
  refine ⟨⟨?_, ?_⟩, fun objects chain planned valid => ?_, fun start => ⟨?_, ?_⟩⟩
  · rintro ⟨objects, planned⟩
    exact ⟨_, validateChain_of_planChain planned⟩
  · rintro ⟨chain, valid⟩
    exact planChain_of_validateChain some_ held valid
  · rw [validateChain_of_planChain planned] at valid
    cases valid
    -- A plan is never empty, so it ends with its last object.
    obtain ⟨⟨object, mem, -⟩, -⟩ := starts_of_planChain planned
    cases at_end : objects.getLast? with
    | none =>
      rw [List.getLast?_eq_none_iff.mp at_end] at mem
      cases mem
    | some last => exact ⟨rfl, rfl⟩
  · rintro ⟨objects, planned⟩
    exact whole_of_planChain planned
  · rintro ⟨whole, chain, valid, starts, rfl⟩
    exact planChain_of_whole held valid starts

namespace Sample

/-- The two agree on names that adjoin. -/
theorem validators_agree_adjoiningNames :
    adjoiningNames ≠ []
      ∧ ((∃ objects, planChain adjoiningNames .ndjson 0 none = .ok objects)
        ↔ ∃ chain, validateChain adjoiningNames .ndjson none = .ok chain)
      ∧ ∀ start, (∃ objects, planChain adjoiningNames .ndjson start none = .ok objects)
        ↔ ∃ whole chain, validateChain whole .ndjson none = .ok chain
          ∧ (∃ name ∈ whole, ∃ blob ∈ parseBlobName name Format.ndjson.extension, blob.lo = start)
          ∧ adjoiningNames = whole.filter (notBelow .ndjson start) := by
  have agree := validators_agree adjoiningNames .ndjson none (by decide) (by decide +kernel)
  exact ⟨by decide, agree.1, agree.2.2⟩

/-- A chain of three objects, the second of which holds offset 5 inside its range. -/
def straddled : List String := ["0-2.ndjson", "3-7.ndjson", "8-9.ndjson"]

/-- The three objects are a chain of ten offsets. -/
theorem validateChain_straddled :
    validateChain straddled .ndjson none = .ok ⟨10, none, ["3-7.ndjson", "8-9.ndjson"]⟩ := by
  have reads : List.Forall₂ (ReadAs .ndjson) straddled
      [⟨0, 2, "0-2.ndjson"⟩, ⟨3, 7, "3-7.ndjson"⟩, ⟨8, 9, "8-9.ndjson"⟩] :=
    .cons ⟨rfl, by decide, none, by decide +kernel⟩
      (.cons ⟨rfl, by decide, none, by decide +kernel⟩
        (.cons ⟨rfl, by decide, none, by decide +kernel⟩ .nil))
  -- The names are listed in the order of their ranges.
  refine validateChain_append.mpr ⟨_, reads, ?_⟩
  rw [List.mergeSort_of_pairwise (by decide)]
  decide

/--
No plan starts inside an object, whether the object that holds the position is left or removed.

So not everything that a chain leaves from a position on is planned from there.
-/
theorem planChain_straddled :
    (∃ chain, validateChain straddled .ndjson none = .ok chain)
      ∧ straddled.filter (notBelow .ndjson 5) = ["3-7.ndjson", "8-9.ndjson"]
      ∧ (¬ ∃ objects, planChain ["3-7.ndjson", "8-9.ndjson"] .ndjson 5 none = .ok objects)
      ∧ straddled.filter (fun name => (parseBlobName name "ndjson").all (5 ≤ ·.lo)) = ["8-9.ndjson"]
      ∧ ¬ ∃ objects, planChain ["8-9.ndjson"] .ndjson 5 none = .ok objects := by
  refine ⟨⟨_, validateChain_straddled⟩, by decide +kernel, ?_, by decide +kernel, ?_⟩
  · rintro ⟨objects, planned⟩
    have starts := exists_start planned
    revert starts
    decide +kernel
  · rintro ⟨objects, planned⟩
    have starts := exists_start planned
    revert starts
    decide +kernel

end Sample

end MirrorV3
