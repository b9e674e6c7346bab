import Mathlib.Data.List.Perm.Basic
import MirrorV3.Fs.Snapshots
import MirrorV3.Lib.Fanout
import MirrorV3.Lib.Ranges
import MirrorV3.Lib.Results

/-! A listing is accepted exactly when its names read as ranges that form a chain. -/

namespace MirrorV3

open Ranges Results

/-- The range an entry covers. -/
def ChainEntry.range (entry : ChainEntry) : Nat × Nat := (entry.lo, entry.hi)

/-- A name is read as an entry: it is a blob name of the format, with its range the right way round. -/
structure ReadAs (format : Format) (name : String) (entry : ChainEntry) : Prop where
  named : entry.name = name
  ordered : entry.lo ≤ entry.hi
  parsed : ∃ keyId, parseBlobName name format.extension = some ⟨entry.lo, entry.hi, keyId⟩

/-- The last two names of entries in the order of their ranges. -/
def LastTwo (entries : List ChainEntry) (tail : List String) : Prop :=
  ∃ ordered : List ChainEntry, ordered.Perm entries ∧ ordered.Pairwise (·.hi < ·.lo)
    ∧ tail = tailOf ordered

/-- What an append-mode listing says when it can be continued. -/
structure AppendChain (entries : List ChainEntry) (chain : Chain) : Prop where
  tiling : Tiling 0 chain.durable (entries.map (·.range))
  latest : chain.latest = none
  tail : LastTwo entries chain.tail

/-- What a listing of snapshots says when it can be continued. -/
structure LogChain (entries : List ChainEntry) (chain : Chain) : Prop where
  apart : entries.Pairwise fun a b => a.hi < b.lo ∨ b.hi < a.lo
  newest : (entries = [] ∧ chain.durable = 0 ∧ chain.latest = none)
    ∨ ∃ last ∈ entries, (∀ entry ∈ entries, entry.hi ≤ last.hi) ∧ chain.durable = last.hi + 1
      ∧ chain.latest = some last.name
  tail : LastTwo entries chain.tail

/-- What a listing says in either mode. -/
def IsChain (compaction : Option CompactionMode) (entries : List ChainEntry) (chain : Chain) :
    Prop :=
  match compaction with
  | none => AppendChain entries chain
  | some .log => LogChain entries chain

section Reading

variable {format : Format} {name : String} {entry : ChainEntry}

/-- A name that is read with an extension has that extension. -/
theorem fileExtension_of_parse {blob : BlobName}
    (parsed : parseBlobName name format.extension = some blob) :
    fileExtension name = some format.extension := by
  have dotless : '.' ∉ format.extension.toList := by cases format <;> decide
  -- The extension and the dot before it are the end of the name.
  have suffix : '.' :: format.extension.toList <:+ name.toList := by
    by_contra other
    simp [parseBlobName, Text.stripSuffix, other] at parsed
  obtain ⟨stem, split⟩ := suffix
  rw [fileExtension, ← split, Text.afterLast_append stem dotless, Option.map_some,
    String.ofList_toList]

/-- An entry is taken from a name exactly when the name is read as it. -/
theorem chainEntry_eq_ok : chainEntry format name = .ok entry ↔ ReadAs format name entry := by
  constructor
  · intro taken
    simp only [chainEntry] at taken
    split at taken
    · cases taken
    · split at taken
      · cases taken
      · rename_i blob parsed
        split at taken
        · cases taken
        · rename_i ordered
          cases taken
          exact ⟨rfl, by simpa using ordered, blob.keyId, parsed⟩
  · rintro ⟨rfl, ordered, keyId, parsed⟩
    have extension := fileExtension_of_parse parsed
    simp [chainEntry, extension, Option.filter, parsed, Nat.not_lt.mpr ordered]

end Reading

section Sweeps

variable {entries others : List ChainEntry} {start durable : Nat}

/-- A sweep for gaps accepts the chains, and answers where they end. -/
theorem contiguous_eq_ok
    (regular : ∀ entry ∈ entries, entry.lo ≤ entry.hi ∧ entry.hi + 1 < 2 ^ 64) :
    contiguous start entries = .ok durable
      ↔ Ranges.Chained start (entries.map (·.range))
        ∧ durable = reached start (entries.map (·.range)) := by
  induction entries generalizing start with
  | nil =>
    simp only [contiguous, List.map_nil, Ranges.Chained, reached_nil, true_and, Except.ok.injEq]
    exact eq_comm
  | cons entry entries ih =>
    obtain ⟨ordered, inRange⟩ := regular entry List.mem_cons_self
    have rest := @ih (addOne entry.hi) fun other mem => regular other (List.mem_cons_of_mem _ mem)
    rw [addOne_eq inRange] at rest
    simp only [contiguous, List.map_cons, reached_cons]
    rw [addOne_eq inRange]
    by_cases starts : entry.lo = start
    · -- The next range has to start one past this one.
      rw [if_neg (not_not_intro starts), rest]
      simp only [Ranges.Chained, ChainEntry.range, starts, starts ▸ ordered, true_and]
    · rw [if_pos starts]
      simp only [reduceCtorEq, Ranges.Chained, ChainEntry.range, starts, false_and]

/-- A sweep for overlaps accepts ranges that each start past the one before, and answers the last. -/
theorem disjoint_eq_ok {prior last : Option Nat} (regular : ∀ entry ∈ entries, entry.lo ≤ entry.hi) :
    disjoint prior entries = .ok last
      ↔ (∀ hi ∈ prior, ∀ entry ∈ entries, hi < entry.lo) ∧ entries.Pairwise (·.hi < ·.lo)
        ∧ last = (entries.getLast?.map (·.hi)).or prior := by
  induction entries generalizing prior with
  | nil =>
    simp only [disjoint, Except.ok.injEq, List.not_mem_nil, false_imp_iff, implies_true,
      List.Pairwise.nil, List.getLast?_nil, Option.map_none, Option.none_or, true_and]
    exact eq_comm
  | cons entry entries ih =>
    have ordered := regular entry List.mem_cons_self
    have rest := @ih (some entry.hi) fun other mem => regular other (List.mem_cons_of_mem _ mem)
    have ends : ((entry :: entries).getLast?.map (·.hi)).or prior
        = (entries.getLast?.map (·.hi)).or (some entry.hi) := by
      cases entries with
      | nil => rfl
      | cons next entries =>
        rw [List.getLast?_cons_cons]
        cases at_end : (next :: entries).getLast? with
        | none => simp at at_end
        | some last => rfl
    rw [ends, List.pairwise_cons]
    simp only [disjoint]
    cases overlaps : prior.filter (fun hi => decide (entry.lo ≤ hi)) with
    | some hi =>
      obtain ⟨known, above⟩ := Option.filter_eq_some_iff.mp overlaps
      have above : entry.lo ≤ hi := of_decide_eq_true above
      simp only [reduceCtorEq, false_iff]
      rintro ⟨below, -⟩
      have := below hi known entry List.mem_cons_self
      omega
    | none =>
      have below : ∀ hi ∈ prior, hi < entry.lo := by
        intro hi known
        have := Option.filter_eq_none_iff.mp overlaps hi known
        simpa using this
      rw [rest]
      constructor
      · rintro ⟨later, apart, at_end⟩
        refine ⟨fun hi known other mem => ?_, ⟨later entry.hi rfl, apart⟩, at_end⟩
        -- What starts past this range starts past all before it.
        have here := below hi known
        rcases List.mem_cons.mp mem with rfl | mem
        · exact here
        · have := later entry.hi rfl other mem
          omega
      · rintro ⟨-, ⟨later, apart⟩, at_end⟩
        refine ⟨fun hi known => ?_, apart, at_end⟩
        cases known
        exact later

/-- Ranges that go up are in one order only. -/
theorem eq_of_ascending (regular : ∀ entry ∈ entries, entry.lo ≤ entry.hi)
    (shuffled : others.Perm entries) (ascending : entries.Pairwise (·.hi < ·.lo))
    (ascending' : others.Pairwise (·.hi < ·.lo)) : others = entries := by
  refine List.Perm.eq_of_pairwise (fun a b memA memB below above => ?_) ascending' ascending shuffled
  -- Two ranges cannot each end below the other.
  have := regular a (shuffled.mem_iff.mp memA)
  have := regular b memB
  omega

/-- The last two names are those at the end of the one order that goes up. -/
theorem lastTwo_iff (regular : ∀ entry ∈ entries, entry.lo ≤ entry.hi)
    (shuffled : others.Perm entries) (ascending : others.Pairwise (·.hi < ·.lo))
    {tail : List String} : LastTwo entries tail ↔ tail = tailOf others := by
  constructor
  · rintro ⟨ordered, perm, up, rfl⟩
    have same : ordered = others := eq_of_ascending
      (fun entry mem => regular entry (shuffled.mem_iff.mp mem)) (perm.trans shuffled.symm) ascending up
    rw [same]
  · rintro rfl
    exact ⟨others, shuffled, ascending, rfl⟩

end Sweeps

section Validation

variable {format : Format} {names : List String} {entries : List ChainEntry} {chain : Chain}

/-- A listing is read name by name. -/
theorem reads_iff : names.mapM (chainEntry format) = .ok entries
    ↔ List.Forall₂ (ReadAs format) names entries := by
  simp only [mapM_ok_iff, chainEntry_eq_ok]

/-- An append-mode listing is valid when it is read and its sorted entries have no gap. -/
theorem validateChain_append :
    validateChain names format none = .ok chain
      ↔ ∃ entries, List.Forall₂ (ReadAs format) names entries
        ∧ contiguous 0 (entries.mergeSort ChainEntry.before) = .ok chain.durable
        ∧ chain.latest = none ∧ chain.tail = tailOf (entries.mergeSort ChainEntry.before) := by
  constructor
  · intro valid
    obtain ⟨sorted, listed, swept⟩ := of_bind_ok valid
    obtain ⟨entries, read, sorts⟩ := of_bind_ok listed
    cases sorts
    obtain ⟨durable, gapless, ends⟩ := of_bind_ok swept
    cases ends
    exact ⟨entries, reads_iff.mp read, gapless, rfl, rfl⟩
  · rintro ⟨entries, read, gapless, latest, tail⟩
    obtain ⟨durable, latest', tail'⟩ := chain
    subst latest tail
    simp only [validateChain, chainEntries, reads_iff.mpr read, bind, Except.bind, pure,
      Except.pure]
    rw [gapless]

/-- A listing of snapshots is valid when it is read and its sorted entries do not overlap. -/
theorem validateChain_log :
    validateChain names format (some .log) = .ok chain
      ↔ ∃ entries prior, List.Forall₂ (ReadAs format) names entries
        ∧ disjoint none (entries.mergeSort ChainEntry.endsBefore) = .ok prior
        ∧ chain = ⟨(prior.map addOne).getD 0,
            (entries.mergeSort ChainEntry.endsBefore).getLast?.map (·.name),
            tailOf (entries.mergeSort ChainEntry.endsBefore)⟩ := by
  constructor
  · intro valid
    obtain ⟨sorted, listed, swept⟩ := of_bind_ok valid
    obtain ⟨entries, read, sorts⟩ := of_bind_ok listed
    cases sorts
    obtain ⟨prior, apart, ends⟩ := of_bind_ok swept
    cases ends
    exact ⟨entries, prior, reads_iff.mp read, apart, rfl⟩
  · rintro ⟨entries, prior, read, apart, rfl⟩
    simp only [validateChain, chainEntries, reads_iff.mpr read, bind, Except.bind, pure,
      Except.pure]
    rw [apart]

/-- Sorted by range, entries are swept without a gap exactly when they are an append chain. -/
theorem appendChain_iff
    (regular : ∀ entry ∈ entries, entry.lo ≤ entry.hi ∧ entry.hi + 1 < 2 ^ 64) :
    (contiguous 0 (entries.mergeSort ChainEntry.before) = .ok chain.durable ∧ chain.latest = none
        ∧ chain.tail = tailOf (entries.mergeSort ChainEntry.before))
      ↔ AppendChain entries chain := by
  have shuffled := List.mergeSort_perm entries ChainEntry.before
  have sorted := List.pairwise_mergeSort (fun a b c => @ChainEntry.before_trans a b c)
    ChainEntry.before_total entries
  generalize entries.mergeSort ChainEntry.before = inOrder at shuffled sorted ⊢
  have ordered : ∀ entry ∈ entries, entry.lo ≤ entry.hi := fun entry mem => (regular entry mem).1
  rw [contiguous_eq_ok fun entry mem => regular entry (shuffled.mem_iff.mp mem)]
  -- A chain of entries is one in which they go up.
  have ascending : Ranges.Chained 0 (inOrder.map (·.range)) → inOrder.Pairwise (·.hi < ·.lo) :=
    fun chained => List.pairwise_map.mp chained.apart
  constructor
  · rintro ⟨⟨chained, durable⟩, latest, tail⟩
    refine ⟨?_, latest, (lastTwo_iff ordered shuffled (ascending chained)).mpr tail⟩
    rw [durable]
    exact chained.tiling.perm (shuffled.map _).symm
  · rintro ⟨tiling, latest, tail⟩
    have up : (inOrder.map (·.range)).Pairwise (·.1 ≤ ·.1) := by
      refine List.pairwise_map.mpr (sorted.imp fun {a b} before => ?_)
      rw [ChainEntry.before_iff] at before
      show a.lo ≤ b.lo
      omega
    obtain ⟨chained, ends⟩ := (tiling.perm (shuffled.map _)).chained up
    exact ⟨⟨chained, ends.symm⟩, latest, (lastTwo_iff ordered shuffled (ascending chained)).mp tail⟩

/-- Sorted by their ends, entries are swept without an overlap exactly when they are apart. -/
theorem logChain_iff (regular : ∀ entry ∈ entries, entry.lo ≤ entry.hi ∧ entry.hi + 1 < 2 ^ 64) :
    (∃ prior, disjoint none (entries.mergeSort ChainEntry.endsBefore) = .ok prior
        ∧ chain = ⟨(prior.map addOne).getD 0,
            (entries.mergeSort ChainEntry.endsBefore).getLast?.map (·.name),
            tailOf (entries.mergeSort ChainEntry.endsBefore)⟩)
      ↔ LogChain entries chain := by
  have shuffled := List.mergeSort_perm entries ChainEntry.endsBefore
  have sorted := List.pairwise_mergeSort (fun a b c => @Snapshots.endsBefore_trans a b c)
    Snapshots.endsBefore_total entries
  generalize entries.mergeSort ChainEntry.endsBefore = inOrder at shuffled sorted ⊢
  have ordered : ∀ entry ∈ entries, entry.lo ≤ entry.hi := fun entry mem => (regular entry mem).1
  have ordered' : ∀ entry ∈ inOrder, entry.lo ≤ entry.hi :=
    fun entry mem => ordered entry (shuffled.mem_iff.mp mem)
  simp only [disjoint_eq_ok ordered', Option.or_none, Option.not_mem_none, false_imp_iff,
    implies_true, true_and]
  -- Of entries that end in order, two that are apart go up.
  have apart_iff : inOrder.Pairwise (·.hi < ·.lo)
      ↔ entries.Pairwise fun a b => a.hi < b.lo ∨ b.hi < a.lo := by
    have symmetric : ∀ {a b : ChainEntry}, a.hi < b.lo ∨ b.hi < a.lo → b.hi < a.lo ∨ a.hi < b.lo :=
      fun {a b} => Or.symm
    rw [← shuffled.pairwise_iff symmetric]
    refine ⟨fun up => up.imp .inl, fun apart => ?_⟩
    refine (List.pairwise_and_iff.mpr ⟨sorted, apart⟩).imp_of_mem fun {a b} memA memB both => ?_
    have := ordered' a memA
    have := ordered' b memB
    have ends := of_decide_eq_true both.1
    omega
  -- The entry that ends last is the newest.
  have newest : ∀ last ∈ inOrder.getLast?, last ∈ entries ∧ ∀ entry ∈ entries, entry.hi ≤ last.hi := by
    intro last at_end
    refine ⟨shuffled.mem_iff.mp (List.mem_of_getLast? at_end), fun entry mem => ?_⟩
    obtain ⟨before, rfl⟩ := List.getLast?_eq_some_iff.mp at_end
    rcases List.mem_append.mp (shuffled.mem_iff.mpr mem) with earlier | here
    · exact of_decide_eq_true ((List.pairwise_append.mp sorted).2.2 entry earlier last (by simp))
    · rw [List.mem_singleton.mp here]
  constructor
  · rintro ⟨prior, ⟨up, rfl⟩, rfl⟩
    refine ⟨apart_iff.mp up, ?_, (lastTwo_iff ordered shuffled up).mpr rfl⟩
    cases at_end : inOrder.getLast? with
    | none =>
      have empty := List.getLast?_eq_none_iff.mp at_end
      rw [empty] at shuffled
      exact .inl ⟨shuffled.nil_eq.symm, rfl, rfl⟩
    | some last =>
      obtain ⟨mem, highest⟩ := newest last at_end
      exact .inr ⟨last, mem, highest, addOne_eq (regular last mem).2, rfl⟩
  · rintro ⟨apart, newest', tail⟩
    have up := apart_iff.mpr apart
    refine ⟨_, ⟨up, rfl⟩, ?_⟩
    have names := (lastTwo_iff ordered shuffled up).mp tail
    have whole : chain = ⟨chain.durable, chain.latest, chain.tail⟩ := rfl
    rcases newest' with ⟨rfl, durable, latest⟩ | ⟨last', mem', highest', durable, latest⟩
    · rw [whole, durable, latest, names, shuffled.eq_nil]
      rfl
    · -- The last of the sorted entries is the one that ends highest.
      have at_end : inOrder.getLast? = some last' := by
        cases at_end : inOrder.getLast? with
        | none =>
          rw [List.getLast?_eq_none_iff.mp at_end] at shuffled
          rw [← shuffled.nil_eq] at mem'
          cases mem'
        | some last =>
          obtain ⟨mem, -⟩ := newest last at_end
          obtain ⟨before, rfl⟩ := List.getLast?_eq_some_iff.mp at_end
          rcases List.mem_append.mp (shuffled.mem_iff.mpr mem') with earlier | here
          · have below := (List.pairwise_append.mp up).2.2 last' earlier last (by simp)
            have := highest' last mem
            have := ordered last mem
            omega
          · rw [List.mem_singleton.mp here]
      rw [whole, durable, latest, names, at_end]
      simp only [Option.map_some, Option.getD_some, addOne_eq (regular last' mem').2]

end Validation

/-- Names whose ranges all end below the last position there is. -/
def EndBelowMax (format : Format) (names : List String) : Prop :=
  ∀ name ∈ names, ∀ blob ∈ parseBlobName name format.extension, blob.hi < 2 ^ 64 - 1

/-- What is read from such names can be followed by another position. -/
theorem regular_of_reads {format : Format} {names : List String} {entries : List ChainEntry}
    (below : EndBelowMax format names) (reads : List.Forall₂ (ReadAs format) names entries) :
    ∀ entry ∈ entries, entry.lo ≤ entry.hi ∧ entry.hi + 1 < 2 ^ 64 := by
  intro entry mem
  obtain ⟨name, listed, named, ordered, keyId, parsed⟩ :=
    Effect.exists_after_of_forall₂ reads.flip mem
  refine ⟨ordered, ?_⟩
  have := below name listed _ parsed
  simp only at this
  omega

/-- What a listing says is the same for a listing of the same names in another order. -/
theorem IsChain.perm {compaction : Option CompactionMode} {entries others : List ChainEntry}
    {chain : Chain} (shuffled : others.Perm entries) (holds : IsChain compaction entries chain) :
    IsChain compaction others chain := by
  have tail : ∀ {tail}, LastTwo entries tail → LastTwo others tail := by
    rintro tail ⟨ordered, perm, up, same⟩
    exact ⟨ordered, perm.trans shuffled.symm, up, same⟩
  cases compaction with
  | none => exact ⟨holds.tiling.perm (shuffled.map _), holds.latest, tail holds.tail⟩
  | some mode =>
    cases mode
    have symmetric : ∀ {a b : ChainEntry}, a.hi < b.lo ∨ b.hi < a.lo → b.hi < a.lo ∨ a.hi < b.lo :=
      fun {a b} => Or.symm
    refine ⟨(shuffled.pairwise_iff symmetric).mpr holds.apart, ?_, tail holds.tail⟩
    rcases holds.newest with ⟨rfl, empty⟩ | ⟨last, mem, highest, newest⟩
    · exact .inl ⟨shuffled.eq_nil, empty⟩
    · exact .inr ⟨last, shuffled.mem_iff.mpr mem,
        fun entry listed => highest entry (shuffled.mem_iff.mp listed), newest⟩

/-- A listing is accepted exactly when it is read as a chain, and answers that chain. -/
theorem accepts_iff {names : List String} {format : Format} {compaction : Option CompactionMode}
    (below : EndBelowMax format names) (chain : Chain) :
    validateChain names format compaction = .ok chain
      ↔ ∃ entries, List.Forall₂ (ReadAs format) names entries
        ∧ IsChain compaction entries chain := by
  cases compaction with
  | none =>
    rw [validateChain_append]
    refine exists_congr fun entries => and_congr_right fun reads => ?_
    exact appendChain_iff (regular_of_reads below reads)
  | some mode =>
    cases mode
    rw [validateChain_log]
    refine exists_congr fun entries => ?_
    rw [exists_and_left]
    exact and_congr_right fun reads => logChain_iff (regular_of_reads below reads)

/--
A listing is accepted exactly when every name is read and the ranges form a chain, and what is then
answered is that chain, in whatever order the names are listed.
-/
theorem validateChain_ok_iff (names : List String) (format : Format)
    (compaction : Option CompactionMode) (below : EndBelowMax format names) :
    (∀ chain, validateChain names format compaction = .ok chain
        ↔ ∃ entries, List.Forall₂ (ReadAs format) names entries
          ∧ IsChain compaction entries chain)
      ∧ ∀ others : List String, others.Perm names → ∀ chain,
        validateChain others format compaction = .ok chain
          ↔ validateChain names format compaction = .ok chain := by
  refine ⟨accepts_iff below, fun others shuffled chain => ?_⟩
  have below' : EndBelowMax format others := fun name mem => below name (shuffled.mem_iff.mp mem)
  rw [accepts_iff below', accepts_iff below]
  -- The entries are shuffled as the names are, and a chain is one in any order.
  have carry : ∀ {names others : List String}, others.Perm names →
      (∃ entries, List.Forall₂ (ReadAs format) names entries ∧ IsChain compaction entries chain) →
      ∃ entries, List.Forall₂ (ReadAs format) others entries
        ∧ IsChain compaction entries chain := by
    rintro names others shuffled ⟨entries, reads, holds⟩
    obtain ⟨entries', reads', perm⟩ := List.perm_comp_forall₂ shuffled reads
    exact ⟨entries', reads', holds.perm perm⟩
  exact ⟨carry shuffled.symm, carry shuffled⟩

namespace Sample

/-- Two names that adjoin, the shorter one as a hand would write it. -/
def adjoiningNames : List String := ["5-9.ndjson", "00000000000000000000-00000000000000000004.ndjson"]

/-- Names that adjoin are accepted, in either order. -/
theorem validateChain_adjoiningNames :
    EndBelowMax .ndjson adjoiningNames
      ∧ (validateChain adjoiningNames .ndjson none = .ok ⟨10, none, adjoiningNames.reverse⟩
        ↔ ∃ entries, List.Forall₂ (ReadAs .ndjson) adjoiningNames entries
          ∧ IsChain none entries ⟨10, none, adjoiningNames.reverse⟩)
      ∧ (validateChain adjoiningNames.reverse .ndjson none = .ok ⟨10, none, adjoiningNames.reverse⟩
        ↔ validateChain adjoiningNames .ndjson none = .ok ⟨10, none, adjoiningNames.reverse⟩) := by
  have below : EndBelowMax .ndjson adjoiningNames := by
    unfold EndBelowMax
    decide +kernel
  have accepted := validateChain_ok_iff adjoiningNames .ndjson none below
  exact ⟨below, accepted.1 _, accepted.2 _ (List.reverse_perm _) _⟩

/-- A listing that is refused names the first name that is not read, whichever is listed first. -/
theorem validateChain_order :
    EndBelowMax .ndjson ["a", "b"] ∧ ["b", "a"].Perm ["a", "b"]
      ∧ validateChain ["a", "b"] .ndjson none ≠ validateChain ["b", "a"] .ndjson none := by
  refine ⟨by unfold EndBelowMax; decide +kernel, .swap "a" "b" [], fun same => ?_⟩
  have first : validateChain ["a", "b"] .ndjson none = .error (.corruptChain
    "a is not a blob name this mirror writes (<from>-<to>.ndjson, or <from>-<to>.k-<key id>.ndjson)") :=
    rfl
  have second : validateChain ["b", "a"] .ndjson none = .error (.corruptChain
    "b is not a blob name this mirror writes (<from>-<to>.ndjson, or <from>-<to>.k-<key id>.ndjson)") :=
    rfl
  rw [first, second] at same
  injection same with same
  injection same with same
  exact absurd same (by decide)

end Sample

end MirrorV3
