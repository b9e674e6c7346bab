import MirrorV3.Fs.Append
import MirrorV3.Fs.View

/-! A compacted directory: each object is a snapshot of everything the log held up to its end. -/

namespace MirrorV3

variable [EnvelopeLibraries]

/--
A directory of snapshots, each of what `history` says was written below its end.

Objects are listed in the order they were put, and their ranges do not overlap.
-/
inductive Snapshots (format : Format) (keyring : Option Keyring) (history : Nat → List Record) :
    List BlobObject → Nat → Prop where
  | empty : Snapshots format keyring history [] 0
  | extend {objects : List BlobObject} {durable : Nat}
      (earlier : Snapshots format keyring history objects durable)
      (lo hi : Nat) (keyId : Option String) (bytes : Bytes) (view : View)
      (follows : durable ≤ lo) (ordered : lo ≤ hi) (numbered : hi < 2 ^ 63)
      (named : ∀ id ∈ keyId, isKeyId id = true) (holds : view.Holds (history (hi + 1)))
      (decodes : ∀ location,
        decodeBlob (blobFilename lo hi keyId format.extension) location bytes format keyring
          = .ok view.values) :
      Snapshots format keyring history
        (objects ++ [(blobFilename lo hi keyId format.extension, bytes)]) (hi + 1)

omit [EnvelopeLibraries] in
/-- Appending an entry above everything before it keeps ranges apart. -/
theorem disjoint_append {start prior : Option Nat} {entries : List ChainEntry}
    {entry : ChainEntry} (before : disjoint start entries = .ok prior)
    (above : ∀ hi ∈ prior, hi < entry.lo) :
    disjoint start (entries ++ [entry]) = .ok (some entry.hi) := by
  induction entries generalizing start with
  | nil =>
    have here : start = prior := Except.ok.inj before
    have apart : start.filter (entry.lo ≤ ·) = none := by
      rw [Option.filter_eq_none_iff]
      intro hi found
      simpa using above hi (here ▸ found)
    simp [disjoint, apart]
  | cons first entries ih =>
    simp only [disjoint, List.cons_append] at before ⊢
    split at before
    · cases before
    · exact ih before

namespace Snapshots

variable {format : Format} {keyring : Option Keyring} {history : Nat → List Record}
  {objects : List BlobObject} {durable : Nat}

/-- Where a directory ends, no successor has wrapped yet. -/
theorem durable_le (stored : Snapshots format keyring history objects durable) :
    durable ≤ 2 ^ 63 := by
  cases stored with
  | empty => omega
  | extend _ _ hi _ _ _ _ _ numbered => exact numbered

/-- Without objects a directory ends where the log starts. -/
theorem durable_eq_zero (stored : Snapshots format keyring history objects durable)
    (none : objects.getLast? = none) : durable = 0 := by
  cases stored with
  | empty => rfl
  | extend => simp at none

/-- The first objects of a directory of snapshots are one themselves. -/
theorem take (stored : Snapshots format keyring history objects durable) (count : Nat) :
    ∃ position, Snapshots format keyring history (objects.take count) position := by
  induction stored with
  | empty => exact ⟨0, by simpa using Snapshots.empty⟩
  | @extend objects durable earlier lo hi keyId bytes view follows ordered numbered named holds
      decodes ih =>
    by_cases all : objects.length < count
    · refine ⟨hi + 1, ?_⟩
      rw [List.take_of_length_le (by simpa using Nat.succ_le_of_lt all)]
      exact .extend earlier lo hi keyId bytes view follows ordered numbered named holds decodes
    · rw [List.take_append_of_le_length (by omega)]
      exact ih

/-- Only what was written below its end matters to a directory. -/
theorem congr {other : Nat → List Record}
    (stored : Snapshots format keyring history objects durable)
    (same : ∀ position ≤ durable, history position = other position) :
    Snapshots format keyring other objects durable := by
  induction stored with
  | empty => exact .empty
  | extend earlier lo hi keyId bytes view follows ordered numbered named holds decodes ih =>
    refine .extend (ih fun position below => same position (by omega)) lo hi keyId bytes view
      follows ordered numbered named ?_ decodes
    rw [← same _ (Nat.le_refl _)]
    exact holds

/-- The newest object decodes to what was written below the end of the directory. -/
theorem latest (stored : Snapshots format keyring history objects durable) {object : BlobObject}
    (newest : objects.getLast? = some object) :
    ∃ view : View, view.Holds (history durable) ∧
      ∀ location, decodeBlob object.1 location object.2 format keyring = .ok view.values := by
  cases stored with
  | empty => cases newest
  | extend _ lo hi keyId bytes view _ _ _ _ holds decodes =>
    rw [List.getLast?_concat] at newest
    cases newest
    exact ⟨view, holds, decodes⟩

/--
The names of a directory of snapshots are the entries of a chain without overlap.

The entries stand in the order the objects were put, each below the directory's end.
-/
theorem entries (stored : Snapshots format keyring history objects durable) :
    (∀ object ∈ objects, chainEntry format object.1 = .ok (entryOf format object.1)
        ∧ (entryOf format object.1).name = object.1)
      ∧ (∃ prior, disjoint none (objects.map (entryOf format ·.1)) = .ok prior
        ∧ (prior.map addOne).getD 0 = durable ∧ ∀ hi ∈ prior, hi < durable)
      ∧ (objects.map (entryOf format ·.1)).Pairwise (·.hi < ·.hi)
      ∧ ∀ entry ∈ objects.map (entryOf format ·.1), entry.lo < durable ∧ entry.hi < durable := by
  induction stored with
  | empty => exact ⟨by simp, ⟨none, rfl, rfl, by simp⟩, .nil, by simp⟩
  | @extend objects durable earlier lo hi keyId bytes view follows ordered numbered named holds
      decodes ih =>
    obtain ⟨read, ⟨prior, chained, -, above⟩, sorted, below⟩ := ih
    have entry := chainEntry_blobFilename format ordered (by omega : hi < 2 ^ 64) named
    have place : entryOf format (blobFilename lo hi keyId format.extension)
        = ⟨lo, hi, blobFilename lo hi keyId format.extension⟩ := by
      rw [entryOf, entry]
      rfl
    rw [List.map_append, List.map_singleton, place]
    refine ⟨?_, ⟨some hi, ?_, ?_, by simp⟩, ?_, ?_⟩
    · intro object mem
      rcases List.mem_append.mp mem with old | new
      · exact read object old
      · rw [List.mem_singleton.mp new, place]
        exact ⟨entry, rfl⟩
    · exact disjoint_append chained fun hi mem => Nat.lt_of_lt_of_le (above hi mem) follows
    · simp [addOne_eq (by omega : hi + 1 < 2 ^ 64)]
    · refine List.pairwise_append.mpr ⟨sorted, by simp, fun old mem new only => ?_⟩
      rw [List.mem_singleton.mp only]
      have := (below old mem).2
      show old.hi < hi
      omega
    · intro entry mem
      rcases List.mem_append.mp mem with old | new
      · have := below entry old
        omega
      · rw [List.mem_singleton.mp new]
        exact ⟨Nat.lt_succ_of_le ordered, Nat.lt_succ_self hi⟩

/-- No two objects of a directory of snapshots share a name. -/
theorem names_nodup (stored : Snapshots format keyring history objects durable) :
    (objects.map (·.1)).Nodup := by
  -- Objects of one name would end at the same offset.
  have sorted := stored.entries.2.2.1
  rw [List.pairwise_map] at sorted
  refine List.pairwise_map.mpr (sorted.imp fun below same => ?_)
  rw [same] at below
  exact Nat.lt_irrefl _ below

/-- A name that follows the end of a directory is not one of its names. -/
theorem fresh (stored : Snapshots format keyring history objects durable) {lo hi : Nat}
    {keyId : Option String} (follows : durable ≤ lo) (ordered : lo ≤ hi) (high : hi < 2 ^ 64)
    (named : ∀ id ∈ keyId, isKeyId id = true) :
    blobFilename lo hi keyId format.extension ∉ objects.map (·.1) := by
  intro taken
  obtain ⟨object, mem, same⟩ := List.mem_map.mp taken
  have place : entryOf format object.1 = ⟨lo, hi, object.1⟩ := by
    rw [same, entryOf, chainEntry_blobFilename format ordered high named]
    rfl
  have below := (stored.entries.2.2.2 _ (List.mem_map_of_mem mem)).1
  rw [place] at below
  exact Nat.lt_irrefl _ (Nat.lt_of_lt_of_le below follows)

omit [EnvelopeLibraries] in
/-- Any two entries end in one order or the other. -/
theorem endsBefore_total (a b : ChainEntry) : (a.endsBefore b || b.endsBefore a) = true := by
  simp only [ChainEntry.endsBefore, Bool.or_eq_true, decide_eq_true_eq]
  omega

omit [EnvelopeLibraries] in
/-- The order by the end of a range is transitive. -/
theorem endsBefore_trans {a b c : ChainEntry} (ab : a.endsBefore b = true)
    (bc : b.endsBefore c = true) : a.endsBefore c = true := by
  simp only [ChainEntry.endsBefore, decide_eq_true_eq] at ab bc ⊢
  omega

/-- Two entries of a directory of snapshots that end at the same offset are one entry. -/
theorem eq_of_hi (stored : Snapshots format keyring history objects durable) :
    ∀ a ∈ objects.map (entryOf format ·.1), ∀ b ∈ objects.map (entryOf format ·.1),
      a.hi = b.hi → a = b := by
  intro a memA b memB same
  by_contra differ
  have apart : (objects.map (entryOf format ·.1)).Pairwise (·.hi ≠ ·.hi) :=
    stored.entries.2.2.1.imp fun below => Nat.ne_of_lt below
  have : Std.Symm fun a b : ChainEntry => a.hi ≠ b.hi := ⟨fun _ _ => Ne.symm⟩
  exact apart.forall memA memB differ same

/-- However a directory lists its snapshots, the chain is checked in the order they were put. -/
theorem chainEntries_eq (stored : Snapshots format keyring history objects durable)
    {names : List String} (listed : names.Perm (objects.map (·.1))) :
    chainEntries names format (some .log) = .ok (objects.map (entryOf format ·.1)) := by
  obtain ⟨read, -, sorted, -⟩ := stored.entries
  have inOrder := mergeSort_entries (fun a b c => @endsBefore_trans a b c) endsBefore_total
    (fun a memA b memB ab ba => stored.eq_of_hi a memA b memB (by
      simp only [ChainEntry.endsBefore, decide_eq_true_eq] at ab ba
      omega))
    (sorted.imp fun below => by simpa [ChainEntry.endsBefore] using Nat.le_of_lt below) listed
  simp [chainEntries, mapM_chainEntry read listed, inOrder, bind, Except.bind, pure, Except.pure]

/-- However a directory lists its snapshots, the chain is valid and its newest is the last put. -/
theorem validateChain_eq (stored : Snapshots format keyring history objects durable)
    {names : List String} (listed : names.Perm (objects.map (·.1))) :
    validateChain names format (some .log)
      = .ok ⟨durable, objects.getLast?.map (·.1), tailOf (objects.map (entryOf format ·.1))⟩ := by
  obtain ⟨read, ⟨prior, chained, ends, -⟩, -, -⟩ := stored.entries
  have newest : objects.getLast?.map (ChainEntry.name ∘ fun object => entryOf format object.1)
      = objects.getLast?.map (·.1) := by
    cases last : objects.getLast? with
    | none => rfl
    | some object => simp [(read object (List.mem_of_getLast? last)).2]
  simp [validateChain, stored.chainEntries_eq listed, chained, newest, ends, bind, Except.bind,
    pure, Except.pure]

end Snapshots

end MirrorV3
