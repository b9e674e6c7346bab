import Mathlib.Data.List.Nodup
import Mathlib.Logic.Function.Basic

/-! A directory of files on a disk, and what is left of it when the power is lost. -/

namespace Disk

variable {ν β : Type} [DecidableEq ν]

/-- A file, whatever its names are. -/
structure File (β : Type) where
  bytes : List β
  /-- All of them have reached the disk. -/
  synced : Bool

/-- A change of the names in a directory, which happens as a whole. -/
inductive Change (ν : Type) where
  | link (name : ν) (file : Nat)
  /-- A file loses one name and gets another, which no other file has from then on. -/
  | move (source target : ν) (file : Nat)
  | unlink (name : ν)
  deriving DecidableEq

namespace Change

variable {change : Change ν} {entries : List (ν × Nat)} {entry : ν × Nat}

/-- The names after a change. -/
def apply : Change ν → List (ν × Nat) → List (ν × Nat)
  | link name file, entries => entries.filter (·.1 ≠ name) ++ [(name, file)]
  | move source target file, entries =>
    entries.filter (fun entry => entry.1 ≠ source ∧ entry.1 ≠ target) ++ [(target, file)]
  | unlink name, entries => entries.filter (·.1 ≠ name)

/-- The name that a change gives a file, if it gives one. -/
def named : Change ν → Option (ν × Nat)
  | link name file => some (name, file)
  | move _ target file => some (target, file)
  | unlink _ => none

/-- A name was there before the change, or is the one that it gives. -/
theorem mem_apply (mem : entry ∈ change.apply entries) :
    entry ∈ entries ∨ change.named = some entry := by
  cases change with
  | link name file | move source target file =>
    rcases List.mem_append.mp mem with before | last
    · exact .inl (List.mem_of_mem_filter before)
    · exact .inr (congrArg some (List.mem_singleton.mp last).symm)
  | unlink name => exact .inl (List.mem_of_mem_filter mem)

/-- The names that a change touches. -/
def names : Change ν → List ν
  | link name _ => [name]
  | move source target _ => [source, target]
  | unlink name => [name]

omit [DecidableEq ν] in
/-- A change gives one of the names that it touches. -/
theorem mem_names (gives : change.named = some entry) : entry.1 ∈ change.names := by
  cases change with
  | link name file =>
    cases gives
    exact .head _
  | move source target file =>
    cases gives
    exact .tail _ (.head _)
  | unlink name => cases gives

/-- The names that a change does not touch stay, in their order. -/
theorem filter_apply (change : Change ν) (entries : List (ν × Nat)) :
    (change.apply entries).filter (·.1 ∉ change.names)
      = entries.filter (·.1 ∉ change.names) := by
  -- What a change adds has a name that it touches, and so has what it takes away.
  cases change with
  | link name file => simp [apply, names, List.filter_filter]
  | move source target file => simp [apply, names, List.filter_filter]
  | unlink name => simp [apply, names, List.filter_filter]

/-- No two files have one name. -/
theorem nodup_apply (change : Change ν) (nodup : (entries.map (·.1)).Nodup) :
    ((change.apply entries).map (·.1)).Nodup := by
  have rest : ∀ keeps : ν × Nat → Bool, ((entries.filter keeps).map (·.1)).Nodup :=
    fun keeps => nodup.sublist (List.filter_sublist.map _)
  cases change with
  | link name file =>
    rw [apply, List.map_append, List.map_singleton, List.nodup_append]
    refine ⟨rest _, List.nodup_singleton _, fun other mem last only same => ?_⟩
    obtain ⟨entry, kept, rfl⟩ := List.mem_map.mp mem
    have ne := of_decide_eq_true (List.mem_filter.mp kept).2
    exact ne (same.trans (List.mem_singleton.mp only))
  | move source target file =>
    rw [apply, List.map_append, List.map_singleton, List.nodup_append]
    refine ⟨rest _, List.nodup_singleton _, fun other mem last only same => ?_⟩
    obtain ⟨entry, kept, rfl⟩ := List.mem_map.mp mem
    have ne := of_decide_eq_true (List.mem_filter.mp kept).2
    exact ne.2 (same.trans (List.mem_singleton.mp only))
  | unlink name => exact rest _

end Change

/-- A directory as its users see it, with what of it has reached the disk. -/
structure Directory (ν β : Type) where
  files : Nat → File β
  /-- The number of the next file. -/
  next : Nat
  entries : List (ν × Nat)
  /-- The names that are on the disk. -/
  settled : List (ν × Nat)
  /-- The changes since then, none of which is sure to be on the disk. -/
  pending : List (Change ν)
  /-- No two files have one name, and would not if the power were lost. -/
  unique : (entries.map (·.1)).Nodup
  settledUnique : (settled.map (·.1)).Nodup
  /-- No name is that of a file which is still to be made. -/
  numbered : ∀ entry : ν × Nat,
    (entry ∈ entries ∨ entry ∈ settled ∨ ∃ change ∈ pending, change.named = some entry) →
      entry.2 < next

namespace Directory

variable {d : Directory ν β} {name : ν} {file : Nat}

/-- A directory without a file. -/
def empty : Directory ν β where
  files _ := ⟨[], false⟩
  next := 0
  entries := []
  settled := []
  pending := []
  unique := .nil
  settledUnique := .nil
  numbered _ none := by simp at none

/-- A file has a name, or would have it if the power were lost. -/
def Names (d : Directory ν β) (name : ν) (file : Nat) : Prop :=
  (name, file) ∈ d.entries ∨ (name, file) ∈ d.settled
    ∨ ∃ change ∈ d.pending, change.named = some (name, file)

/-- Change the names, giving one to no file that is still to be made. -/
def change (change : Change ν) (d : Directory ν β)
    (made : ∀ entry, change.named = some entry → entry.2 < d.next) : Directory ν β where
  files := d.files
  next := d.next
  entries := change.apply d.entries
  settled := d.settled
  pending := d.pending ++ [change]
  unique := change.nodup_apply d.unique
  settledUnique := d.settledUnique
  numbered entry names := by
    -- A name was there before, or it is the one name that the change gives.
    rcases names with mem | mem | ⟨other, mem, gives⟩
    · rcases Change.mem_apply mem with before | last
      · exact d.numbered entry (.inl before)
      · exact made entry last
    · exact d.numbered entry (.inr (.inl mem))
    · rcases List.mem_append.mp mem with before | last
      · exact d.numbered entry (.inr (.inr ⟨other, before, gives⟩))
      · exact made entry (List.mem_singleton.mp last ▸ gives)

/-- The file of a name. -/
def find (name : ν) (d : Directory ν β) : Option Nat := d.entries.lookup name

/-- What a name finds is a file of that name. -/
theorem mem_of_find (found : d.find name = some file) : (name, file) ∈ d.entries := by
  obtain ⟨before, later, split, -⟩ := List.lookup_eq_some_iff.mp found
  rw [split]
  exact List.mem_append_right _ (.head _)

/-- A name finds the file that has it. -/
theorem find_eq_some (mem : (name, file) ∈ d.entries) : d.find name = some file := by
  have nodup := d.unique
  obtain ⟨before, later, split⟩ := List.append_of_mem mem
  -- The first entry of the name is this one, since no entry before it has the name.
  refine List.lookup_eq_some_iff.mpr ⟨before, later, split, fun entry earlier => ?_⟩
  rw [split, List.map_append, List.map_cons, List.nodup_append] at nodup
  have ne := nodup.2.2 entry.1 (List.mem_map_of_mem earlier) name (.head _)
  exact bne_iff_ne.mpr (Ne.symm ne)

/-- Replace a file, under whatever names it has. -/
def put (file : Nat) (to_ : File β) (d : Directory ν β) : Directory ν β :=
  { d with files := Function.update d.files file to_ }

/-- Make an empty file that has no name yet. -/
def fresh (d : Directory ν β) : Directory ν β :=
  { d with
    files := Function.update d.files d.next ⟨[], false⟩
    next := d.next + 1
    numbered := fun entry names => Nat.lt_succ_of_lt (d.numbered entry names) }

/-- Make an empty file under a name, which no other file has from then on. -/
def make (name : ν) (d : Directory ν β) : Directory ν β :=
  d.fresh.change (.link name d.next) (by
    rintro entry ⟨⟩
    exact Nat.lt_succ_self _)

/-- Open a name for writing: its file is made, or emptied if it is there. -/
def create (name : ν) (d : Directory ν β) : Directory ν β :=
  match d.find name with
  | some file => d.put file ⟨[], false⟩
  | none => d.make name

/-- Append to a file. -/
def append (file : Nat) (bytes : List β) (d : Directory ν β) : Directory ν β :=
  d.put file ⟨(d.files file).bytes ++ bytes, false⟩

/-- Bring a file to the disk. -/
def sync (file : Nat) (d : Directory ν β) : Directory ν β :=
  d.put file ⟨(d.files file).bytes, true⟩

/-- Give the file of a name another name. -/
def rename (source target : ν) (d : Directory ν β) : Directory ν β :=
  match found : d.find source with
  | some file => d.change (.move source target file) (by
      rintro entry ⟨⟩
      exact d.numbered (source, file) (.inl (mem_of_find found)))
  | none => d

/-- A file that is found is renamed. -/
theorem rename_eq {source target : ν} (found : d.find source = some file) :
    ∃ made, d.rename source target = d.change (.move source target file) made := by
  have made : ∀ entry, (Change.move source target file).named = some entry → entry.2 < d.next := by
    rintro entry ⟨⟩
    exact d.numbered (source, file) (.inl (mem_of_find found))
  refine ⟨made, ?_⟩
  unfold rename
  split
  · rename_i other same
    cases found.symm.trans same
    rfl
  · rename_i absent
    rw [absent] at found
    cases found

/-- Take a name away. -/
def unlink (name : ν) (d : Directory ν β) : Directory ν β :=
  d.change (.unlink name) (by rintro entry ⟨⟩)

/-- What survives of some changes has only names from before them, or that they give. -/
theorem mem_foldl_apply {survivors : List (Change ν)} {entries : List (ν × Nat)} {entry : ν × Nat}
    (mem : entry ∈ survivors.foldl (fun entries change => change.apply entries) entries) :
    entry ∈ entries ∨ ∃ change ∈ survivors, change.named = some entry := by
  induction survivors generalizing entries with
  | nil => exact .inl mem
  | cons change survivors ih =>
    -- What a later change gives stays apart from what was there when it came.
    rcases ih mem with before | ⟨other, later, gives⟩
    · rcases Change.mem_apply before with first | gives
      · exact .inl first
      · exact .inr ⟨change, .head _, gives⟩
    · exact .inr ⟨other, .tail _ later, gives⟩

/-- What survives of some changes names no two files alike. -/
theorem nodup_foldl_apply (survivors : List (Change ν)) {entries : List (ν × Nat)}
    (nodup : (entries.map (·.1)).Nodup) :
    ((survivors.foldl (fun entries change => change.apply entries) entries).map (·.1)).Nodup := by
  induction survivors generalizing entries with
  | nil => exact nodup
  | cons change survivors ih => exact ih (change.nodup_apply nodup)

/-- A name that survives is one that was settled, or that a pending change gives. -/
theorem mem_survivors {keeps : Change ν → Bool} {entry : ν × Nat}
    (mem : entry ∈ (d.pending.filter keeps).foldl (fun entries change => change.apply entries)
      d.settled) :
    entry ∈ d.settled ∨ ∃ change ∈ d.pending, change.named = some entry := by
  rcases mem_foldl_apply mem with settled | ⟨change, among, gives⟩
  · exact .inl settled
  · exact .inr ⟨change, List.mem_of_mem_filter among, gives⟩

/--
Lose the power: some of the changes survive, in their order, and of a file that had not reached the
disk anything may be left.
-/
def powerLoss (keeps : Change ν → Bool) (left : Nat → List β) (d : Directory ν β) :
    Directory ν β :=
  let entries :=
    (d.pending.filter keeps).foldl (fun entries change => change.apply entries) d.settled
  { files := fun file => if (d.files file).synced then d.files file else ⟨left file, false⟩
    next := d.next
    entries := entries
    settled := entries
    pending := []
    unique := nodup_foldl_apply _ d.settledUnique
    settledUnique := nodup_foldl_apply _ d.settledUnique
    numbered := fun entry names => by
      simp only [List.not_mem_nil, false_and, exists_false, or_false, or_self] at names
      exact d.numbered entry (.inr (mem_survivors names)) }

/-- A change gives at most its own name. -/
theorem names_change {change : Change ν}
    {made : ∀ entry, change.named = some entry → entry.2 < d.next}
    (names : (d.change change made).Names name file) :
    d.Names name file ∨ change.named = some (name, file) := by
  -- A name was there before, or it is the one name that the change gives.
  rcases names with mem | mem | ⟨other, mem, gives⟩
  · rcases Change.mem_apply mem with before | last
    · exact .inl (.inl before)
    · exact .inr last
  · exact .inl (.inr (.inl mem))
  · rcases List.mem_append.mp mem with before | last
    · exact .inl (.inr (.inr ⟨other, before, gives⟩))
    · rw [List.mem_singleton.mp last] at gives
      exact .inr gives

/-- The next file gets its name, and no other file gets one. -/
theorem names_make {other : ν} (names : (d.make name).Names other file) :
    d.Names other file ∨ other = name ∧ file = d.next := by
  rcases names_change names with before | gives
  · exact .inl before
  · cases gives
    exact .inr ⟨rfl, rfl⟩

/-- Losing the power gives no file a name that it could not have had. -/
theorem names_powerLoss {keeps : Change ν → Bool} {left : Nat → List β}
    (names : (d.powerLoss keeps left).Names name file) : d.Names name file := by
  -- All names are settled then, so any name is one of what survived.
  rcases names with mem | mem | ⟨_, mem, -⟩
  · exact .inr (mem_survivors mem)
  · exact .inr (mem_survivors mem)
  · cases mem

end Directory

end Disk
