import Mathlib.Algebra.Order.BigOperators.Group.List
import Mathlib.Data.Stream.Defs
import MirrorV3.Fs.Listing
import MirrorV3.Lib.Disk

/-! The file system under a directory of objects, which is written to in the background. -/

namespace MirrorV3

open Effect

/-- The calls that are made on one directory, each of which may fail with a message. -/
class FileSystem (φ : Type) where
  /-- A file that is open for writing. -/
  File : Type
  /-- Make a file and open it. -/
  create (name : String) : Program String φ File
  /-- Hand bytes to a file; the last of them may still be on their way when this returns. -/
  writeAll (file : File) (bytes : Bytes) : Program String φ Unit
  /-- Wait for what is on its way to a file, and bring the file to the disk. -/
  syncAll (file : File) : Program String φ Unit
  rename (source target : String) : Program String φ Unit
  removeFile (name : String) : Program String φ Unit
  readDir : Program Empty φ ReadDir
  read (name : String) : Program String φ Bytes
  /-- A new random UUID. -/
  newV4 : Program Empty φ String

/-- What is in a directory, and what else could be found there once the power was lost. -/
class FileHistory (φ : Type) [FileSystem φ] where
  /-- The files by name, in the order in which they got their names. -/
  files : φ → List (String × Bytes)
  /-- Under this name these bytes are read, or could be if the power were lost. -/
  Survives : φ → String → Bytes → Prop
  /-- This file was made under this name, has no other, and was handed these bytes so far. -/
  Writing : φ → FileSystem.File φ → String → Bytes → Prop
  /-- The file of this name has these bytes on the disk, and has no other name. -/
  Synced : φ → String → Bytes → Prop
  /-- What is left when the power is lost. -/
  powerLoss : φ → φ
  /-- The failed writes whose errors no call has reported. -/
  unreported : φ → Nat

open FileHistory

variable {φ : Type} [FileSystem φ] [FileHistory φ]

/-- Nothing but what is under some names changed between two states of a directory. -/
structure Touches (names : List String) (before after : φ) : Prop where
  rest : (files after).filter (·.1 ∉ names) = (files before).filter (·.1 ∉ names)
  survives : ∀ name ∉ names, ∀ bytes, Survives after name bytes → Survives before name bytes
  unreported : unreported before ≤ unreported after

/-- A file went from one name to another, whatever was there before. -/
structure Renamed (source target : String) (bytes : Bytes) (before after : φ) : Prop where
  touches : Touches [source, target] before after
  placed : files after
    = (files before).filter (fun file => file.1 ∉ [source, target]) ++ [(target, bytes)]
  survives : ∀ other, Survives after target other → Survives before target other ∨ other = bytes

/--
What is documented of the calls.

A rename and the removal of a name happen as a whole, and a file that was synced stays what it is.
A write is handed over to be done in the background: if the last part of it fails, that error is
kept back, and syncing the file ends as if there had been nothing to write.
-/
class LawfulFileSystem (φ : Type) [FileSystem φ] [FileHistory φ] : Prop where
  unique : ∀ s : φ, ((files s).map (·.1)).Nodup
  survives_files : ∀ (s : φ), ∀ file ∈ files s, Survives s file.1 file.2
  create_spec : ∀ name (s : φ), (∀ bytes, ¬ Survives s name bytes) →
    wp (FileSystem.create name : Program String φ _)
      (fun file s' => Touches [name] s s' ∧ Writing s' file name [])
      (fun _ s' => Touches [name] s s') s
  writeAll_spec : ∀ file name handed bytes (s : φ), Writing s file name handed →
    wp (FileSystem.writeAll file bytes : Program String φ _)
      (fun _ s' => Touches [name] s s' ∧ Writing s' file name (handed ++ bytes))
      (fun _ s' => Touches [name] s s') s
  syncAll_spec : ∀ file name handed (s : φ), Writing s file name handed →
    wp (FileSystem.syncAll file : Program String φ _)
      (fun _ s' => Touches [name] s s' ∧ ∃ kept, Synced s' name kept ∧ kept <+: handed
        ∧ (kept = handed ∨ unreported s < unreported s'))
      (fun _ s' => Touches [name] s s') s
  rename_spec : ∀ source target bytes (s : φ), Synced s source bytes →
    wp (FileSystem.rename source target : Program String φ _)
      (fun _ s' => Renamed source target bytes s s')
      (fun _ s' => Touches [] s s' ∨ Renamed source target bytes s s') s
  removeFile_spec : ∀ name (s : φ), wp (FileSystem.removeFile name : Program String φ _)
    (fun _ s' => Touches [name] s s') (fun _ s' => Touches [name] s s') s
  readDir_spec : ∀ s : φ, wp (FileSystem.readDir : Program Empty φ _)
    (fun read s' => Touches [] s s' ∧
      match read with
      | .missing => files s = []
      | .failed _ => True
      | .entries names =>
        ∀ listed : List String, names = listed.map .ok → listed.Perm ((files s).map (·.1)))
    (fun _ _ => True) s
  read_spec : ∀ name (s : φ), wp (FileSystem.read name : Program String φ _)
    (fun bytes s' => Touches [] s s' ∧ (name, bytes) ∈ files s) (fun _ s' => Touches [] s s') s
  /-- A new UUID is at the end of no name. -/
  newV4_spec : ∀ s : φ, wp (FileSystem.newV4 : Program Empty φ _)
    (fun uuid s' => Touches [] s s' ∧
      ∀ name bytes, uuid.toList <:+ name.toList → ¬ Survives s' name bytes)
    (fun _ _ => True) s
  powerLoss_spec : ∀ (s : φ) name bytes, Survives (powerLoss s) name bytes → Survives s name bytes

section Touches

variable {s s' s'' : φ} {names more : List String}

/-- What touches some names touches no others besides them. -/
theorem Touches.mono (touches : Touches names s s') (sub : names ⊆ more) : Touches more s s' := by
  -- What is apart from more names is apart from fewer.
  refine ⟨?_, fun name apart => touches.survives name (mt (@sub name) apart), touches.unreported⟩
  have fewer : ∀ held : List (String × Bytes), held.filter (·.1 ∉ more)
      = (held.filter (·.1 ∉ names)).filter (·.1 ∉ more) := by
    intro held
    rw [List.filter_filter]
    refine List.filter_congr fun file _ => ?_
    by_cases mem : file.1 ∈ more
    · simp [mem]
    · simp [mem, mt (@sub file.1) mem]
  rw [fewer (files s'), fewer (files s), touches.rest]

/-- What is left alone twice is left alone. -/
theorem Touches.trans (first : Touches names s s') (second : Touches names s' s'') :
    Touches names s s'' where
  rest := second.rest.trans first.rest
  survives name apart bytes survives :=
    first.survives name apart bytes (second.survives name apart bytes survives)
  unreported := Nat.le_trans first.unreported second.unreported

/-- Where no name is touched, the files are the same. -/
theorem Touches.same (touches : Touches [] s s') : files s' = files s := by
  simpa using touches.rest

end Touches

/-- How a call on a disk turns out. -/
structure DiskAnswer where
  /-- The call is reported failed. -/
  error : Option String
  /-- It takes effect although it is reported failed. -/
  landed : Bool
  /-- How many of the bytes that are on their way have reached the file by then. -/
  reached : Nat

/-- A directory on a disk, with everything its calls will be answered. -/
structure DiskFiles where
  directory : Disk.Directory String UInt8
  /-- What is on its way to the file that is open. -/
  inFlight : Bytes
  unreported : Nat
  answers : Stream' DiskAnswer
  /-- The changes of names that survive when the power is lost. -/
  keeps : Disk.Change String → Bool
  /-- What is then left of the files that had not reached the disk. -/
  left : Nat → Bytes

namespace DiskFiles

/-- Report how a call turned out. -/
def report (answer : DiskAnswer) : Program String DiskFiles Unit :=
  match answer.error with
  | some message => throw message
  | none => pure ()

/-- Change the names, unless the call fails and does not take effect. -/
def change (change : Disk.Directory String UInt8 → Disk.Directory String UInt8) :
    Program String DiskFiles Unit := do
  let s ← get
  let answer := s.answers.head
  set { s with
    directory := if answer.error.isNone || answer.landed then change s.directory else s.directory
    answers := s.answers.tail }
  report answer

/-- Begin to write, once what was on its way before is written. -/
def writeAll (file : Nat) (bytes : Bytes) : Program String DiskFiles Unit := do
  let s ← get
  let answer := s.answers.head
  set { s with
    directory := s.directory.append file (s.inFlight ++ bytes.take answer.reached)
    inFlight := bytes.drop answer.reached
    answers := s.answers.tail }
  report answer

/-- Sync a file to which not all of what was on its way may have come. -/
def syncAll (file : Nat) : Program String DiskFiles Unit := do
  let s ← get
  let answer := s.answers.head
  let directory := s.directory.append file (s.inFlight.take answer.reached)
  set { s with
    directory := if answer.error.isNone then directory.sync file else directory
    inFlight := []
    unreported := if answer.reached < s.inFlight.length then s.unreported + 1 else s.unreported
    answers := s.answers.tail }
  report answer

/-- Every name that a file has, or would have if the power were lost. -/
def names (s : DiskFiles) : List String :=
  s.directory.entries.map (·.1) ++ s.directory.settled.map (·.1)
    ++ s.directory.pending.filterMap fun change => change.named.map (·.1)

instance : FileSystem DiskFiles where
  File := Nat
  create name := do
    -- A file that is opened has nothing on its way to it.
    modify fun s => { s with inFlight := [] }
    change (·.create name)
    let s ← get
    return (s.directory.find name).getD s.directory.next
  writeAll := writeAll
  syncAll := syncAll
  rename source target := change (·.rename source target)
  removeFile name := change (·.unlink name)
  readDir := do return .entries ((← get).directory.entries.map fun entry => .ok entry.1)
  read name := do
    match (← get).directory.find name with
    | some file => return ((← get).directory.files file).bytes
    | none => throw "No such file or directory (os error 2)"
  -- A text that is longer than every name is at the end of none.
  newV4 := do
    return String.ofList (List.replicate (((← get).names.map String.length).sum + 1) 'f')

/-- A file that has one name only, whatever becomes of the power. -/
structure Alone (d : Disk.Directory String UInt8) (name : String) (file : Nat) : Prop where
  found : d.find name = some file
  only : ∀ other, d.Names other file → other = name

instance : FileHistory DiskFiles where
  files s := s.directory.entries.map fun entry => (entry.1, (s.directory.files entry.2).bytes)
  Survives s name bytes := ∃ file, s.directory.Names name file
    ∧ ((s.directory.files file).bytes = bytes ∨ (s.directory.files file).synced = false)
  Writing s file name handed := Alone s.directory name file
    ∧ (s.directory.files file).bytes ++ s.inFlight = handed
  Synced s name bytes := ∃ file, Alone s.directory name file
    ∧ s.directory.files file = ⟨bytes, true⟩
  powerLoss s := { s with directory := s.directory.powerLoss s.keeps s.left }
  unreported := unreported

variable {s s' : DiskFiles} {name : String} {file : Nat}

/-- Where no file gets a name, only the names of files that change are touched. -/
theorem touches_files {names : List String}
    (entries : s'.directory.entries = s.directory.entries)
    (named : ∀ other file, s'.directory.Names other file → s.directory.Names other file)
    (same : ∀ other ∉ names, ∀ file, s.directory.Names other file →
      s'.directory.files file = s.directory.files file)
    (more : s.unreported ≤ s'.unreported) : Touches names s s' := by
  refine ⟨?_, fun other apart bytes survives => ?_, more⟩
  · show List.filter _ (s'.directory.entries.map _) = List.filter _ (s.directory.entries.map _)
    rw [entries, List.filter_map, List.filter_map]
    refine List.map_congr_left fun entry mem => ?_
    obtain ⟨there, apart⟩ := List.mem_filter.mp mem
    rw [same entry.1 (by simpa using apart) entry.2 (.inl there)]
  · obtain ⟨file, names, bytes⟩ := survives
    rw [same other apart file (named other file names)] at bytes
    exact ⟨file, named other file names, bytes⟩

/-- Where the directory stays what it is, nothing is touched. -/
theorem touches_of_eq {names : List String} (same : s'.directory = s.directory)
    (more : s.unreported ≤ s'.unreported) : Touches names s s' := by
  refine touches_files ?_ ?_ ?_ more
  · rw [same]
  · exact fun _ _ names => same ▸ names
  · exact fun _ _ _ _ => by rw [same]

/-- Whatever becomes of a file that has one name only, no other name is touched. -/
theorem touches_put {to_ : Disk.File UInt8} (alone : Alone s.directory name file)
    (put : s'.directory = s.directory.put file to_) (more : s.unreported ≤ s'.unreported) :
    Touches [name] s s' := by
  refine touches_files (by rw [put]; rfl) (fun _ _ names => by rw [put] at names; exact names)
    (fun other apart file' names => ?_) more
  -- Under another name there is another file, which stays what it is.
  have ne : file' ≠ file := by
    rintro rfl
    exact apart (List.mem_singleton.mpr (alone.only other names))
  rw [put]
  exact Function.update_of_ne ne _ _

/-- A change of names touches no others. -/
theorem touches_change {change : Disk.Change String}
    {made : ∀ entry, change.named = some entry → entry.2 < s.directory.next}
    (changed : s'.directory = s.directory.change change made)
    (more : s.unreported ≤ s'.unreported) : Touches change.names s s' := by
  refine ⟨?_, fun other apart bytes survives => ?_, more⟩
  · show List.filter _ (s'.directory.entries.map _) = List.filter _ (s.directory.entries.map _)
    rw [changed, List.filter_map, List.filter_map]
    exact congrArg _ (change.filter_apply _)
  · obtain ⟨file, names, bytes⟩ := survives
    rw [changed] at names bytes
    rcases Disk.Directory.names_change names with before | gives
    · exact ⟨file, before, bytes⟩
    · exact absurd (Disk.Change.mem_names gives) apart

/-- To make a file under a name touches no other name. -/
theorem touches_make (made : s'.directory = s.directory.make name)
    (more : s.unreported ≤ s'.unreported) : Touches [name] s s' := by
  -- The new file had no name before.
  let unnamed : DiskFiles := { s with directory := s.directory.fresh }
  have first : Touches [name] s unnamed := by
    refine touches_files rfl (fun _ _ => id) (fun other _ file names => ?_) (Nat.le_refl _)
    have below := s.directory.numbered (other, file) names
    exact Function.update_of_ne (Nat.ne_of_lt below) _ _
  exact first.trans (touches_change (s := unnamed) made more)

/-- A file that is on the disk goes from one name to another as it is. -/
theorem renamed_change {source target : String} {bytes : Bytes}
    {made : ∀ entry, (Disk.Change.move source target file).named = some entry →
      entry.2 < s.directory.next}
    (holds : s.directory.files file = ⟨bytes, true⟩)
    (changed : s'.directory = s.directory.change (.move source target file) made)
    (more : s.unreported ≤ s'.unreported) : Renamed source target bytes s s' := by
  -- The file keeps its bytes, and they are on the disk already.
  refine ⟨touches_change changed more, ?_, fun other survives => ?_⟩
  · show List.map _ s'.directory.entries = List.filter _ (List.map _ _) ++ _
    rw [changed, List.filter_map]
    show List.map _ (List.filter _ _ ++ [(target, file)]) = _
    rw [List.map_append, List.map_singleton]
    show _ ++ [(target, (s.directory.files file).bytes)] = _
    rw [holds]
    congr 2
    refine List.filter_congr fun entry _ => ?_
    simp
  · obtain ⟨file', names, held⟩ := survives
    rw [changed] at names held
    rcases Disk.Directory.names_change names with before | gives
    · exact .inl ⟨file', before, held⟩
    · -- The file that got the name has reached the disk.
      obtain ⟨-, rfl⟩ : target = target ∧ file = file' := by simpa [Disk.Change.named] using gives
      change (s.directory.files file).bytes = other ∨ (s.directory.files file).synced = false at held
      rw [holds] at held
      exact .inr (held.resolve_right nofun).symm

/-- A change of names takes effect, or is reported failed. -/
theorem change_spec (f : Disk.Directory String UInt8 → Disk.Directory String UInt8)
    (s : DiskFiles) :
    wp (change f)
      (fun _ s' => s'.directory = f s.directory ∧ s'.inFlight = s.inFlight
        ∧ s'.unreported = s.unreported)
      (fun _ s' => (s'.directory = s.directory ∨ s'.directory = f s.directory)
        ∧ s'.unreported = s.unreported) s := by
  simp only [change, wp_bind, wp_get, wp_set, report]
  cases s.answers.head.error with
  | none => exact ⟨rfl, rfl, rfl⟩
  | some message =>
    refine ⟨?_, rfl⟩
    cases s.answers.head.landed with
    | true => exact .inr rfl
    | false => exact .inl rfl

/-- A file that has one name only has no other after it is replaced. -/
theorem Alone.put {d : Disk.Directory String UInt8} (alone : Alone d name file)
    (to_ : Disk.File UInt8) : Alone (d.put file to_) name file := ⟨alone.found, alone.only⟩

/-- A file that was just made has one name only. -/
theorem alone_make (d : Disk.Directory String UInt8) (name : String) :
    Alone (d.make name) name d.next := by
  refine ⟨Disk.Directory.find_eq_some (List.mem_append_right _ (.head _)), fun other names => ?_⟩
  rcases Disk.Directory.names_make names with before | ⟨same, -⟩
  · exact absurd (d.numbered _ before) (Nat.lt_irrefl _)
  · exact same

/-- A name under which nothing can be read finds no file. -/
theorem find_eq_none (absent : ∀ bytes, ¬ Survives s name bytes) :
    s.directory.find name = none := by
  cases found : s.directory.find name with
  | none => rfl
  | some file =>
    have mem := Disk.Directory.mem_of_find found
    exact absurd ⟨file, .inl mem, .inl rfl⟩ (absent (s.directory.files file).bytes)

/-- A name that a file has, or would have if the power were lost, is among the names. -/
theorem mem_names (named : s.directory.Names name file) : name ∈ s.names := by
  rcases named with mem | mem | ⟨change, mem, gives⟩
  · exact List.mem_append_left _ (List.mem_append_left _ (List.mem_map.mpr ⟨_, mem, rfl⟩))
  · exact List.mem_append_left _ (List.mem_append_right _ (List.mem_map.mpr ⟨_, mem, rfl⟩))
  · refine List.mem_append_right _ (List.mem_filterMap.mpr ⟨change, mem, ?_⟩)
    rw [gives]
    rfl

/-- A file that was replaced is what it was replaced by. -/
theorem files_put (d : Disk.Directory String UInt8) (file : Nat) (to_ : Disk.File UInt8) :
    (d.put file to_).files file = to_ := Function.update_self ..

instance : LawfulFileSystem DiskFiles where
  unique s := by
    show (List.map _ (List.map _ s.directory.entries)).Nodup
    rw [List.map_map]
    exact s.directory.unique
  survives_files s entry mem := by
    obtain ⟨⟨name, file⟩, there, rfl⟩ := List.mem_map.mp mem
    exact ⟨file, .inl there, .inl rfl⟩
  create_spec name s absent := by
    have made : s.directory.create name = s.directory.make name := by
      rw [Disk.Directory.create, find_eq_none absent]
    show wp (modify _ >>= _) _ _ s
    simp only [wp_bind, wp_modify, wp_get, wp_pure]
    refine wp_mono (change_spec _ _) ?_ ?_
    · rintro _ s' ⟨changed, nothing, same⟩
      have changed : s'.directory = s.directory.make name := changed.trans made
      have alone := alone_make s.directory name
      rw [changed, alone.found]
      refine ⟨touches_make changed same.ge, changed ▸ alone, ?_⟩
      show (s'.directory.files s.directory.next).bytes ++ s'.inFlight = []
      rw [changed, nothing, List.append_nil]
      show (Function.update s.directory.files _ ⟨[], false⟩ s.directory.next).bytes = []
      rw [Function.update_self]
    · rintro _ s' ⟨unchanged | changed, same⟩
      · exact touches_of_eq unchanged same.ge
      · exact touches_make (changed.trans made) same.ge
  writeAll_spec file name handed bytes s writing := by
    obtain ⟨alone, holds⟩ := writing
    show wp (DiskFiles.writeAll file bytes) _ _ s
    simp only [writeAll, wp_bind, wp_get, wp_set, report]
    have touches : ∀ s' : DiskFiles, s'.directory = s.directory.append file
        (s.inFlight ++ bytes.take s.answers.head.reached) → s.unreported ≤ s'.unreported →
          Touches [name] s s' := fun s' => touches_put alone
    cases s.answers.head.error with
    | some message => exact touches _ rfl (Nat.le_refl _)
    | none =>
      refine ⟨touches _ rfl (Nat.le_refl _), alone.put _, ?_⟩
      -- What has come to the file, and what has not, is all that was handed over.
      show ((s.directory.append file _).files file).bytes ++ bytes.drop _ = handed ++ bytes
      rw [Disk.Directory.append, files_put, ← holds]
      simp
  syncAll_spec file name handed s writing := by
    obtain ⟨alone, holds⟩ := writing
    show wp (DiskFiles.syncAll file) _ _ s
    have counted : s.unreported ≤ (if s.answers.head.reached < s.inFlight.length
        then s.unreported + 1 else s.unreported) := by
      split <;> omega
    simp only [syncAll, wp_bind, wp_get, wp_set, report]
    cases s.answers.head.error with
    | some message => exact touches_put alone rfl counted
    | none =>
      -- First the write that is under way ends, and then the file is brought to the disk.
      let arrived := (s.directory.files file).bytes ++ s.inFlight.take s.answers.head.reached
      let written : DiskFiles := { s with directory := s.directory.put file ⟨arrived, false⟩ }
      have first : Touches [name] s written := touches_put alone rfl (Nat.le_refl _)
      have onDisk : ((written.directory.sync file).files file) = ⟨arrived, true⟩ := by
        show (written.directory.put file _).files file = _
        rw [files_put]
        show Disk.File.mk ((s.directory.put file _).files file).bytes true = _
        rw [files_put]
      refine ⟨first.trans (touches_put (s := written) (alone.put _) rfl counted), arrived,
        ⟨file, (alone.put _).put _, onDisk⟩, ?_, ?_⟩
      · rw [← holds]
        exact (List.prefix_append_right_inj _).mpr (List.take_prefix _ _)
      · show arrived = handed ∨ s.unreported < ite _ _ _
        split
        · exact .inr (Nat.lt_succ_self _)
        · rename_i all
          refine .inl ?_
          show _ ++ List.take _ _ = handed
          rw [List.take_of_length_le (Nat.le_of_not_lt all), holds]
  rename_spec source target bytes s synced := by
    obtain ⟨file, alone, holds⟩ := synced
    obtain ⟨made, renamed⟩ : ∃ made, s.directory.rename source target
        = s.directory.change (.move source target file) made := Disk.Directory.rename_eq alone.found
    refine wp_mono (change_spec _ s) ?_ ?_
    · rintro _ s' ⟨changed, -, same⟩
      exact renamed_change holds (changed.trans renamed) same.ge
    · rintro _ s' ⟨unchanged | changed, same⟩
      · exact .inl (touches_of_eq unchanged same.ge)
      · exact .inr (renamed_change holds (changed.trans renamed) same.ge)
  removeFile_spec name s := by
    refine wp_mono (change_spec _ s) (fun _ s' changed => ?_) ?_
    · exact touches_change changed.1 changed.2.2.ge
    · rintro _ s' ⟨unchanged | changed, same⟩
      · exact touches_of_eq unchanged same.ge
      · exact touches_change changed same.ge
  readDir_spec s := by
    refine ⟨touches_of_eq rfl (Nat.le_refl _), fun listed read => ?_⟩
    -- Names that are all read are those of the entries.
    have same : listed = s.directory.entries.map (·.1) := by
      refine List.map_injective_iff.mpr (fun _ _ => Except.ok.inj) (read.symm.trans ?_)
      rw [List.map_map]
      rfl
    have shown : (files s).map (·.1) = s.directory.entries.map (·.1) := by
      show List.map _ (List.map _ _) = _
      rw [List.map_map]
      rfl
    rw [shown, same]
  read_spec name s := by
    show wp (get >>= _) _ _ s
    simp only [wp_bind, wp_get]
    cases found : s.directory.find name with
    | none => exact touches_of_eq rfl (Nat.le_refl _)
    | some file =>
      exact ⟨touches_of_eq rfl (Nat.le_refl _),
        List.mem_map.mpr ⟨_, Disk.Directory.mem_of_find found, rfl⟩⟩
  newV4_spec s := by
    refine ⟨touches_of_eq rfl (Nat.le_refl _), fun name bytes ends survives => ?_⟩
    obtain ⟨file, named, -⟩ := survives
    -- A name that a file has, or could have, is shorter than the new text.
    have shorter := List.single_le_sum (fun _ _ => Nat.zero_le _) _
      (List.mem_map_of_mem (f := String.length) (mem_names named))
    have longer := ends.length_le
    rw [String.toList_ofList, List.length_replicate, String.length_toList] at longer
    omega
  powerLoss_spec s name bytes survives := by
    obtain ⟨file, named, held⟩ := survives
    refine ⟨file, Disk.Directory.names_powerLoss named, ?_⟩
    cases synced : (s.directory.files file).synced with
    | false => exact .inr rfl
    | true =>
      have same : (powerLoss s).directory.files file = s.directory.files file := if_pos synced
      rw [same, synced] at held
      exact .inl (held.resolve_right nofun)

end DiskFiles

end MirrorV3
