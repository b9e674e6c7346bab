import MirrorV3.Config.Validate
import MirrorV3.Lib.Paths
import MirrorV3.S3.Directory

/-! Where the blob destinations of a configuration land, and when no two of them share a place. -/

namespace MirrorV3

open Config ObjectPaths Results

/-- The directory of one partition below a root. -/
def partitionDir (root destinationName : String) (partition : UInt32) : List Char :=
  Paths.join (Paths.join root.toList destinationName.toList) (Nat.toDigits 10 partition.toNat)

/-- A directory as the file system, or the object store, tells it from another. -/
inductive Directory where
  | filesystem (components : Paths.Components)
  | s3 (bucket : String) (dir : Path)
  deriving Repr, DecidableEq

/-- A directory as an operator writes it, leaving out what makes no difference. -/
inductive Spelling where
  | filesystem (rooted here : Bool) (segments : List (List Char)) (partition : UInt32)
  | s3 (bucket : String) (segments : List (List Char)) (partition : UInt32)
  deriving Repr, DecidableEq

/-- Every blob destination of a configuration with its mirror. -/
def Config.blobs (cfg : Config) : List (Config.Mirror × Destination) :=
  cfg.mirrors.flatMap fun m => (m.destinations.filter Destination.isBlob).map (m, ·)

/--
The root and the name of a destination, segment by segment.

A name that starts with a slash replaces the root.
-/
def spellingBelow (root destinationName : String) (partition : UInt32) : Spelling :=
  let name := destinationName.toList
  if Paths.isAbsolute name then .filesystem true false (Paths.segments name) partition
  else if root.toList = [] then
    .filesystem false (Paths.components name).here (Paths.segments name) partition
  else
    .filesystem (Paths.isAbsolute root.toList) (Paths.components root.toList).here
      (Paths.segments root.toList ++ Paths.segments name) partition

section Places

variable [ObjectPaths]

/-- Where a blob destination lands. -/
def Config.Destination.directory (m : Config.Mirror) (d : Destination) : Option Directory :=
  match d with
  | .kafka _ => none
  | .filesystem fs => some <| .filesystem <|
    Paths.components (partitionDir fs.root (d.effectiveName m.name) m.partition)
  | .s3 bucket => some <| .s3 bucket.bucket <|
    partitionPrefix (bucket.prefix_.map from_) (d.effectiveName m.name) m.partition

/--
The segments that are written of a directory, without the empty ones.

Those of the prefix are encoded once more than the name, which is a single segment.
-/
def segmentsBelow (prefix_ : Option String) (destinationName : String) : List (List Char) :=
  let segments := (prefix_.map (·.toList.splitOn '/')).getD []
  (segments.filter (· ≠ [])).map encodePart ++ [destinationName.toList].filter (· ≠ [])

/-- How the directory of a blob destination is written. -/
def Config.Destination.spelling (m : Config.Mirror) (d : Destination) : Option Spelling :=
  match d with
  | .kafka _ => none
  | .filesystem fs => some (spellingBelow fs.root (d.effectiveName m.name) m.partition)
  | .s3 bucket =>
    some (.s3 bucket.bucket (segmentsBelow bucket.prefix_ (d.effectiveName m.name)) m.partition)

end Places

section Filesystem

variable {partition : UInt32}

/-- The number of a partition is one segment, and the path it is alone is that segment. -/
theorem components_toDigits (n : Nat) :
    Paths.components (Nat.toDigits 10 n) = ⟨false, false, [Nat.toDigits 10 n]⟩ := by
  have digit : ∀ c ∈ Nat.toDigits 10 n, c.isDigit = true := fun c mem =>
    Nat.isDigit_of_mem_toDigits (by decide) (by decide) mem
  have slash : '/' ∉ Nat.toDigits 10 n := fun mem => absurd (digit '/' mem) (by decide)
  have dot : Nat.toDigits 10 n ≠ ['.'] := fun same =>
    absurd (digit '.' (by simp [same])) (by decide)
  have first : (Nat.toDigits 10 n).head? ≠ some '/' := fun first =>
    slash (List.mem_of_mem_head? first)
  simp [Paths.components, Paths.isAbsolute, first, List.splitOn_eq_singleton slash, dot,
    Paths.segments_single slash (by simp) dot]

/-- The number of a partition is read from its digits. -/
theorem toDigits_partition_injective {a b : UInt32}
    (same : Nat.toDigits 10 a.toNat = Nat.toDigits 10 b.toNat) : a = b := by
  apply UInt32.toNat_inj.mp
  rw [← Nat.ofDigitChars_ten_toDigits (n := a.toNat), same, Nat.ofDigitChars_ten_toDigits]

/-- The directory of a partition is one more segment below the base. -/
theorem components_join_toDigits (base : List Char) (n : Nat) :
    Paths.components (Paths.join base (Nat.toDigits 10 n))
      = ⟨(Paths.components base).rooted, (Paths.components base).here,
        (Paths.components base).segments ++ [Nat.toDigits 10 n]⟩ := by
  have alone := components_toDigits n
  by_cases empty : base = []
  · rw [Paths.join_eq (.inl empty), alone, empty]
    rfl
  · rw [Paths.components_join empty (congrArg Paths.Components.rooted alone),
      show Paths.segments (Nat.toDigits 10 n) = [Nat.toDigits 10 n] from
        congrArg Paths.Components.segments alone]
    rfl

/-- The components of a directory are what is written of it, and the partition. -/
theorem components_partitionDir (root destinationName : String) (partition : UInt32) :
    ∃ rooted here segments,
      spellingBelow root destinationName partition = .filesystem rooted here segments partition
        ∧ Paths.components (partitionDir root destinationName partition)
          = ⟨rooted, here, segments ++ [Nat.toDigits 10 partition.toNat]⟩ := by
  simp only [spellingBelow, partitionDir, components_join_toDigits]
  by_cases absolute : Paths.isAbsolute destinationName.toList = true
  · refine ⟨_, _, _, if_pos absolute, ?_⟩
    rw [Paths.join_eq (.inr absolute), Paths.here_of_isAbsolute absolute]
    simp [Paths.components, absolute]
  · have relative : Paths.isAbsolute destinationName.toList = false := by simpa using absolute
    by_cases unrooted : root.toList = []
    · refine ⟨_, _, _, (if_neg absolute).trans (if_pos unrooted), ?_⟩
      rw [Paths.join_eq (.inl unrooted)]
      simp [Paths.components, relative]
    · refine ⟨_, _, _, (if_neg absolute).trans (if_neg unrooted), ?_⟩
      rw [Paths.components_join unrooted relative]

/-- Two directories of a file system are the same exactly when they are written alike. -/
theorem partitionDir_eq_iff {root root' name name' : String} {partition partition' : UInt32} :
    Paths.components (partitionDir root name partition)
        = Paths.components (partitionDir root' name' partition')
      ↔ spellingBelow root name partition = spellingBelow root' name' partition' := by
  obtain ⟨rooted, here, segments, written, is⟩ := components_partitionDir root name partition
  obtain ⟨rooted', here', segments', written', is'⟩ := components_partitionDir root' name' partition'
  rw [written, written', is, is']
  constructor
  · intro same
    injection same with rootedSame hereSame segmentsSame
    obtain ⟨front, last⟩ := List.append_inj' segmentsSame rfl
    have number := toDigits_partition_injective (List.singleton_inj.mp last)
    rw [rootedSame, hereSame, front, number]
  · intro same
    injection same with rootedSame hereSame segmentsSame number
    rw [rootedSame, hereSame, segmentsSame, number]

end Filesystem

section Buckets

variable [ObjectPaths]

/-- The directory of a partition in a bucket, segment by segment. -/
theorem parts_partitionPrefix (prefix_ : Option String) (name : String) (partition : UInt32) :
    parts (partitionPrefix (prefix_.map from_) name partition)
      = (segmentsBelow prefix_ name ++ [Nat.toDigits 10 partition.toNat]).map encodePart := by
  have digits : Nat.toDigits 10 partition.toNat ≠ [] := by simp
  have filtered : ∀ segments : List (List Char), (segments.map encodePart).filter (· ≠ [])
      = (segments.filter (· ≠ [])).map encodePart := by
    intro segments
    rw [List.filter_map]
    exact congrArg _ (List.filter_congr fun part _ => by simp)
  -- The prefix is read into a path first, and its segments are taken from there.
  have root : ((prefix_.map from_).map parts).getD []
      = (((prefix_.map (·.toList.splitOn '/')).getD []).filter (· ≠ [])).map encodePart := by
    cases prefix_ with
    | none => rfl
    | some text => rw [← filtered]; simp [from_eq, parts_fromIter]
  rw [partitionPrefix, parts_fromIter, root, filtered, segmentsBelow, List.append_assoc,
    List.filter_append]
  congr 1
  congr 1
  · rw [← filtered]
    simp [List.filter_filter]
  · by_cases empty : name.toList = []
    · simp [empty, digits]
    · simp [empty, digits]

/-- Two directories of a bucket are the same exactly when they are written alike. -/
theorem partitionPrefix_eq_iff {prefix_ prefix' : Option String} {name name' : String}
    {partition partition' : UInt32} :
    partitionPrefix (prefix_.map from_) name partition
        = partitionPrefix (prefix'.map from_) name' partition'
      ↔ segmentsBelow prefix_ name = segmentsBelow prefix' name' ∧ partition = partition' := by
  constructor
  · intro same
    have parts := congrArg parts same
    rw [parts_partitionPrefix, parts_partitionPrefix] at parts
    obtain ⟨front, last⟩ :=
      List.append_inj' (List.map_injective_iff.mpr encodePart_injective parts) rfl
    exact ⟨front, toDigits_partition_injective (List.singleton_inj.mp last)⟩
  · rintro ⟨segments, rfl⟩
    apply Path.fromIter_eq_of_parts
    rw [← partitionPrefix, ← partitionPrefix, parts_partitionPrefix, parts_partitionPrefix, segments]

/-- Two blob destinations land in one place exactly when their directories are written alike. -/
theorem directory_eq_iff {m m' : Config.Mirror} {d d' : Destination} :
    d.directory m = d'.directory m' ↔ d.spelling m = d'.spelling m' := by
  cases d with
  | kafka k => cases d' <;> simp [Destination.directory, Destination.spelling]
  | filesystem fs =>
    cases d' with
    | kafka k => simp [Destination.directory, Destination.spelling]
    | filesystem fs' =>
      simpa [Destination.directory, Destination.spelling] using partitionDir_eq_iff
    | s3 bucket =>
      obtain ⟨rooted, here, segments, written, -⟩ := components_partitionDir fs.root
        ((Destination.filesystem fs).effectiveName m.name) m.partition
      simp [Destination.directory, Destination.spelling, written]
  | s3 bucket =>
    cases d' with
    | kafka k => simp [Destination.directory, Destination.spelling]
    | filesystem fs =>
      obtain ⟨rooted, here, segments, written, -⟩ := components_partitionDir fs.root
        ((Destination.filesystem fs).effectiveName m'.name) m'.partition
      simp [Destination.directory, Destination.spelling, written]
    | s3 bucket' =>
      simp [Destination.directory, Destination.spelling, partitionPrefix_eq_iff]

end Buckets

section Accepted

variable [ConfigLibraries]

/-- Directories that were accepted one after the other have different texts. -/
theorem of_validateBlobDirs {dirs seen : List (String × String)}
    (accepted : validateBlobDirs seen dirs = .ok ()) :
    (∀ dir ∈ dirs, dir.1 ∉ seen.map (·.1)) ∧ (dirs.map (·.1)).Nodup := by
  induction dirs generalizing seen with
  | nil => simp
  | cons first rest ih =>
    obtain ⟨dir, name⟩ := first
    simp only [validateBlobDirs] at accepted
    split at accepted
    · cases accepted
    · rename_i unseen
      obtain ⟨each, apart⟩ := ih accepted
      have fresh : dir ∉ seen.map (·.1) := by
        intro mem
        obtain ⟨entry, listed, same⟩ := List.mem_map.mp mem
        have found := List.lookup_eq_none_iff.mp unseen entry listed
        exact absurd same.symm (by simpa using found)
      refine ⟨fun other mem => ?_, ?_⟩
      · rcases List.mem_cons.mp mem with rfl | later
        · exact fresh
        · exact fun old => each other later (List.mem_cons_of_mem _ old)
      · -- A later directory finds the text of this one among those seen.
        rw [List.map_cons, List.nodup_cons]
        refine ⟨fun mem => ?_, apart⟩
        obtain ⟨other, listed, same⟩ := List.mem_map.mp mem
        exact each other listed (same ▸ List.mem_cons_self)

omit [ConfigLibraries] in
/-- The texts that are compared are those of the blob destinations, in order. -/
theorem blobDir_blobs (cfg : Config) :
    (cfg.mirrors.flatMap fun m => m.destinations.filterMap fun d => (d.blobDir m).map (·, m.name)).map
        (fun dir => some dir.1)
      = cfg.blobs.map fun blob => blob.2.blobDir blob.1 := by
  have one : ∀ (m : Config.Mirror) (destinations : List Destination),
      (destinations.filterMap fun d => (d.blobDir m).map (·, m.name)).map (fun dir => some dir.1)
        = (destinations.filter Destination.isBlob).map fun d => d.blobDir m := by
    intro m destinations
    induction destinations with
    | nil => rfl
    | cons d rest ih =>
      cases d with
      | kafka k => exact ih
      | filesystem fs => exact congrArg (List.cons _) ih
      | s3 bucket => exact congrArg (List.cons _) ih
  rw [Config.blobs, List.map_flatMap, List.map_flatMap]
  refine congrArg (fun f => cfg.mirrors.flatMap f) (funext fun m => ?_)
  rw [one, List.map_map]
  rfl

/-- The blob destinations of a configuration that was read have different texts. -/
theorem pairwise_blobDir {env : String → Option String} {yaml : String} {cfg : Config}
    (loaded : loadFromStr env yaml = .ok cfg) :
    cfg.blobs.Pairwise fun a b => a.2.blobDir a.1 ≠ b.2.blobDir b.1 := by
  obtain ⟨⟨⟩, -, valid⟩ := of_bind_ok (validate_of_loadFromStr loaded)
  obtain ⟨⟨⟩, apart, -⟩ := of_bind_ok valid
  rw [← List.pairwise_map, ← blobDir_blobs, List.pairwise_map]
  exact (List.pairwise_map.mp (of_validateBlobDirs apart).2).imp fun differ same =>
    differ (Option.some.inj same)

/--
When no two blob destinations of an accepted configuration write one directory.

The texts of their directories are different, which does not make the directories so: a root or a
prefix has more than one spelling, and a name that starts with a slash replaces its root.
-/
theorem one_writer_iff [ObjectPaths] {env : String → Option String} {yaml : String} {cfg : Config}
    (loaded : loadFromStr env yaml = .ok cfg) :
    cfg.blobs.Pairwise (fun a b => a.2.blobDir a.1 ≠ b.2.blobDir b.1)
      ∧ (cfg.blobs.Pairwise (fun a b => a.2.directory a.1 ≠ b.2.directory b.1)
        ↔ cfg.blobs.Pairwise fun a b => a.2.spelling a.1 ≠ b.2.spelling b.1) := by
  refine ⟨pairwise_blobDir loaded, ?_, ?_⟩
  · intro apart
    exact apart.imp fun differ same => differ (directory_eq_iff.mpr same)
  · intro apart
    exact apart.imp fun differ same => differ (directory_eq_iff.mp same)

end Accepted

namespace DirectorySample

open PathSample

/-- A mirror of one topic to a directory. -/
def toRoot (name root : String) : Config.Mirror where
  name := name
  source := ⟨"broker:9092", none⟩
  topic := name
  partition := 0
  destinations := [.filesystem ⟨some "x", root, true⟩]
  format := none
  compression := none
  keys := none
  values := none
  compaction := none
  flush := some ⟨60000, 1000000, 1000, none⟩
  timestampMode := none
  httpAccess := none
  enabled := none
  notify := none

/-- Libraries that read two texts, each of two mirrors. -/
scoped instance configLibraries : ConfigLibraries where
  fromStr text :=
    if text = "apart" then .ok ⟨[toRoot "a" "/data", toRoot "b" "/logs"]⟩
    else if text = "together" then .ok ⟨[toRoot "a" "/data", toRoot "b" "/data/"]⟩
    else .error "not a sample"
  parseUrl _ := .error "not a sample"
  debug := String.quote

/-- Two roots that are not alike keep the mirrors apart. -/
theorem one_writer_iff_sample :
    (Config.mk [toRoot "a" "/data", toRoot "b" "/logs"]).blobs.Pairwise
      fun a b => a.2.directory a.1 ≠ b.2.directory b.1 := by
  have loaded : loadFromStr (fun _ => none) "apart"
      = .ok ⟨[toRoot "a" "/data", toRoot "b" "/logs"]⟩ := by decide +kernel
  refine (one_writer_iff loaded).2.mpr ?_
  decide +kernel

/-- A slash at the end of a root lets two mirrors write one directory. -/
theorem together_accepted :
    loadFromStr (fun _ => none) "together" = .ok ⟨[toRoot "a" "/data", toRoot "b" "/data/"]⟩
      ∧ ¬ (Config.mk [toRoot "a" "/data", toRoot "b" "/data/"]).blobs.Pairwise
        fun a b => a.2.directory a.1 ≠ b.2.directory b.1 := by
  decide +kernel

end DirectorySample

end MirrorV3
