import MirrorV3.Fs.Chain
import MirrorV3.S3.Path

/-! The directory of a destination in a bucket, and what is listed there of what was put. -/

namespace MirrorV3

open Effect MonadExcept ObjectPaths

/-- The objects of a bucket, each path once, with the order it lists paths in. -/
structure Bucket where
  objects : List (Path × Bytes)
  order : List Path → List Path
  ordered : ∀ paths, (order paths).Perm paths

section Directory

variable [ObjectPaths]

namespace Bucket

/-- The paths that start with the segments of a directory. -/
def list (bucket : Bucket) (dir : Path) : List Path :=
  bucket.order ((bucket.objects.map (·.1)).filter fun path => (parts dir).isPrefixOf (parts path))

/-- Of the paths that start with the segments of a directory those that sort after one. -/
def listWithOffset (bucket : Bucket) (dir offset : Path) : List Path :=
  bucket.order ((bucket.objects.map (·.1)).filter fun path =>
    (parts dir).isPrefixOf (parts path) && decide (offset.raw < path.raw))

end Bucket

/-- The name of a listed object within a directory, or none for the directory itself. -/
def nameInDirectory (dir location : Path) : Option String :=
  go (parts dir) (parts location)
where
  /-- Compare the segments one by one, and keep a path that lies elsewhere whole. -/
  go : List (List Char) → List (List Char) → Option String
    | _ :: _, [] => none
    | want :: dir, part :: parts =>
      if part = want then go dir parts else some location.display
    | [], [] => none
    | [], rest => some (String.ofList (['/'].intercalate rest))

/-- One directory of a bucket, perhaps opened to read only. -/
structure S3Store where
  bucket : Bucket
  writable : Bool
  partitionPrefix : Path

/-- The directory of one partition of a destination. -/
def partitionPrefix (root : Option Path) (destinationName : String) (partition : UInt32) : Path :=
  fromIter ((root.map parts).getD []
    ++ [destinationName.toList, Nat.toDigits 10 partition.toNat])

/-- Where an object of a directory is put and read. -/
def pathIn (dir : Path) (name : String) : Path := fromIter (parts dir ++ [name.toList])

namespace S3Store

/-- Where an object of the store is put and read. -/
def path (s : S3Store) (name : String) : Path := pathIn s.partitionPrefix name

/-- Write an object that is not there yet. -/
def putNew (name : String) (bytes : Bytes) : Program BlobError S3Store Unit := do
  let s ← get
  let path := s.path name
  ensure (s.writable = true)
    (.store s!"put {path.display}: this store was opened to read only")
  ensure (path ∉ s.bucket.objects.map (·.1)) (.alreadyExists path.display)
  set { s with bucket := { s.bucket with objects := s.bucket.objects ++ [(path, bytes)] } }

/-- Read an object. -/
def getObject (name : String) : Program BlobError S3Store Bytes := do
  let s ← get
  match s.bucket.objects.lookup (s.path name) with
  | some bytes => pure bytes
  | none => throw (.store s!"get {(s.path name).display}: not found")

instance : BlobStore S3Store where
  list := do
    let s ← get
    return (s.bucket.list s.partitionPrefix).filterMap (nameInDirectory s.partitionPrefix)
  putNew := putNew
  get := getObject
  listAfter
    | some name => do
      let s ← get
      return (s.bucket.listWithOffset s.partitionPrefix (s.path name)).filterMap
        (nameInDirectory s.partitionPrefix)
    | none => do
      let s ← get
      return (s.bucket.list s.partitionPrefix).filterMap (nameInDirectory s.partitionPrefix)
  location s name := (s.path name).display

/-- A store in which some objects were put, whichever of the puts were refused. -/
def puts (s : S3Store) (objects : List (String × Bytes)) : S3Store :=
  objects.foldl (fun s (name, bytes) => after (BlobStore.putNew name bytes) s) s

end S3Store

/-- Whether a text is a name a sink gives to an object. -/
def IsBlobName (name : String) : Prop :=
  ∃ lo hi keyId format, (∀ id ∈ keyId, isKeyId id = true)
    ∧ name = blobFilename lo hi keyId (Format.extension format)

/-- Whether a listing answers, in any order, exactly the names there should be, and each once. -/
def Lists (listing : Program BlobError S3Store (List String)) (s : S3Store)
    (wanted : String → Prop) : Prop :=
  ∃ names, listing s = .ok names s ∧ names.Nodup ∧ ∀ name, name ∈ names ↔ wanted name

/-- What is put in a directory is found there. -/
structure Finds (dir : Path) : Prop where
  below : ∀ name, IsBlobName name → parts dir <+: parts (pathIn dir name)
    ∧ (parts dir).length < (parts (pathIn dir name)).length
  named : ∀ name, IsBlobName name → nameInDirectory dir (pathIn dir name) = some name
  /-- Whatever is put in a bucket without objects, a listing answers that. -/
  listed : ∀ s : S3Store, s.partitionPrefix = dir → s.writable = true → s.bucket.objects = [] →
    ∀ objects : List (String × Bytes), (∀ object ∈ objects, IsBlobName object.1) →
      Lists BlobStore.list (s.puts objects) (· ∈ objects.map (·.1))
        ∧ Lists (BlobStore.listAfter none) (s.puts objects) (· ∈ objects.map (·.1))
        ∧ ∀ after, IsBlobName after →
          Lists (BlobStore.listAfter (some after)) (s.puts objects)
            fun name => name ∈ objects.map (·.1) ∧ after < name

/-- A directory whose segments stay as they are when a path is built of them again. -/
structure Stays (dir : Path) : Prop where
  segments : ∀ part ∈ parts dir, part ≠ [] ∧ '/' ∉ part
  plain : ∀ part ∈ parts dir, ¬ Path.NeedsEncoding part

section Segments

omit [ObjectPaths] in
/-- Segments are joined the same way in front of whatever comes last. -/
theorem intercalate_concat (segments : List (List Char)) :
    ∃ front, ∀ last, ['/'].intercalate (segments ++ [last]) = front ++ last := by
  induction segments with
  | nil => exact ⟨[], fun last => by simp⟩
  | cons first rest ih =>
    obtain ⟨front, joined⟩ := ih
    refine ⟨first ++ '/' :: front, fun last => ?_⟩
    rw [List.cons_append, List.intercalate_cons_of_ne_nil (by simp), joined]
    simp

omit [ObjectPaths] in
/-- What comes before both of two texts has no part in their order. -/
theorem append_lt_append_iff (front : List Char) {a b : List Char} :
    front ++ a < front ++ b ↔ a < b := by
  induction front with
  | nil => rfl
  | cons c front ih => rw [List.cons_append, List.cons_append, List.cons_lt_cons_self, ih]

omit [ObjectPaths] in
/-- Below its own segments a directory finds what comes after them. -/
theorem go_append (location : Path) (dir : List (List Char)) (name : List Char) :
    nameInDirectory.go location dir (dir ++ [name]) = some (String.ofList name) := by
  induction dir with
  | nil => simp [nameInDirectory.go]
  | cons part dir ih => simp [nameInDirectory.go, ih]

end Segments

namespace Stays

variable {dir : Path} (stays : Stays dir) {name : String}

include stays

/-- An object lies directly in a directory that stays. -/
theorem pathIn_eq (is : IsBlobName name) :
    (pathIn dir name).raw = ['/'].intercalate (parts dir ++ [name.toList])
      ∧ parts (pathIn dir name) = parts dir ++ [name.toList] := by
  obtain ⟨lo, hi, keyId, format, named, rfl⟩ := is
  have plain := Path.plain_blobFilename lo hi format named
  have some_ : (blobFilename lo hi keyId format.extension).toList ≠ [] := by
    cases keyId <;> simp [blobFilename, batchFilename, rangeText]
  have same : ((parts dir ++ [(blobFilename lo hi keyId format.extension).toList]).map
      encodePart).filter (· ≠ [])
      = parts dir ++ [(blobFilename lo hi keyId format.extension).toList] := by
    have kept : (parts dir).map encodePart = parts dir :=
      (List.map_congr_left fun part mem => encodePart_of_plain part (stays.plain part mem)).trans
        (List.map_id' _)
    rw [List.map_append, kept, List.map_singleton, encodePart_of_plain _ plain,
      List.filter_eq_self]
    intro part mem
    rcases List.mem_append.mp mem with old | new
    · simpa using (stays.segments part old).1
    · rw [List.mem_singleton.mp new]
      simpa using some_
  refine ⟨?_, ?_⟩
  · rw [pathIn, raw_fromIter, same]
  · rw [pathIn, parts_fromIter, same]

/-- The name of an object is found again in its path. -/
theorem nameInDirectory_pathIn (is : IsBlobName name) :
    nameInDirectory dir (pathIn dir name) = some name := by
  rw [nameInDirectory, (stays.pathIn_eq is).2, go_append, String.ofList_toList]

/-- Two objects have two paths. -/
theorem pathIn_injective {other : String} (is : IsBlobName name) (is' : IsBlobName other)
    (same : pathIn dir name = pathIn dir other) : name = other := by
  have found := stays.nameInDirectory_pathIn is
  rw [same, stays.nameInDirectory_pathIn is'] at found
  exact (Option.some.inj found).symm

/-- Paths sort as the names do. -/
theorem pathIn_lt_iff {other : String} (is : IsBlobName name) (is' : IsBlobName other) :
    (pathIn dir name).raw < (pathIn dir other).raw ↔ name < other := by
  obtain ⟨front, joined⟩ := intercalate_concat (parts dir)
  rw [(stays.pathIn_eq is).1, (stays.pathIn_eq is').1, joined, joined, append_lt_append_iff]
  exact Iff.rfl

end Stays

/-- A store that holds an object of each of some names, and no other object. -/
structure S3Store.Holds (s : S3Store) (dir : Path) (names : List String) : Prop where
  here : s.partitionPrefix = dir
  writable : s.writable = true
  named : ∀ name ∈ names, IsBlobName name
  once : names.Nodup
  paths : s.bucket.objects.map (·.1) = names.map (pathIn dir)

namespace S3Store.Holds

variable {dir : Path} {s : S3Store} {names : List String}

/-- A put adds its name, unless it was there. -/
theorem putNew (stays : Stays dir) (holds : s.Holds dir names) {name : String} (bytes : Bytes)
    (is : IsBlobName name) :
    (after (BlobStore.putNew name bytes) s).Holds dir
      (if name ∈ names then names else names ++ [name]) := by
  -- Names of objects go to different locations, so a location is taken when its name is.
  have there : s.path name ∈ s.bucket.objects.map (·.1) ↔ name ∈ names := by
    rw [holds.paths, S3Store.path, holds.here, List.mem_map]
    constructor
    · rintro ⟨other, mem, same⟩
      exact stays.pathIn_injective (holds.named other mem) is same ▸ mem
    · exact fun mem => ⟨name, mem, rfl⟩
  have put : after (BlobStore.putNew name bytes) s
      = if s.path name ∈ s.bucket.objects.map (·.1) then s
        else { s with bucket := { s.bucket with
          objects := s.bucket.objects ++ [(s.path name, bytes)] } } := by
    apply after_of_wp (fun s' => s' = if s.path name ∈ s.bucket.objects.map (·.1) then s
      else { s with bucket := { s.bucket with
        objects := s.bucket.objects ++ [(s.path name, bytes)] } })
    show wp (S3Store.putNew name bytes) _ _ s
    simp only [S3Store.putNew, wp_bind, wp_get, wp_set, wp_ensure, holds.writable]
    by_cases taken : s.path name ∈ s.bucket.objects.map (·.1)
    · simp [taken]
    · simp [taken]
  rw [put]
  by_cases taken : name ∈ names
  · rw [if_pos (there.mpr taken), if_pos taken]
    exact holds
  · rw [if_neg (mt there.mp taken), if_neg taken]
    refine ⟨holds.here, holds.writable, fun other mem => ?_, ?_, ?_⟩
    · rcases List.mem_append.mp mem with old | new
      · exact holds.named other old
      · exact List.mem_singleton.mp new ▸ is
    · exact List.nodup_append.mpr ⟨holds.once, by simp, fun a mem b new => by
        rw [List.mem_singleton.mp new]
        exact fun same => taken (same ▸ mem)⟩
    · rw [List.map_append, List.map_append, holds.paths, S3Store.path, holds.here]
      rfl

/-- After some puts there is an object of each name that was put. -/
theorem puts (stays : Stays dir) (holds : s.Holds dir names) (objects : List (String × Bytes))
    (are : ∀ object ∈ objects, IsBlobName object.1) :
    ∃ held, (s.puts objects).Holds dir held
      ∧ ∀ name, name ∈ held ↔ name ∈ names ∨ name ∈ objects.map (·.1) := by
  induction objects generalizing s names with
  | nil => exact ⟨names, holds, by simp⟩
  | cons object rest ih =>
    obtain ⟨name, bytes⟩ := object
    obtain ⟨held, kept, those⟩ := ih (holds.putNew stays bytes (are (name, bytes) (by simp)))
      fun other mem => are other (List.mem_cons_of_mem _ mem)
    refine ⟨held, kept, fun other => ?_⟩
    rw [those, List.map_cons, List.mem_cons]
    split
    · rename_i taken
      constructor
      · exact fun mem => mem.imp_right .inr
      · rintro (mem | rfl | mem)
        · exact .inl mem
        · exact .inl taken
        · exact .inr mem
    · rw [List.mem_append, List.mem_singleton, or_assoc]

/-- What is listed of the objects a store holds, in whatever order. -/
theorem listing (stays : Stays dir) (holds : s.Holds dir names) (keep : Path → Bool)
    (wanted : String → Bool) (same : ∀ name ∈ names, keep (pathIn dir name) = wanted name) :
    (((s.bucket.order ((s.bucket.objects.map (·.1)).filter fun path =>
      (parts dir).isPrefixOf (parts path) && keep path)).filterMap (nameInDirectory dir))).Perm
      (names.filter wanted) := by
  have below : ((s.bucket.objects.map (·.1)).filter fun path =>
      (parts dir).isPrefixOf (parts path) && keep path) = (names.filter wanted).map (pathIn dir) := by
    rw [holds.paths, List.filter_map]
    refine congrArg _ (List.filter_congr fun name mem => ?_)
    have inside : parts dir <+: parts (pathIn dir name) := by
      rw [(stays.pathIn_eq (holds.named name mem)).2]
      exact List.prefix_append _ _
    simp [Function.comp_apply, same name mem, List.isPrefixOf_iff_prefix.mpr inside]
  rw [below]
  refine ((s.bucket.ordered _).filterMap _).trans ?_
  rw [List.filterMap_map]
  refine .of_eq ?_
  have found : ∀ name ∈ names.filter wanted, (nameInDirectory dir ∘ pathIn dir) name = some name :=
    fun name mem => stays.nameInDirectory_pathIn (holds.named name (List.mem_filter.mp mem).1)
  rw [List.filterMap_congr found]
  exact List.filterMap_some

end S3Store.Holds

/-- In a directory that stays, what is put is found. -/
theorem Stays.finds {dir : Path} (stays : Stays dir) : Finds dir where
  below name is := by
    rw [(stays.pathIn_eq is).2]
    exact ⟨List.prefix_append _ _, by simp⟩
  named name is := stays.nameInDirectory_pathIn is
  listed s here writable empty objects are := by
    have fresh : s.Holds dir [] := ⟨here, writable, by simp, .nil, by simp [empty]⟩
    -- What was put is there once, and each listing is told by the names below the directory.
    obtain ⟨held, holds, those⟩ := fresh.puts stays objects are
    generalize s.puts objects = s at holds
    have there : ∀ name, name ∈ held ↔ name ∈ objects.map (·.1) := by simpa using those
    have whole : Lists BlobStore.list s (· ∈ objects.map (·.1)) := by
      have listed := holds.listing stays (fun _ => true) (fun _ => true) fun _ _ => rfl
      simp only [Bool.and_true, List.filter_true] at listed
      refine ⟨_, rfl, ?_, fun name => ?_⟩
      · rw [holds.here]
        exact listed.nodup_iff.mpr holds.once
      · rw [holds.here]
        exact listed.mem_iff.trans (there name)
    refine ⟨whole, whole, fun after isAfter => ?_⟩
    have listed := holds.listing stays (fun path => decide ((pathIn dir after).raw < path.raw))
      (fun name => decide (after < name)) fun name mem =>
        decide_eq_decide.mpr (stays.pathIn_lt_iff isAfter (holds.named name mem))
    refine ⟨_, rfl, ?_, fun name => ?_⟩
    · rw [S3Store.path, holds.here]
      exact listed.nodup_iff.mpr (holds.once.filter _)
    · rw [S3Store.path, holds.here]
      exact listed.mem_iff.trans (by simp [there])

/-- Building a path again changes no segment of a directory in which objects are found. -/
theorem Finds.encodePart_eq {dir : Path} (finds : Finds dir) (some_ : ∀ part ∈ parts dir, part ≠ []) :
    ∀ part ∈ parts dir, encodePart part = part := by
  have is : IsBlobName (blobFilename 0 0 none (Format.extension .parquet)) :=
    ⟨0, 0, none, .parquet, by simp, rfl⟩
  have below := (finds.below _ is).1
  have kept : ((parts dir).map encodePart).filter (· ≠ []) = (parts dir).map encodePart := by
    rw [List.filter_eq_self]
    intro part mem
    obtain ⟨source, listed, rfl⟩ := List.mem_map.mp mem
    simpa using some_ source listed
  rw [pathIn, parts_fromIter, List.map_append, List.filter_append, kept] at below
  -- As many segments come first in the path as the directory has, each encoded once more.
  have mine := List.prefix_of_prefix_length_le below (List.prefix_append _ _) (by simp)
  have same : parts dir = (parts dir).map encodePart := mine.eq_of_length (by simp)
  exact List.map_inj_left.mp (same.symm.trans (List.map_id' _).symm)

/-- A segment that needs encoding has no place in a directory in which objects are found. -/
theorem Finds.plain {dir : Path} (finds : Finds dir) (some_ : ∀ part ∈ parts dir, part ≠ []) :
    ∀ part ∈ parts dir, ¬ Path.NeedsEncoding part := fun part mem needs =>
  Path.encodePart_ne needs (finds.encodePart_eq some_ part mem)

/-- The segments of the directory of a partition: those of the root and two more, all encoded. -/
theorem mem_parts_partitionPrefix {root : Option Path} {destinationName : String}
    {partition : UInt32} {part : List Char} :
    part ∈ parts (partitionPrefix root destinationName partition) ↔ part ≠ []
      ∧ ((∃ path ∈ root, ∃ source ∈ parts path, part = encodePart source)
        ∨ part = encodePart destinationName.toList
        ∨ part = encodePart (Nat.toDigits 10 partition.toNat)) := by
  rw [partitionPrefix, parts_fromIter, List.mem_filter, and_comm]
  cases root with
  | none => simp
  | some path => simp [@eq_comm _ (encodePart _) part]

/-- A segment of letters and digits needs no encoding. -/
theorem plain_of_isKeyIdStart {part : List Char} (starts : ∀ c ∈ part, isKeyIdStart c = true) :
    ¬ Path.NeedsEncoding part := by
  rintro (rfl | rfl | ⟨c, mem, taken⟩)
  · exact absurd (starts '.' (by simp)) (by decide)
  · exact absurd (starts '.' (by simp)) (by decide)
  · rw [PathEncoding.kept c (.inl (starts c mem))] at taken
    cases taken

/-- The number of a partition needs no encoding. -/
theorem plain_toDigits (n : Nat) : ¬ Path.NeedsEncoding (Nat.toDigits 10 n) := by
  refine plain_of_isKeyIdStart fun c mem => ?_
  have digit := Nat.isDigit_of_mem_toDigits (by decide) (by decide) mem
  simp [isKeyIdStart, digit]

/-- A directory of plain segments stays. -/
theorem stays_partitionPrefix {prefix_ : Option String} {destinationName : String}
    (prefixPlain : ∀ text ∈ prefix_, ∀ part ∈ text.toList.splitOn '/', ¬ Path.NeedsEncoding part)
    (namePlain : ¬ Path.NeedsEncoding destinationName.toList) (partition : UInt32) :
    Stays (partitionPrefix (prefix_.map from_) destinationName partition) := by
  -- Encoding leaves each of its segments as it is.
  refine ⟨fun part mem => ⟨(mem_parts_partitionPrefix.mp mem).1, ?_⟩, fun part mem => ?_⟩
  · rcases (mem_parts_partitionPrefix.mp mem).2 with ⟨path, -, source, -, rfl⟩ | rfl | rfl
    all_goals exact slash_notMem _
  · rcases (mem_parts_partitionPrefix.mp mem).2 with ⟨path, given, source, inside, rfl⟩ | rfl | rfl
    · obtain ⟨text, mine, rfl⟩ := Option.map_eq_some_iff.mp given
      rw [from_eq, parts_fromIter] at inside
      obtain ⟨part, listed, rfl⟩ := List.mem_map.mp (List.mem_filter.mp inside).1
      have plain := prefixPlain text mine part listed
      rw [encodePart_of_plain _ plain, encodePart_of_plain _ plain]
      exact plain
    · rw [encodePart_of_plain _ namePlain]
      exact namePlain
    · rw [encodePart_of_plain _ (plain_toDigits _)]
      exact plain_toDigits _

/--
When what a destination puts in a bucket is what it lists there.

A path is built anew for the directory and again for each object in it, and every time each segment
is encoded, so a segment that is encoded at all makes an object land outside its own directory.
-/
theorem finds_iff (prefix_ : Option String) (destinationName : String) (partition : UInt32) :
    Finds (partitionPrefix (prefix_.map from_) destinationName partition)
      ↔ (∀ text ∈ prefix_, ∀ part ∈ text.toList.splitOn '/', ¬ Path.NeedsEncoding part)
        ∧ ¬ Path.NeedsEncoding destinationName.toList := by
  -- The prefix is encoded when it is parsed and once more when the directory is put together.
  have root : ∀ {part}, (∃ path ∈ prefix_.map from_, ∃ source ∈ parts path,
      part = encodePart source) ↔ ∃ text ∈ prefix_, ∃ source ∈ text.toList.splitOn '/',
        source ≠ [] ∧ part = encodePart (encodePart source) := by
    intro part
    cases prefix_ with
    | none => simp
    | some text => simp [from_eq, parts_fromIter, and_assoc]
  have needy : ∀ {part}, Path.NeedsEncoding part → part ≠ [] := Path.ne_nil_of_needsEncoding
  constructor
  · intro finds
    have plain := finds.plain fun part mem => (mem_parts_partitionPrefix.mp mem).1
    refine ⟨fun text given part mem needs => ?_, fun needs => ?_⟩
    · -- A segment of the prefix is encoded once for the prefix and once for the directory.
      have twice := Path.needsEncoding_encodePart (Path.needsEncoding_encodePart needs)
      exact plain _ (mem_parts_partitionPrefix.mpr ⟨needy twice,
        .inl (root.mpr ⟨text, given, part, mem, needy needs, rfl⟩)⟩) twice
    · have once := Path.needsEncoding_encodePart needs
      exact plain _ (mem_parts_partitionPrefix.mpr ⟨needy once, .inr (.inl rfl)⟩) once
  · rintro ⟨prefixPlain, namePlain⟩
    exact (stays_partitionPrefix prefixPlain namePlain partition).finds

end Directory

namespace PathSample

/-- A destination in an empty bucket, by its name. -/
def destination (name : String) : S3Store where
  bucket := ⟨[], id, fun _ => .refl _⟩
  writable := true
  partitionPrefix := partitionPrefix none name 0

/-- The name of an object of one record. -/
def firstName : String := blobFilename 0 0 none (Format.extension .ndjson)

/-- A tilde in the name of a destination makes it blind to what it puts. -/
theorem tilde_not_found :
    ((destination "ops~1").puts [(firstName, [1])]).bucket.objects.map (·.1.display)
        = ["ops%257E1/0/00000000000000000000-00000000000000000000.ndjson"]
      ∧ value? (BlobStore.list ((destination "ops~1").puts [(firstName, [1])])) = some []
      ∧ ¬ Finds (partitionPrefix none "ops~1" 0) := by
  refine ⟨by decide +kernel, by decide +kernel, fun finds => ?_⟩
  refine ((finds_iff none "ops~1" 0).mp finds).2 (.inr (.inr ⟨'~', by decide, by decide⟩))

end PathSample

end MirrorV3
