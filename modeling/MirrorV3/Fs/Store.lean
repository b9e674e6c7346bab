import Mathlib.Data.Stream.Defs
import MirrorV3.Fs.Archive
import MirrorV3.Fs.Upkeep

/-! What a blob store promises: a put takes effect before it is reported, or never. -/

namespace MirrorV3

open Effect

/-- The objects of a directory, in the order their puts took effect. -/
class BlobHistory (σ : Type) where
  objects : σ → List BlobObject

export BlobHistory (objects)

/-- A directory with one writer, whose objects stay as they were put. -/
class LawfulBlobStore (σ : Type) [BlobStore σ] [BlobHistory σ] : Prop where
  /-- A listing names every object once, in any order. -/
  list_spec : ∀ s : σ, wp (BlobStore.list : Program BlobError σ _)
    (fun names s' => names.Perm ((objects s).map (·.1)) ∧ objects s' = objects s)
    (fun _ s' => objects s' = objects s) s
  /-- A put of a new name that is reported done took effect, and a failed one may have. -/
  putNew_spec : ∀ name bytes (s : σ), name ∉ (objects s).map (·.1) →
    wp (BlobStore.putNew name bytes : Program BlobError σ _)
      (fun _ s' => objects s' = objects s ++ [(name, bytes)])
      (fun _ s' => objects s' = objects s ∨ objects s' = objects s ++ [(name, bytes)]) s
  /-- Reading an object changes nothing. -/
  get_spec : ∀ name (s : σ), wp (BlobStore.get name : Program BlobError σ _)
    (fun bytes s' => (objects s).lookup name = some bytes ∧ objects s' = objects s)
    (fun _ s' => objects s' = objects s) s
  /-- A partial listing changes nothing. -/
  listAfter_spec : ∀ after (s : σ), wp (BlobStore.listAfter after : Program BlobError σ _)
    (fun _ s' => objects s' = objects s) (fun _ s' => objects s' = objects s) s

/-- Two states of a store that hold the same objects. -/
def SameObjects {σ : Type} [BlobHistory σ] (store store' : σ) : Prop :=
  objects store' = objects store

/-- A lawful store holds the same objects after it was listed. -/
theorem listsOnly_sameObjects {σ : Type} [EnvelopeLibraries] [BlobStore σ] [BlobHistory σ]
    [LawfulBlobStore σ] : BlobSink.ListsOnly (SameObjects (σ := σ)) :=
  LawfulBlobStore.listAfter_spec

/-- What the store does with one request. -/
structure StoreAnswer where
  /-- The request is reported failed. -/
  error : Option BlobError
  /-- A put takes effect although it is reported failed. -/
  landed : Bool

/-- A directory kept in memory, with everything it will answer. -/
structure ObjectStore where
  stored : List BlobObject
  answers : Stream' StoreAnswer

namespace ObjectStore

instance : BlobHistory ObjectStore := ⟨stored⟩

/-- Send one request, which the store answers or fails. -/
def request : Program BlobError ObjectStore Unit := do
  let s ← get
  set { s with answers := s.answers.tail }
  match s.answers.head.error with
  | some error => throw error
  | none => pure ()

/-- Write an object, which takes effect if the store says so even when it reports a failure. -/
def putNew (name : String) (bytes : Bytes) : Program BlobError ObjectStore Unit := do
  let s ← get
  ensure (name ∉ s.stored.map (·.1)) (.alreadyExists name)
  let answer := s.answers.head
  let landed : ObjectStore := { s with stored := s.stored ++ [(name, bytes)] }
  set { (if answer.error.isNone || answer.landed then landed else s) with
    answers := s.answers.tail }
  match answer.error with
  | some error => throw error
  | none => pure ()

/-- Read an object. -/
def getObject (name : String) : Program BlobError ObjectStore Bytes := do
  request
  match (← get).stored.lookup name with
  | some bytes => pure bytes
  | none => throw (.store s!"no object {name}")

instance : BlobStore ObjectStore where
  list := do
    request
    return (← get).stored.map (·.1)
  putNew := putNew
  get := getObject
  listAfter after := do
    request
    return ((← get).stored.map (·.1)).filter fun name => after.all (· < name)
  location _ name := name

/-- A request changes no object. -/
theorem request_spec (s : ObjectStore) :
    wp request (fun _ s' => s'.stored = s.stored) (fun _ s' => s'.stored = s.stored) s := by
  simp only [request, wp_bind, wp_get, wp_set]
  cases s.answers.head.error <;> rfl

instance : LawfulBlobStore ObjectStore where
  list_spec s := by
    show wp (request >>= _) _ _ s
    simp only [wp_bind, wp_get, wp_pure]
    exact wp_mono (request_spec s)
      (fun _ _ same => ⟨by rw [same]; exact .refl _, same⟩) (fun _ _ same => same)
  putNew_spec name bytes s fresh := by
    show wp (putNew name bytes) _ _ s
    have absent : name ∉ s.stored.map (·.1) := fresh
    simp only [putNew, wp_bind, wp_get, wp_ensure, wp_set, if_pos absent]
    cases outcome : s.answers.head.error with
    | none => rfl
    | some error =>
      cases s.answers.head.landed with
      | false => exact .inl rfl
      | true => exact .inr rfl
  get_spec name s := by
    show wp (request >>= _) _ _ s
    simp only [wp_bind, wp_get]
    refine wp_mono (request_spec s) (fun _ s' same => ?_) (fun _ _ same => same)
    cases found : s'.stored.lookup name with
    | none => exact same
    | some bytes =>
      rw [same] at found
      exact ⟨found, same⟩
  listAfter_spec after s := by
    show wp (request >>= _) _ _ s
    simp only [wp_bind, wp_get, wp_pure]
    exact wp_mono (request_spec s) (fun _ _ same => same) (fun _ _ same => same)

end ObjectStore

/-- A clear blob destination on a store that answers, its chain ending at a position. -/
def Sample.blobAt (compaction : Option CompactionMode) (durable : Nat) : BlobSink ObjectStore where
  store := ⟨[], fun _ => ⟨none, false⟩⟩
  spec := ⟨.ndjson, .zstd1, .utf8, .utf8, compaction, ⟨1000, 1000, 1, none⟩, none⟩
  checked := rfl
  durablePosition := durable
  buffer := []
  bufferBytes := 0
  bufferStarted := none
  view := compaction.map fun _ => {}
  nextDailyUnix := none
  clocks := ⟨fun _ => 0, fun _ => 0⟩
  flushObserver := none
  tail := []
  lastDriftCheck := 0
  driftCheckInterval := driftCheckInterval

end MirrorV3
