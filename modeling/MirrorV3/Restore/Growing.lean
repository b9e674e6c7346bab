import Mathlib.Data.Stream.Defs
import MirrorV3.Fs.Archive

/-! A backup that its mirror keeps adding objects to, as a store that may fail any request. -/

namespace MirrorV3

open Effect

/-- What happens around one request to a growing backup. -/
structure GrowingAnswer where
  /-- The request is reported failed. -/
  error : Option BlobError
  /-- Objects that are added before it is served. -/
  added : Nat

/-- A backup that shows the first of the objects that will ever be written to it. -/
structure GrowingStore where
  written : List BlobObject
  shown : Nat
  answers : Stream' GrowingAnswer

namespace GrowingStore

/-- The objects that are there at this moment. -/
def stored (s : GrowingStore) : List BlobObject := s.written.take s.shown

/-- Send one request, before which objects may be added, and which the store answers or fails. -/
def request : Program BlobError GrowingStore Unit := do
  let s ← get
  set { s with shown := s.shown + s.answers.head.added, answers := s.answers.tail }
  match s.answers.head.error with
  | some error => throw error
  | none => pure ()

instance : BlobStore GrowingStore where
  list := do
    request
    return (← get).stored.map (·.1)
  -- Only the mirror that the backup is of writes to it.
  putNew name _ := throw (.store s!"{name}: the backup is only read")
  get name := do
    request
    match (← get).stored.lookup name with
    | some bytes => pure bytes
    | none => throw (.store s!"no object {name}")
  listAfter after := do
    request
    return ((← get).stored.map (·.1)).filter fun name => after.all (· < name)
  location _ name := name

/-- A store that fails no request from now on. -/
def Quiet (s : GrowingStore) : Prop := ∀ n, (s.answers.get n).error = none

/-- A later moment of the same backup: it shows the same objects or more. -/
structure Later (s s' : GrowingStore) : Prop where
  written : s'.written = s.written
  shown : s.shown ≤ s'.shown
  quiet : s.Quiet → s'.Quiet

/-- Every moment is a later moment of itself. -/
theorem Later.refl (s : GrowingStore) : Later s s := ⟨rfl, Nat.le_refl _, id⟩

/-- A moment later than a later one is later. -/
theorem Later.trans {s s' s'' : GrowingStore} (one : Later s s') (other : Later s' s'') :
    Later s s'' :=
  ⟨other.written.trans one.written, Nat.le_trans one.shown other.shown,
    fun quiet => other.quiet (one.quiet quiet)⟩

/-- A request takes nothing away, however it ends, and a quiet store answers it. -/
theorem request_spec (s : GrowingStore) :
    wp request (fun _ s' => Later s s') (fun _ s' => Later s s' ∧ ¬ s.Quiet) s := by
  -- The shown part only ever gets longer, and what is answered later is answered quietly too.
  have later : Later s { s with shown := s.shown + s.answers.head.added, answers := s.answers.tail } :=
    ⟨rfl, Nat.le_add_right _ _, fun quiet n => quiet (n + 1)⟩
  simp only [request, wp_bind, wp_get, wp_set]
  cases failed : s.answers.head.error with
  | none => exact later
  | some error =>
    refine ⟨later, ?_⟩
    intro quiet
    have answered : s.answers.head.error = none := quiet 0
    rw [failed] at answered
    cases answered

/-- A listing names what is there by then and sorts after the name it starts from. -/
theorem listAfter_spec (start : Option String) (s : GrowingStore) :
    wp (BlobStore.listAfter start : Program BlobError GrowingStore _)
      (fun names s' => Later s s'
        ∧ names = (s'.stored.map (·.1)).filter fun name => start.all (· < name))
      (fun _ s' => Later s s' ∧ ¬ s.Quiet) s := by
  show wp (request >>= _) _ _ s
  simp only [wp_bind, wp_get, wp_pure]
  exact wp_mono (request_spec s) (fun _ _ later => ⟨later, trivial⟩) (fun _ _ later => later)

/-- An object that is read is one that is there by then, and a quiet store reads every such object. -/
theorem get_spec (name : String) (s : GrowingStore) :
    wp (BlobStore.get name : Program BlobError GrowingStore _)
      (fun bytes s' => Later s s' ∧ s'.stored.lookup name = some bytes)
      (fun _ s' => Later s s' ∧ (s'.stored.lookup name = none ∨ ¬ s.Quiet)) s := by
  show wp (request >>= _) _ _ s
  simp only [wp_bind, wp_get]
  refine wp_mono (request_spec s) (fun _ s' later => ?_) ?_
  · cases found : s'.stored.lookup name with
    | none => exact ⟨later, .inl found⟩
    | some bytes => exact ⟨later, found⟩
  · rintro _ _ ⟨later, failed⟩
    exact ⟨later, .inr failed⟩

end GrowingStore

end MirrorV3
