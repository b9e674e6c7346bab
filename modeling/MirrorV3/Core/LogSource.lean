import Mathlib.Data.Stream.Defs
import MirrorV3.Lib.Window
import MirrorV3.Core.Traits

/-! A partition log as a source: read in order from any position, at moments it may not answer. -/

namespace MirrorV3

open Effect

/-- The records of a partition, numbered in increasing order with holes allowed. -/
structure Log where
  records : List Record
  increasing : records.Pairwise (·.sourceOffset < ·.sourceOffset)
  /-- A broker numbers records with a signed 64-bit integer. -/
  numbered : ∀ r ∈ records, r.sourceOffset < 2 ^ 63

/-- The records with offsets from `lo` up to but not including `hi`. -/
def Log.between (log : Log) (lo hi : Nat) : List Record :=
  Window.between (·.sourceOffset) lo hi log.records

/-- The first record at `position` or above. -/
def Log.next (log : Log) (position : Nat) : Option Record :=
  Window.firstFrom (·.sourceOffset) position log.records

/-- What the broker does with one request. -/
structure SourceAnswer where
  /-- The request fails. -/
  error : Option SourceError
  /-- The poll window elapses first. -/
  idle : Bool
  /-- The high watermark at this moment. -/
  highWatermark : Nat

/-- A consumer of a log, with everything the broker will answer it. -/
structure LogSource where
  log : Log
  /-- The offset the next poll reads from. -/
  position : Nat
  lowWatermark : Nat
  answers : Stream' SourceAnswer

namespace LogSource

/-- Send one request, which the broker answers or fails. -/
def request : Program SourceError LogSource SourceAnswer := do
  let s ← get
  set { s with answers := s.answers.tail }
  match s.answers.head.error with
  | some error => throw error
  | none => pure s.answers.head

/-- Read the next record, unless the window elapses or the log ends. -/
def pollOne : Program SourceError LogSource (Option Record) := do
  let answer ← request
  let s ← get
  if answer.idle then pure none
  else
    match s.log.next s.position with
    | none => pure none
    | some record => do
      set { s with position := record.sourceOffset + 1 }
      pure (some record)

instance : Source LogSource where
  seek nextOffset := do
    let _ ← request
    modify fun s => { s with position := nextOffset }
  pollOne := pollOne
  lowWatermark := do
    let _ ← request
    return (← get).lowWatermark
  highWatermark := do return (← request).highWatermark

/-- A source of which nothing is left to read. -/
def AtEnd (s : LogSource) : Prop := s.log.next s.position = none

instance (s : LogSource) : Decidable s.AtEnd :=
  inferInstanceAs (Decidable (s.log.next s.position = none))

/-- The log and the low watermark stay what they are through every request. -/
def SameLog (s s' : LogSource) : Prop := s'.log = s.log ∧ s'.lowWatermark = s.lowWatermark

/-- A request moves nothing but the broker's answers on. -/
theorem request_spec (s : LogSource) :
    wp request (fun _ s' => SameLog s s' ∧ s'.position = s.position) (fun _ s' => SameLog s s')
      s := by
  simp only [request, wp_bind, wp_get, wp_set]
  cases s.answers.head.error with
  | some error => exact ⟨rfl, rfl⟩
  | none => exact ⟨⟨rfl, rfl⟩, rfl⟩

/-- A poll reads nothing, or the first record from the position on, and moves just past it. -/
theorem pollOne_spec (s : LogSource) :
    wp (Source.pollOne : Program SourceError LogSource _)
      (fun polled s' => SameLog s s' ∧
        match polled with
        | none => s'.position = s.position
        | some record =>
          s.log.next s.position = some record ∧ s'.position = record.sourceOffset + 1)
      (fun _ s' => SameLog s s') s := by
  show wp pollOne _ _ s
  simp only [pollOne, wp_bind, wp_get]
  refine wp_mono (request_spec s) (fun answer s' ⟨same, position⟩ => ?_) (fun _ _ same => same)
  rw [wp_ite]
  split
  · exact ⟨same, position⟩
  · rw [same.1, position]
    cases found : s.log.next s.position with
    | none => exact ⟨same, position⟩
    | some record => exact ⟨⟨rfl, same.2⟩, rfl, rfl⟩

/-- Seeking moves the position and nothing else of the log. -/
theorem seek_spec (nextOffset : Nat) (s : LogSource) :
    wp (Source.seek nextOffset : Program SourceError LogSource _)
      (fun _ s' => SameLog s s' ∧ s'.position = nextOffset) (fun _ s' => SameLog s s') s := by
  show wp (request >>= _) _ _ s
  simp only [wp_bind, wp_modify]
  exact wp_mono (request_spec s) (fun _ _ same => ⟨same.1, trivial⟩) (fun _ _ same => same)

/-- The low watermark is the one the source was given. -/
theorem lowWatermark_spec (s : LogSource) :
    wp (Source.lowWatermark : Program SourceError LogSource _)
      (fun low s' => SameLog s s' ∧ low = s.lowWatermark) (fun _ s' => SameLog s s') s := by
  show wp (request >>= _) _ _ s
  simp only [wp_bind, wp_get, wp_pure]
  exact wp_mono (request_spec s) (fun _ _ same => ⟨same.1, same.1.2⟩) (fun _ _ same => same)

/-- The high watermark is whatever the broker says. -/
theorem highWatermark_spec (s : LogSource) :
    wp (Source.highWatermark : Program SourceError LogSource _)
      (fun _ s' => SameLog s s') (fun _ s' => SameLog s s') s := by
  show wp (request >>= _) _ _ s
  simp only [wp_bind, wp_pure]
  exact wp_mono (request_spec s) (fun _ _ same => same.1) (fun _ _ same => same)

end LogSource

namespace Log

variable {log : Log} {lo mid : Nat} {record : Record}

/-- The next record is one of the log's, at the position or above. -/
theorem of_next (found : log.next lo = some record) :
    record ∈ log.records ∧ lo ≤ record.sourceOffset :=
  Window.of_firstFrom found

/-- The successor of an offset of the log does not wrap. -/
theorem addOne_offset (mem : record ∈ log.records) :
    addOne record.sourceOffset = record.sourceOffset + 1 :=
  addOne_eq (by have := log.numbered record mem; omega)

/-- Reading the next record extends the stretch read so far by that record. -/
theorem between_snoc (ordered : lo ≤ mid) (found : log.next mid = some record) :
    log.between lo mid ++ [record] = log.between lo (record.sourceOffset + 1) :=
  Window.between_snoc log.increasing ordered found

/-- A record of a stretch is one of the log's, with its offset in the bounds. -/
theorem mem_between {hi : Nat} :
    record ∈ log.between lo hi ↔
      record ∈ log.records ∧ lo ≤ record.sourceOffset ∧ record.sourceOffset < hi :=
  Window.mem_between

end Log

end MirrorV3
