import Mathlib.Data.List.Sort
import MirrorV3.Cache.Applied

/-! Readiness as probes and clients are told of it, and when a cache that applied everything is ready. -/

namespace MirrorV3

/-- Readiness of the whole process. -/
inductive AggregateReadiness where
  /-- Every mirror that serves values has caught up once. -/
  | ready
  /-- Some mirror that serves values has not, or none is registered. -/
  | warming
  deriving Repr, DecidableEq

/-- The source of a mirror in its readiness. -/
structure MirrorReadinessSource where
  topic : String
  partition : UInt32
  assigned : Bool
  endOffset : Nat
  lastAppliedOffset : Nat
  lag : Nat
  deriving Repr, DecidableEq

/-- The destination that is behind, when one is. -/
structure MirrorReadinessDestination where
  name : String
  lag : Nat
  deriving Repr, DecidableEq

/-- One mirror's part of the readiness, which is also the body of its refusal. -/
structure MirrorReadiness where
  name : String
  /-- Whether the mirror serves values and so gates readiness. -/
  gatesReadiness : Bool
  caughtUp : Bool
  status : String
  source : MirrorReadinessSource
  destination : Option MirrorReadinessDestination
  deriving Repr, DecidableEq

/-- The body of the readiness endpoint. -/
structure ReadinessReport where
  ready : AggregateReadiness
  mirrors : List MirrorReadiness
  /-- The names of the mirrors that keep the process from being ready. -/
  unhealthy : List String
  deriving Repr, DecidableEq

/-- The status codes the routes answer with. -/
inductive StatusCode where
  | ok
  | badRequest
  | notFound
  | serviceUnavailable
  deriving Repr, DecidableEq

/-- The readiness of one mirror of a snapshot. -/
def MirrorReadiness.fromSnapshot (snap : MirrorStatusSnapshot) (cache : CacheState) :
    MirrorReadiness :=
  let (status, destination) :=
    match snap.status with
    | .ready => ("ready", none)
    | .warming => ("warming", none)
    | .lagBehindSource _ => ("lag_behind_source", none)
    | .sourceUnassigned _ _ => ("source_unassigned", none)
    | .destinationLagging name lag => ("destination_lagging", some ⟨name, lag⟩)
  { name := snap.name
    gatesReadiness := cache.servesValues snap.name
    caughtUp := cache.hasCaughtUp snap.name
    status
    source := {
      topic := snap.topic
      partition := snap.partition
      assigned := snap.sourceAssigned
      endOffset := snap.brokerEndOffset
      lastAppliedOffset := snap.lastAppliedOffset
      lag := snap.brokerEndOffset - snap.lastAppliedOffset }
    destination }

/-- The report and the status code it is sent with. -/
def buildReadinessReport (cache : CacheState) : StatusCode × ReadinessReport :=
  let snaps := cache.statusSnapshot.mergeSort fun a b => decide (a.name ≤ b.name)
  let mirrors := snaps.map (MirrorReadiness.fromSnapshot · cache)
  let unhealthy := (mirrors.filter fun m => m.gatesReadiness && !m.caughtUp).map (·.name)
  let anyGating := mirrors.any (·.gatesReadiness)
  let aggregate : AggregateReadiness := if anyGating && unhealthy.isEmpty then .ready else .warming
  let code := if aggregate = .ready then .ok else .serviceUnavailable
  (code, ⟨aggregate, mirrors, unhealthy⟩)

/-- Why a request for a mirror is refused. -/
inductive Refusal where
  | notFound
  /-- Refused with the mirror's readiness as the body. -/
  | serviceUnavailable (body : MirrorReadiness)
  deriving Repr, DecidableEq

/-- Let a request through to a registered mirror that has caught up once. -/
def resolveMirror (cache : CacheState) (mirror : String) : Except Refusal Unit :=
  match cache.statusSnapshot.find? fun snap => snap.name == mirror with
  | none => .error .notFound
  | some snap =>
    if cache.hasCaughtUp mirror then .ok ()
    else .error (.serviceUnavailable (MirrorReadiness.fromSnapshot snap cache))

/-- A mirror whose routes are served and whom the report counts as caught up. -/
structure ServedAsReady (cache : CacheState) (mirror : String) : Prop where
  caughtUp : cache.hasCaughtUp mirror = true
  served : resolveMirror cache mirror = .ok ()
  counted : ∃ m ∈ (buildReadinessReport cache).2.mirrors, m.name = mirror ∧ m.caughtUp = true
  healthy : mirror ∉ (buildReadinessReport cache).2.unhealthy

variable {cache : CacheState} {mirror : String} {slot : MirrorSlot}

/-- A registered mirror is in the snapshot of all of them. -/
theorem exists_statusSnapshot (registered : cache.mirrors.get? mirror = some slot) :
    ∃ snap ∈ cache.statusSnapshot, snap.name = mirror := by
  obtain ⟨before, after, split, -⟩ := List.lookup_eq_some_iff.mp registered
  refine ⟨_, List.mem_map_of_mem (by rw [split]; simp : (mirror, slot) ∈ cache.mirrors), rfl⟩

/-- A registered mirror that has caught up is served and counted, whatever its status is. -/
theorem servedAsReady_of_hasCaughtUp (registered : cache.mirrors.get? mirror = some slot)
    (caughtUp : cache.hasCaughtUp mirror = true) : ServedAsReady cache mirror := by
  obtain ⟨snap, mem, named⟩ := exists_statusSnapshot registered
  refine ⟨caughtUp, ?_, ?_, ?_⟩
  · unfold resolveMirror
    cases found : cache.statusSnapshot.find? fun snap => snap.name == mirror with
    | none =>
      have absent := List.find?_eq_none.mp found snap mem
      exact absurd named (by simpa using absent)
    | some snap => exact if_pos caughtUp
  · refine ⟨MirrorReadiness.fromSnapshot snap cache, ?_, named, ?_⟩
    · exact List.mem_map_of_mem (f := (MirrorReadiness.fromSnapshot · cache))
        (List.mem_mergeSort.mpr mem)
    · show cache.hasCaughtUp snap.name = true
      rw [named, caughtUp]
  · -- Only a mirror that has not caught up is unhealthy, and its name says which one it is.
    intro unhealthy
    simp only [buildReadinessReport] at unhealthy
    obtain ⟨m, kept, name⟩ := List.mem_map.mp unhealthy
    obtain ⟨listed, gating⟩ := List.mem_filter.mp kept
    obtain ⟨other, -, rfl⟩ := List.mem_map.mp listed
    have same : other.name = mirror := name
    have behind : (MirrorReadiness.fromSnapshot other cache).caughtUp = false := by
      simpa using (Bool.and_eq_true_iff.mp gating).2
    change cache.hasCaughtUp other.name = false at behind
    rw [same, caughtUp] at behind
    exact Bool.noConfusion behind

/-- A slot has caught up when its last record is the one just below the watermark. -/
theorem hasCaughtUp_iff {bootstrapHwm : Nat} {keepsValues : Bool} {records : List Record}
    (registered : cache.mirrors.get? mirror = some slot)
    (applied : MirrorSlot.Applied bootstrapHwm keepsValues records slot) :
    cache.hasCaughtUp mirror = true
      ↔ bootstrapHwm = 0
        ∨ ∃ last, records.getLast? = some last ∧ bootstrapHwm ≤ last.sourceOffset + 1 := by
  simp only [CacheState.hasCaughtUp, registered, Option.any_some, decide_eq_true_eq,
    applied.bootstrapHwm, applied.lastAppliedOffset]
  cases records.getLast? with
  | none => simp
  | some last =>
    simp only [Option.map_some, Option.getD_some, Option.some.injEq, exists_eq_left']
    omega

/--
A cache that applied everything retained below the watermark is ready only by the last position.

Positions without a record count like records do: the cache is ready exactly when nothing was
below the watermark, or the position just below it still holds a record.
-/
theorem ready_iff_last_position_retained {bootstrapHwm : Nat} (inRange : bootstrapHwm < 2 ^ 64)
    {retained : List Record} (increasing : retained.Pairwise (·.sourceOffset < ·.sourceOffset))
    (below : ∀ r ∈ retained, r.sourceOffset < bootstrapHwm) (s : CacheState) (mirrorName : String)
    (committed : Option Nat) (isMain : Bool) (topic : String) (partition : UInt32) :
    ServedAsReady ((s.registerMirrorWithTopic mirrorName bootstrapHwm committed isMain topic
        partition).applyAll mirrorName retained) mirrorName
      ↔ bootstrapHwm = 0 ∨ ∃ r ∈ retained, r.sourceOffset + 1 = bootstrapHwm := by
  obtain ⟨start, found, fresh⟩ := CacheState.get?_registerMirrorWithTopic s mirrorName
    bootstrapHwm committed isMain topic partition
  have registered := CacheState.get?_applyAll (s.registerMirrorWithTopic mirrorName
    bootstrapHwm committed isMain topic partition) mirrorName retained
  rw [found, Option.map_some] at registered
  have small : ∀ r ∈ retained, r.sourceOffset + 1 < 2 ^ 64 := by
    intro r mem
    have := below r mem
    omega
  have caughtUp := hasCaughtUp_iff registered (.foldl _ fresh increasing small)
  constructor
  · intro ready
    rcases caughtUp.mp ready.caughtUp with empty | ⟨last, isLast, reached⟩
    · exact .inl empty
    · -- No record reaches beyond the watermark, so the last one reaches it exactly.
      have mem := List.mem_of_getLast? isLast
      have := below last mem
      exact .inr ⟨last, mem, by omega⟩
  · intro held
    apply servedAsReady_of_hasCaughtUp registered
    apply caughtUp.mpr
    rcases held with empty | ⟨r, mem, position⟩
    · exact .inl empty
    · cases last : retained.getLast? with
      | none => simp [List.getLast?_eq_none_iff.mp last] at mem
      | some last' =>
        refine .inr ⟨last', rfl, ?_⟩
        -- The last record is at or above every other one.
        obtain ⟨earlier, rfl⟩ := List.getLast?_eq_some_iff.mp last
        rw [List.pairwise_append] at increasing
        rcases List.mem_append.mp mem with before | here
        · have := increasing.2.2 r before last' (by simp)
          omega
        · simp only [List.mem_singleton] at here
          rw [← here, position]

namespace Sample

/-- Two records below a watermark of two: the cache is ready once both were applied. -/
theorem ready_iff_last_position_retained_sample :
    ServedAsReady (((CacheState.new 0).registerMirrorWithTopic "m" 2 none false "t" 0).applyAll "m"
        [record 0, record 1]) "m"
      ↔ 2 = 0 ∨ ∃ r ∈ [record 0, record 1], r.sourceOffset + 1 = 2 :=
  ready_iff_last_position_retained (by decide) (by simp [record]) (by simp [record]) _ _ _ _ _ _

/-- One record below a watermark of two, the other position a marker: the cache stays refused. -/
theorem marker_below_watermark_never_ready :
    ¬ ServedAsReady (((CacheState.new 0).registerMirrorWithTopic "m" 2 none false "t" 0).applyAll "m"
        [record 0]) "m" := by
  intro ready
  exact absurd ready.caughtUp (by decide)

end Sample

end MirrorV3
