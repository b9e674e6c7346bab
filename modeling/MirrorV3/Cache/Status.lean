import MirrorV3.Cache.Applied

/-! A mirror's status under the calls that move its inputs, beside the precedence it documents. -/

namespace MirrorV3

namespace MirrorSlot

/-- The broker's end offset, which only advances. -/
def setBrokerEndOffset (slot : MirrorSlot) (tolerance endOffset : Nat) : MirrorSlot :=
  recomputeStatus { slot with brokerEndOffset := max slot.brokerEndOffset endOffset } tolerance

/-- The source partition is no longer assigned. -/
def markSourceUnassigned (slot : MirrorSlot) (tolerance : Nat) : MirrorSlot :=
  recomputeStatus { slot with sourceAssigned := false } tolerance

/-- The source partition is assigned again. -/
def markSourceAssigned (slot : MirrorSlot) (tolerance : Nat) : MirrorSlot :=
  recomputeStatus { slot with sourceAssigned := true } tolerance

/-- A gating destination is behind, whatever the status was. -/
def markDestinationLagging (slot : MirrorSlot) (destName : String) (lag : Nat) : MirrorSlot :=
  { slot with status := .destinationLagging destName lag }

/-- No gating destination is behind: any other status is written so that one is computed. -/
def clearDestinationLagging (slot : MirrorSlot) (tolerance : Nat) : MirrorSlot :=
  recomputeStatus { slot with status := .warming } tolerance

end MirrorSlot

/-- What may be called on a mirror, other than reading it. -/
inductive StatusCall where
  | applyRecord (record : Record)
  | setBrokerEndOffset (endOffset : Nat)
  | markSourceUnassigned
  | markSourceAssigned
  | markDestinationLagging (destName : String) (lag : Nat)
  | clearDestinationLagging

/-- What one call does to a slot. -/
def MirrorSlot.call (slot : MirrorSlot) (tolerance : Nat) : StatusCall → MirrorSlot
  | .applyRecord record => slot.applyRecord tolerance record
  | .setBrokerEndOffset endOffset => slot.setBrokerEndOffset tolerance endOffset
  | .markSourceUnassigned => slot.markSourceUnassigned tolerance
  | .markSourceAssigned => slot.markSourceAssigned tolerance
  | .markDestinationLagging destName lag => slot.markDestinationLagging destName lag
  | .clearDestinationLagging => slot.clearDestinationLagging tolerance

/-- Call one mirror of a cache; one that is not registered is passed over, or panics on a record. -/
def CacheState.call (s : CacheState) (mirrorName : String) (call : StatusCall) :
    Option CacheState :=
  match s.mirrors.get? mirrorName with
  | none =>
    match call with
    | .applyRecord _ => none
    | _ => some s
  | some slot =>
    some { s with mirrors := s.mirrors.insert mirrorName (slot.call s.readinessLagTolerance call) }

/-- Call one mirror again and again. -/
def CacheState.calls (s : CacheState) (mirrorName : String) (calls : List StatusCall) :
    Option CacheState :=
  calls.foldlM (·.call mirrorName ·) s

/-- The lagging mark that was set last and not cleared since. -/
def standingMark : List StatusCall → Option (String × Nat) :=
  List.foldl
    (fun mark call =>
      match call with
      | .markDestinationLagging destName lag => some (destName, lag)
      | .clearDestinationLagging => none
      | _ => mark)
    none

/-- Whether the source was assigned, as it is from the start, by the last call that said so. -/
def currentlyAssigned : List StatusCall → Bool :=
  List.foldl
    (fun assigned call =>
      match call with
      | .markSourceUnassigned => false
      | .markSourceAssigned => true
      | _ => assigned)
    true

/-- The largest end offset that was reported. -/
def largestReported : List StatusCall → Nat :=
  List.foldl
    (fun largest call =>
      match call with
      | .setBrokerEndOffset endOffset => max largest endOffset
      | _ => largest)
    0

/-- The status by the documented precedence: unassigned, warming, destination lagging, source lag. -/
def documentedStatus (topic : String) (partition : UInt32) (tolerance bootstrapHwm lastApplied : Nat)
    (calls : List StatusCall) : MirrorStatus :=
  if currentlyAssigned calls = false then .sourceUnassigned topic partition
  else if lastApplied < bootstrapHwm then .warming
  else
    match standingMark calls with
    | some (destName, lag) => .destinationLagging destName lag
    | none =>
      let lag := largestReported calls - lastApplied
      if tolerance < lag then .lagBehindSource lag else .ready

namespace MirrorSlot

/-- A slot whose inputs are those of the calls on it so far. -/
structure HasInputs (topic : String) (partition : UInt32) (hwm : Nat) (calls : List StatusCall)
    (slot : MirrorSlot) : Prop where
  source : slot.topic = topic ∧ slot.partition = partition
  bootstrapHwm : slot.bootstrapHwm = hwm
  assigned : slot.sourceAssigned = currentlyAssigned calls
  reported : slot.brokerEndOffset = max hwm (largestReported calls)

/-- The status a slot really has after some calls: a mark that stands comes before everything. -/
def HasStatus (topic : String) (partition : UInt32) (tolerance hwm : Nat) (calls : List StatusCall)
    (slot : MirrorSlot) : Prop :=
  slot.status =
    match standingMark calls with
    | some (destName, lag) => .destinationLagging destName lag
    | none => documentedStatus topic partition tolerance hwm slot.lastAppliedOffset calls

variable {topic : String} {partition : UInt32} {tolerance hwm : Nat} {calls : List StatusCall}
  {slot : MirrorSlot}

/-- Recomputing leaves a mark that stands and otherwise writes the status of the inputs. -/
theorem hasStatus_recomputeStatus (inputs : HasInputs topic partition hwm calls slot)
    (marked : ∀ destName lag, standingMark calls = some (destName, lag) ↔
      slot.status = .destinationLagging destName lag) :
    HasInputs topic partition hwm calls (slot.recomputeStatus tolerance) ∧
      HasStatus topic partition tolerance hwm calls (slot.recomputeStatus tolerance) := by
  obtain ⟨status, recomputed⟩ := recomputeStatus_eq slot tolerance
  refine ⟨by rw [recomputed]; exact ⟨inputs.source, inputs.bootstrapHwm, inputs.assigned,
    inputs.reported⟩, ?_⟩
  cases mark : standingMark calls with
  | some held =>
    -- The status is the mark, so nothing is computed.
    obtain ⟨destName, lag⟩ := held
    have same := (marked destName lag).mp mark
    rw [HasStatus, mark, recomputeStatus, same]
    exact same
  | none =>
    have unmarked : ∀ destName lag, slot.status ≠ .destinationLagging destName lag := by
      intro destName lag same
      rw [(marked destName lag).mpr same] at mark
      cases mark
    have computed : slot.recomputeStatus tolerance
        = { slot with
            status :=
              if slot.sourceAssigned = false then .sourceUnassigned slot.topic slot.partition
              else if slot.lastAppliedOffset < slot.bootstrapHwm then .warming
              else
                let lag := slot.brokerEndOffset - slot.lastAppliedOffset
                if tolerance < lag then .lagBehindSource lag else .ready } := by
      rw [recomputeStatus]
      split
      · rename_i destName lag same
        exact absurd same (unmarked destName lag)
      · rfl
    rw [HasStatus, mark, computed]
    simp only [documentedStatus, mark, inputs.assigned, inputs.source.1, inputs.source.2,
      inputs.bootstrapHwm]
    by_cases assigned : currentlyAssigned calls = false
    · rw [if_pos assigned, if_pos assigned]
    · rw [if_neg assigned, if_neg assigned]
      by_cases warming : slot.lastAppliedOffset < hwm
      · rw [if_pos warming, if_pos warming]
      · -- The watermark counts as reported, but what was applied has passed it.
        have lag : slot.brokerEndOffset - slot.lastAppliedOffset
            = largestReported calls - slot.lastAppliedOffset := by
          rw [inputs.reported]
          omega
        rw [if_neg warming, if_neg warming, lag]

/-- A mark stands exactly when the status is that mark. -/
theorem HasStatus.marked_iff (has : HasStatus topic partition tolerance hwm calls slot)
    (destName : String) (lag : Nat) :
    standingMark calls = some (destName, lag) ↔ slot.status = .destinationLagging destName lag := by
  rw [HasStatus] at has
  cases mark : standingMark calls with
  | some held =>
    rw [mark] at has
    simp only at has
    rw [has]
    simp [Prod.ext_iff]
  | none =>
    rw [mark] at has
    simp only [documentedStatus, mark] at has
    rw [has]
    split_ifs <;> simp

/-- One call moves the inputs as it says, and the status stays that of the inputs and the mark. -/
theorem HasStatus.call (inputs : HasInputs topic partition hwm calls slot)
    (has : HasStatus topic partition tolerance hwm calls slot) (call : StatusCall) :
    HasInputs topic partition hwm (calls ++ [call]) (slot.call tolerance call) ∧
      HasStatus topic partition tolerance hwm (calls ++ [call]) (slot.call tolerance call) := by
  have marked := has.marked_iff
  obtain ⟨source, bootstrapHwm, assigned, reported⟩ := inputs
  cases call with
  | applyRecord record =>
    -- A record is no input of the status but for the offset it moves.
    have mark : standingMark (calls ++ [.applyRecord record]) = standingMark calls := by
      simp [standingMark]
    have assignment : currentlyAssigned (calls ++ [.applyRecord record])
        = currentlyAssigned calls := by
      simp [currentlyAssigned]
    have largest : largestReported (calls ++ [.applyRecord record]) = largestReported calls := by
      simp [largestReported]
    have assigned' := assigned.trans assignment.symm
    have reported' : slot.brokerEndOffset
        = max hwm (largestReported (calls ++ [.applyRecord record])) := by
      rw [largest, reported]
    have kept : HasStatus topic partition tolerance hwm (calls ++ [.applyRecord record]) slot := by
      rw [HasStatus] at has ⊢
      rw [has, documentedStatus, documentedStatus, mark, assignment, largest]
    -- A record that was seen changes nothing, and any other has the status computed again.
    rw [MirrorSlot.call, applyRecord_eq]
    by_cases seen : slot.hasSeen record = true
    · rw [if_pos seen]
      exact ⟨⟨source, bootstrapHwm, assigned', reported'⟩, kept⟩
    · rw [if_neg seen, count]
      refine hasStatus_recomputeStatus ⟨source, bootstrapHwm, assigned', reported'⟩ ?_
      rw [mark]
      exact marked
  | setBrokerEndOffset endOffset =>
    refine hasStatus_recomputeStatus ⟨source, bootstrapHwm, ?_, ?_⟩ ?_
    · simpa [currentlyAssigned] using assigned
    · -- The end offset that was reported is counted when it is the largest so far.
      simp only [largestReported, List.foldl_append, List.foldl_cons, List.foldl_nil] at reported ⊢
      omega
    · simpa [standingMark] using marked
  | markSourceUnassigned =>
    refine hasStatus_recomputeStatus ⟨source, bootstrapHwm, ?_, ?_⟩ ?_
    · simp [currentlyAssigned]
    · simpa [largestReported] using reported
    · simpa [standingMark] using marked
  | markSourceAssigned =>
    refine hasStatus_recomputeStatus ⟨source, bootstrapHwm, ?_, ?_⟩ ?_
    · simp [currentlyAssigned]
    · simpa [largestReported] using reported
    · simpa [standingMark] using marked
  | markDestinationLagging destName lag =>
    refine ⟨⟨source, bootstrapHwm, ?_, ?_⟩, ?_⟩
    · change slot.sourceAssigned = _
      simpa [currentlyAssigned] using assigned
    · change slot.brokerEndOffset = _
      simpa [largestReported] using reported
    · -- The mark is written over whatever the inputs would say.
      simp [HasStatus, MirrorSlot.call, markDestinationLagging, standingMark]
  | clearDestinationLagging =>
    rw [MirrorSlot.call, clearDestinationLagging]
    refine hasStatus_recomputeStatus ⟨source, bootstrapHwm, ?_, ?_⟩ ?_
    · simpa [currentlyAssigned] using assigned
    · simpa [largestReported] using reported
    · simp [standingMark]

/-- After any calls on a slot in the state it was registered in, its status is that of the calls. -/
theorem HasStatus.foldl (inputs : HasInputs topic partition hwm [] slot)
    (has : HasStatus topic partition tolerance hwm [] slot) (calls : List StatusCall) :
    HasInputs topic partition hwm calls (calls.foldl (·.call tolerance ·) slot) ∧
      HasStatus topic partition tolerance hwm calls (calls.foldl (·.call tolerance ·) slot) := by
  induction calls using List.reverseRecOn with
  | nil => exact ⟨inputs, has⟩
  | append_singleton calls call ih =>
    rw [List.foldl_concat]
    exact ih.2.call ih.1 call

/-- A slot with a mark has the documented status only where the precedence lets the mark through. -/
theorem HasStatus.documented_iff (has : HasStatus topic partition tolerance hwm calls slot) :
    slot.status = documentedStatus topic partition tolerance hwm slot.lastAppliedOffset calls ↔
      standingMark calls = none ∨
        currentlyAssigned calls = true ∧ hwm ≤ slot.lastAppliedOffset := by
  rw [HasStatus] at has
  cases mark : standingMark calls with
  | none =>
    rw [mark] at has
    simpa using has
  | some held =>
    obtain ⟨destName, lag⟩ := held
    rw [mark] at has
    rw [has, documentedStatus, mark]
    by_cases unassigned : currentlyAssigned calls = false
    · rw [if_pos unassigned]
      simp [unassigned]
    · rw [if_neg unassigned]
      by_cases warming : slot.lastAppliedOffset < hwm
      · rw [if_pos warming]
        simp [Nat.not_le.mpr warming]
      · rw [if_neg warming]
        simp only [Bool.not_eq_false] at unassigned
        simp [unassigned, Nat.not_lt.mp warming]

end MirrorSlot

namespace CacheState

variable {s : CacheState} {mirrorName : String}

/-- Calls on a registered mirror are calls on its slot, and none of them panics. -/
theorem calls_eq {slot : MirrorSlot} (registered : s.mirrors.get? mirrorName = some slot)
    (calls : List StatusCall) :
    ∃ s', s.calls mirrorName calls = some s' ∧ s'.mirrors.get? mirrorName
      = some (calls.foldl (·.call s.readinessLagTolerance ·) slot) := by
  induction calls generalizing s slot with
  | nil => exact ⟨s, rfl, registered⟩
  | cons call rest ih =>
    -- After one call the mirror is registered with the slot that the call left.
    have called : s.call mirrorName call = some { s with
        mirrors := s.mirrors.insert mirrorName (slot.call s.readinessLagTolerance call) } := by
      simp only [CacheState.call, registered]
    obtain ⟨s', reached, held⟩ := ih (s := { s with
      mirrors := s.mirrors.insert mirrorName (slot.call s.readinessLagTolerance call) })
      IndexMap.get?_insert_self
    refine ⟨s', ?_, held⟩
    rw [CacheState.calls, List.foldlM_cons, called]
    exact reached

end CacheState

/-- After any calls on a registered mirror its status is the documented one if and only if no
lagging mark stands, or the source is assigned and the mirror has caught up. -/
theorem status_documented_iff (s : CacheState) (mirrorName : String) (hwm : Nat)
    (committed : Option Nat) (topic : String) (partition : UInt32) (keepsValues : Bool)
    (calls : List StatusCall) :
    ∃ s' slot, (s.insertSlot mirrorName hwm committed topic partition keepsValues).calls mirrorName
        calls = some s' ∧ s'.mirrors.get? mirrorName = some slot ∧
      (slot.status = documentedStatus topic partition s.readinessLagTolerance hwm
          slot.lastAppliedOffset calls ↔
        standingMark calls = none ∨ currentlyAssigned calls = true ∧ hwm ≤ slot.lastAppliedOffset) := by
  obtain ⟨s', reached, held⟩ := CacheState.calls_eq
    (s := s.insertSlot mirrorName hwm committed topic partition keepsValues)
    IndexMap.get?_insert_self calls
  refine ⟨s', _, reached, held, ?_⟩
  refine (MirrorSlot.HasStatus.foldl ⟨⟨rfl, rfl⟩, rfl, rfl, ?_⟩ ?_ calls).2.documented_iff
  · simp [largestReported]
  · -- A topic without records counts as caught up from the start.
    by_cases empty : hwm = 0
    · simp [MirrorSlot.HasStatus, standingMark, documentedStatus, currentlyAssigned,
        largestReported, empty]
    · simp [MirrorSlot.HasStatus, standingMark, documentedStatus, currentlyAssigned, empty,
        Nat.pos_of_ne_zero empty]

/-- A mark hides that the source is unassigned and that the mirror has not caught up. -/
theorem mark_hides_unassigned :
    ∃ s' slot, ((CacheState.new 0).insertSlot "m" 5 none "t" 0 true).calls "m"
        [.markSourceUnassigned, .markDestinationLagging "backup" 7] = some s' ∧
      s'.mirrors.get? "m" = some slot ∧
      slot.status = .destinationLagging "backup" 7 ∧
      documentedStatus "t" 0 0 5 slot.lastAppliedOffset
        [.markSourceUnassigned, .markDestinationLagging "backup" 7] = .sourceUnassigned "t" 0 := by
  exact ⟨_, _, rfl, rfl, by decide, by decide⟩

end MirrorV3
