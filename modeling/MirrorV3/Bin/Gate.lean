import MirrorV3.Bin.Registration
import MirrorV3.Cache.Readiness
import MirrorV3.Cache.Status
import MirrorV3.Lib.KeyOrder

/-! The readiness gate of a process: what its probe and its routes answer after any updates. -/

namespace MirrorV3

open Config Results

/-- A call on a mirror of a process, by the mirror's name. -/
abbrev MirrorCall : Type := String × StatusCall

/-- Call one mirror after the other. -/
def CacheState.callEach (s : CacheState) (calls : List MirrorCall) : Option CacheState :=
  calls.foldlM (fun s call => s.call call.1 call.2) s

/-- A record that was applied to a mirror ended in a given position or beyond it. -/
def Passed (name : String) (calls : List MirrorCall) (position : Nat) : Prop :=
  ∃ record, (name, StatusCall.applyRecord record) ∈ calls ∧ position ≤ record.sourceOffset + 1

/--
A mirror is past the end that its source had when it was registered.

The source was empty then, or a record at its last position or past it was applied, whatever else
was.
-/
def Config.Mirror.PastEnd (reads : StartupReads) (calls : List MirrorCall) (m : Config.Mirror) :
    Prop :=
  ∃ hwm, reads.fetchHwmForMirror m = .ok hwm ∧ (hwm = 0 ∨ Passed m.name calls hwm)

/-- No record is at the very end of the range of offsets. -/
def InRange (calls : List MirrorCall) : Prop :=
  ∀ name record, (name, StatusCall.applyRecord record) ∈ calls → record.sourceOffset + 1 < 2 ^ 64

namespace MirrorSlot

/-- A slot of a mirror that some calls were made on. -/
structure Tracks (hwm : Nat) (serves : Bool) (name : String) (calls : List MirrorCall)
    (slot : MirrorSlot) : Prop where
  bootstrapHwm : slot.bootstrapHwm = hwm
  view : slot.data.view.isSome = serves
  /-- No record that is passed over lies beyond what was applied. -/
  seen : ∀ tp offset, slot.data.offsets.get? tp = some offset → offset + 1 ≤ slot.lastAppliedOffset
  applied : ∀ position, position ≤ slot.lastAppliedOffset ↔ position = 0 ∨ Passed name calls position

variable {hwm tolerance : Nat} {serves : Bool} {name : String} {calls : List MirrorCall}
  {slot : MirrorSlot}

/-- A slot that was just registered was not called. -/
theorem tracks_fresh (fresh : Fresh hwm serves slot) : slot.Tracks hwm serves name [] where
  bootstrapHwm := fresh.bootstrapHwm
  view := by
    rw [fresh.data]
    cases serves <;> rfl
  seen tp offset found := by
    rw [fresh.data] at found
    cases found
  applied position := by
    rw [fresh.lastAppliedOffset, Nat.le_zero]
    refine ⟨.inl, ?_⟩
    rintro (start | ⟨record, mem, -⟩)
    · exact start
    · cases mem

/-- A call that applies no record to the mirror leaves all of this as it is. -/
theorem Tracks.other {slot' : MirrorSlot} {call : MirrorCall}
    (tracks : slot.Tracks hwm serves name calls)
    (other : ∀ record, call ≠ (name, .applyRecord record))
    (same : slot'.bootstrapHwm = slot.bootstrapHwm ∧ slot'.data = slot.data
      ∧ slot'.lastAppliedOffset = slot.lastAppliedOffset) :
    slot'.Tracks hwm serves name (calls ++ [call]) := by
  obtain ⟨bootstrapHwm, data, lastApplied⟩ := same
  have passed : ∀ position, Passed name (calls ++ [call]) position ↔ Passed name calls position := by
    intro position
    simp only [Passed, List.mem_append, List.mem_singleton]
    refine exists_congr fun record => and_congr_left fun _ => ?_
    exact or_iff_left fun same => other record same.symm
  refine ⟨bootstrapHwm.trans tracks.bootstrapHwm, ?_, ?_, fun position => ?_⟩
  · rw [data, tracks.view]
  · rw [data, lastApplied]
    exact tracks.seen
  · rw [lastApplied, passed, tracks.applied]

/-- Whether or not a record was seen before, what was applied reaches as far as it does. -/
theorem Tracks.applyRecord {record : Record} (tracks : slot.Tracks hwm serves name calls)
    (inRange : record.sourceOffset + 1 < 2 ^ 64) :
    (slot.applyRecord tolerance record).Tracks hwm serves name
      (calls ++ [(name, .applyRecord record)]) := by
  -- One more record passes the positions up to the one after it.
  have passed : ∀ position, Passed name (calls ++ [(name, .applyRecord record)]) position
      ↔ Passed name calls position ∨ position ≤ record.sourceOffset + 1 := by
    intro position
    simp only [Passed, List.mem_append, List.mem_singleton]
    constructor
    · rintro ⟨other, mem | same, below⟩
      · exact .inl ⟨other, mem, below⟩
      · cases same
        exact .inr below
    · rintro (⟨other, mem, below⟩ | below)
      · exact ⟨other, .inl mem, below⟩
      · exact ⟨record, .inr rfl, below⟩
  rw [applyRecord_eq]
  by_cases seen : slot.hasSeen record = true
  · -- A higher offset of the partition was applied already.
    rw [if_pos seen]
    obtain ⟨offset, found, below⟩ : ∃ offset,
        slot.data.offsets.get? record.topicPartition = some offset
          ∧ record.sourceOffset ≤ offset := by
      simpa [hasSeen, Option.any_eq_true] using seen
    have reached := tracks.seen _ offset found
    refine ⟨tracks.bootstrapHwm, tracks.view, tracks.seen, fun position => ?_⟩
    rw [passed, ← or_assoc, ← tracks.applied]
    omega
  · rw [if_neg seen, count]
    obtain ⟨status, recomputed⟩ := recomputeStatus_eq
      { slot.see record with
        lastAppliedOffset := max (slot.see record).lastAppliedOffset
          (addOne record.sourceOffset) } tolerance
    rw [recomputed, addOne_eq inRange]
    refine ⟨tracks.bootstrapHwm, ?_, ?_, fun position => ?_⟩
    · simpa [see] using tracks.view
    · intro tp offset found
      show offset + 1 ≤ max slot.lastAppliedOffset (record.sourceOffset + 1)
      by_cases same : tp = record.topicPartition
      · rw [same] at found
        have last : record.sourceOffset = offset := by simpa [see] using found
        omega
      · have before : slot.data.offsets.get? tp = some offset := by
          simpa [see, IndexMap.get?_insert_of_ne same] using found
        have := tracks.seen tp offset before
        omega
    · show position ≤ max slot.lastAppliedOffset (record.sourceOffset + 1) ↔ _
      rw [passed, ← or_assoc, ← tracks.applied]
      omega

/-- Any call on the mirror keeps track of what was applied. -/
theorem Tracks.call {call : StatusCall} (tracks : slot.Tracks hwm serves name calls)
    (inRange : ∀ record, call = .applyRecord record → record.sourceOffset + 1 < 2 ^ 64) :
    (slot.call tolerance call).Tracks hwm serves name (calls ++ [(name, call)]) := by
  have recomputed : ∀ slot' : MirrorSlot, (slot'.recomputeStatus tolerance).bootstrapHwm
        = slot'.bootstrapHwm
      ∧ (slot'.recomputeStatus tolerance).data = slot'.data
      ∧ (slot'.recomputeStatus tolerance).lastAppliedOffset = slot'.lastAppliedOffset := by
    intro slot'
    obtain ⟨status, recomputed⟩ := recomputeStatus_eq slot' tolerance
    rw [recomputed]
    exact ⟨rfl, rfl, rfl⟩
  cases call with
  | applyRecord record => exact tracks.applyRecord (inRange record rfl)
  | markDestinationLagging destName lag =>
    exact tracks.other (fun record same => by cases same) ⟨rfl, rfl, rfl⟩
  | setBrokerEndOffset | markSourceUnassigned | markSourceAssigned | clearDestinationLagging =>
    exact tracks.other (fun record same => by cases same) (recomputed _)

end MirrorSlot

/-- Every mirror has a slot that the calls on it were made on, and there is no other slot. -/
structure CacheState.Gated (reads : StartupReads) (mirrors : List Config.Mirror)
    (calls : List MirrorCall) (s : CacheState) : Prop where
  keys : s.mirrors.map (·.1) = mirrors.map (·.name)
  slots : ∀ m ∈ mirrors, ∃ hwm slot, reads.fetchHwmForMirror m = .ok hwm
    ∧ s.mirrors.get? m.name = some slot ∧ slot.Tracks hwm (servesCache m) m.name calls

namespace CacheState

variable {reads : StartupReads} {s s' : CacheState} {m : Config.Mirror}
  {mirrors : List Config.Mirror} {calls : List MirrorCall}

/-- A mirror that is registered gets a fresh slot. -/
theorem mirrors_of_register (registered : reads.register s m = .ok s') :
    ∃ hwm slot, reads.fetchHwmForMirror m = .ok hwm ∧ s'.mirrors = s.mirrors.insert m.name slot
      ∧ slot.Fresh hwm (servesCache m) := by
  obtain ⟨hwm, read, registered⟩ := of_bind_ok registered
  obtain ⟨committed, -, registered⟩ := of_bind_ok registered
  obtain rfl := Except.ok.inj registered
  cases serves : servesCache m with
  | false => exact ⟨hwm, _, read, rfl, rfl, rfl, rfl⟩
  | true =>
    -- Which mirror is the main one has no part in it.
    simp only [registerMirrorWithTopic, if_true]
    split <;> exact ⟨hwm, _, read, rfl, rfl, rfl, rfl⟩

/-- One mirror more is registered under a name of its own. -/
theorem Gated.register (gated : s.Gated reads mirrors [])
    (own : m.name ∉ mirrors.map (·.name)) (registered : reads.register s m = .ok s') :
    s'.Gated reads (mirrors ++ [m]) [] := by
  obtain ⟨hwm, slot, read, inserted, fresh⟩ := mirrors_of_register registered
  refine ⟨?_, ?_⟩
  · rw [inserted, IndexMap.keys_insert_of_notMem slot (by rwa [gated.keys]), gated.keys]
    simp
  · intro other mem
    rw [inserted]
    rcases List.mem_append.mp mem with before | last
    · -- The mirrors before have other names.
      obtain ⟨hwm', slot', read', found, tracks⟩ := gated.slots other before
      have ne : other.name ≠ m.name := by
        intro same
        exact own (same ▸ List.mem_map_of_mem before)
      exact ⟨hwm', slot', read', by rwa [IndexMap.get?_insert_of_ne ne], tracks⟩
    · obtain rfl := List.mem_singleton.mp last
      exact ⟨hwm, slot, read, IndexMap.get?_insert_self, MirrorSlot.tracks_fresh fresh⟩

/-- Mirrors with different names are registered one after the other. -/
theorem Gated.foldlM {left : List Config.Mirror} (gated : s.Gated reads mirrors [])
    (apart : ((mirrors ++ left).map (·.name)).Nodup)
    (registered : left.foldlM reads.register s = .ok s') :
    s'.Gated reads (mirrors ++ left) [] := by
  induction left generalizing s mirrors with
  | nil =>
    obtain rfl := Except.ok.inj registered
    rwa [List.append_nil]
  | cons first left ih =>
    rw [List.foldlM_cons] at registered
    obtain ⟨next, here, later⟩ := of_bind_ok registered
    have own : first.name ∉ mirrors.map (·.name) := by
      intro mem
      rw [List.map_append, List.nodup_append] at apart
      exact apart.2.2 _ mem _ List.mem_cons_self rfl
    have rest := ih (gated.register own here) (by rwa [List.append_assoc]) later
    rwa [List.append_assoc] at rest

/-- A call, on a mirror that is there or not, keeps track of what was applied to every mirror. -/
theorem Gated.call {call : MirrorCall} (gated : s.Gated reads mirrors calls)
    (inRange : ∀ record, call.2 = .applyRecord record → record.sourceOffset + 1 < 2 ^ 64)
    (called : s.call call.1 call.2 = some s') : s'.Gated reads mirrors (calls ++ [call]) := by
  obtain ⟨name, call⟩ := call
  -- A mirror of another name does not notice the call.
  have others : ∀ {m : Config.Mirror} {hwm : Nat} {slot : MirrorSlot}, m.name ≠ name →
      slot.Tracks hwm (servesCache m) m.name calls →
      slot.Tracks hwm (servesCache m) m.name (calls ++ [(name, call)]) := by
    intro m hwm slot ne tracks
    exact tracks.other (fun record same => ne (congrArg Prod.fst same).symm) ⟨rfl, rfl, rfl⟩
  cases found : s.mirrors.get? name with
  | none =>
    obtain rfl : s = s' := by
      simp only [CacheState.call, found] at called
      cases call with
      | applyRecord record => cases called
      | _ => exact Option.some.inj called
    refine ⟨gated.keys, fun m mem => ?_⟩
    obtain ⟨hwm, slot, read, there, tracks⟩ := gated.slots m mem
    have ne : m.name ≠ name := by
      intro same
      rw [same, found] at there
      cases there
    exact ⟨hwm, slot, read, there, others ne tracks⟩
  | some held =>
    simp only [CacheState.call, found] at called
    cases called
    have mem : name ∈ s.mirrors.map (·.1) := IndexMap.mem_keys.mpr (by rw [found]; rfl)
    refine ⟨(IndexMap.keys_insert_of_mem _ mem).trans gated.keys, fun m mem => ?_⟩
    obtain ⟨hwm, slot, read, there, tracks⟩ := gated.slots m mem
    by_cases same : m.name = name
    · subst same
      obtain rfl : held = slot := Option.some.inj (found.symm.trans there)
      exact ⟨hwm, _, read, IndexMap.get?_insert_self, tracks.call inRange⟩
    · exact ⟨hwm, slot, read, by rwa [IndexMap.get?_insert_of_ne same], others same tracks⟩

/-- Calls, one after the other, keep track of what was applied to every mirror. -/
theorem Gated.callEach {later : List MirrorCall} (gated : s.Gated reads mirrors calls)
    (inRange : InRange later) (called : s.callEach later = some s') :
    s'.Gated reads mirrors (calls ++ later) := by
  induction later generalizing s calls with
  | nil =>
    cases called
    rwa [List.append_nil]
  | cons call later ih =>
    obtain ⟨next, here, called⟩ := Option.bind_eq_some_iff.mp called
    have gated := gated.call
      (fun record same => inRange call.1 record (by rw [← same]; exact List.mem_cons_self)) here
    have rest := ih gated (fun name record mem => inRange name record (List.mem_cons_of_mem _ mem))
      called
    rwa [List.append_assoc] at rest

/-- What a process has registered is what its configuration enables. -/
theorem gated_of_registerEnabled {tolerance : Nat} {cfg : Config}
    (registered : reads.registerEnabled tolerance cfg = .ok s)
    (apart : (cfg.mirrors.map (·.name)).Nodup) :
    s.Gated reads (cfg.mirrors.filter Config.Mirror.isEnabled) [] := by
  unfold StartupReads.registerEnabled at registered
  dsimp only at registered
  split at registered
  · cases registered
  · have nothing : (CacheState.new tolerance).Gated reads [] [] := ⟨rfl, fun m mem => by cases mem⟩
    exact nothing.foldlM (apart.sublist (List.filter_sublist.map _)) registered

/-- The cache takes the mirrors that are past the end for those that have caught up. -/
theorem Gated.hasCaughtUp_iff (gated : s.Gated reads mirrors calls) (mem : m ∈ mirrors) :
    s.hasCaughtUp m.name = true ↔ m.PastEnd reads calls := by
  obtain ⟨hwm, slot, read, there, tracks⟩ := gated.slots m mem
  have slots : s.hasCaughtUp m.name = true ↔ hwm = 0 ∨ Passed m.name calls hwm := by
    rw [hasCaughtUp, there, ← tracks.applied, ← tracks.bootstrapHwm]
    simp
  rw [slots]
  constructor
  · intro reached
    exact ⟨hwm, read, reached⟩
  · rintro ⟨other, read', reached⟩
    obtain rfl : hwm = other := Except.ok.inj (read.symm.trans read')
    exact reached

/-- And which of them serve values. -/
theorem Gated.servesValues_eq (gated : s.Gated reads mirrors calls) (mem : m ∈ mirrors) :
    s.servesValues m.name = servesCache m := by
  obtain ⟨hwm, slot, -, there, tracks⟩ := gated.slots m mem
  rw [servesValues, there, ← tracks.view]
  rfl

/-- The rows of a snapshot are named after the mirrors. -/
theorem Gated.names (gated : s.Gated reads mirrors calls) :
    s.statusSnapshot.map (·.name) = mirrors.map (·.name) := by
  rw [← gated.keys, statusSnapshot, List.map_map]
  rfl

end CacheState

/-- What the probe and the routes of a process answer after some calls. -/
structure Gate (reads : StartupReads) (mirrors : List Config.Mirror) (calls : List MirrorCall)
    (s : CacheState) : Prop where
  /-- The process is ready once every mirror that serves values is past the end. -/
  probe : (buildReadinessReport s).1 = .ok ↔ (∃ m ∈ mirrors, servesCache m = true)
    ∧ ∀ m ∈ mirrors, servesCache m = true → m.PastEnd reads calls
  unhealthy : ∀ name, name ∈ (buildReadinessReport s).2.unhealthy
    ↔ ∃ m ∈ mirrors, m.name = name ∧ servesCache m = true ∧ ¬ m.PastEnd reads calls
  sorted : (buildReadinessReport s).2.unhealthy.Pairwise (· < ·)
  served : ∀ m ∈ mirrors, m.PastEnd reads calls → resolveMirror s m.name = .ok ()
  /-- A mirror that is not past the end is refused with its part of the report. -/
  refused : ∀ m ∈ mirrors, ¬ m.PastEnd reads calls → ∃ body ∈ (buildReadinessReport s).2.mirrors,
    body.name = m.name ∧ resolveMirror s m.name = .error (.serviceUnavailable body)
  unknown : ∀ name, name ∉ mirrors.map (·.name) → resolveMirror s name = .error .notFound

section Report

variable {reads : StartupReads} {s : CacheState} {m : Config.Mirror}
  {mirrors : List Config.Mirror} {calls : List MirrorCall}

/-- The rows of a report are those of the snapshot, in the order of their names. -/
theorem mem_report {row : MirrorReadiness} : row ∈ (buildReadinessReport s).2.mirrors
    ↔ ∃ snap ∈ s.statusSnapshot, MirrorReadiness.fromSnapshot snap s = row := by
  simp [buildReadinessReport]

/-- A mirror is unhealthy when it gates the process and is not past the end. -/
theorem unhealthy_iff (gated : s.Gated reads mirrors calls) (name : String) :
    name ∈ (buildReadinessReport s).2.unhealthy
      ↔ ∃ m ∈ mirrors, m.name = name ∧ servesCache m = true ∧ ¬ m.PastEnd reads calls := by
  -- The report has a row for each registered mirror, and those behind are listed.
  have rows : name ∈ (buildReadinessReport s).2.unhealthy
      ↔ ∃ snap ∈ s.statusSnapshot, snap.name = name ∧ s.servesValues snap.name = true
        ∧ s.hasCaughtUp snap.name = false := by
    simp [buildReadinessReport, MirrorReadiness.fromSnapshot, and_assoc, and_comm, and_left_comm]
  rw [rows]
  constructor
  · rintro ⟨snap, mem, rfl, serves, behind⟩
    obtain ⟨m, there, same⟩ : ∃ m ∈ mirrors, m.name = snap.name := by
      have named : snap.name ∈ s.statusSnapshot.map (·.name) := List.mem_map_of_mem mem
      rw [gated.names] at named
      simpa using named
    rw [← same, gated.servesValues_eq there] at serves
    rw [← same, ← Bool.not_eq_true, gated.hasCaughtUp_iff there] at behind
    exact ⟨m, there, same, serves, behind⟩
  · rintro ⟨m, there, rfl, serves, behind⟩
    have named : m.name ∈ s.statusSnapshot.map (·.name) := by
      rw [gated.names]
      exact List.mem_map_of_mem there
    obtain ⟨snap, mem, same⟩ := List.mem_map.mp named
    refine ⟨snap, mem, same, ?_, ?_⟩
    · rw [same, gated.servesValues_eq there, serves]
    · rw [same, ← Bool.not_eq_true, gated.hasCaughtUp_iff there]
      exact behind

/-- No two unhealthy mirrors are listed out of order. -/
theorem unhealthy_sorted (gated : s.Gated reads mirrors calls)
    (apart : (mirrors.map (·.name)).Nodup) :
    (buildReadinessReport s).2.unhealthy.Pairwise (· < ·) := by
  -- The rows are sorted by names of which no two are equal.
  have ordered : (s.statusSnapshot.mergeSort fun a b => decide (a.name ≤ b.name)).Pairwise
      fun a b => a.name < b.name := by
    have sorted :=
      @List.pairwise_mergeSort _ (fun a b : MirrorStatusSnapshot => decide (a.name ≤ b.name))
        (fun a b c ab bc =>
          decide_eq_true (String.le_trans (of_decide_eq_true ab) (of_decide_eq_true bc)))
        (fun a b => by simpa using String.le_total a.name b.name) s.statusSnapshot
    have distinct : ((s.statusSnapshot.mergeSort fun a b => decide (a.name ≤ b.name)).map
        (·.name)).Nodup := by
      refine ((List.mergeSort_perm _ _).map _).nodup_iff.mpr ?_
      rwa [gated.names]
    refine sorted.imp₂ (fun a b below ne => ?_) (List.pairwise_map.mp distinct)
    exact String.not_le.mp fun above => ne (String.le_antisymm (of_decide_eq_true below) above)
  simp only [buildReadinessReport, List.filter_map, List.map_map]
  refine List.pairwise_map.mpr ((ordered.sublist List.filter_sublist).imp ?_)
  exact fun below => below

/-- A request for a mirror finds the row of that mirror. -/
theorem resolveMirror_eq (gated : s.Gated reads mirrors calls) (mem : m ∈ mirrors) :
    ∃ snap ∈ s.statusSnapshot, snap.name = m.name
      ∧ resolveMirror s m.name = if s.hasCaughtUp m.name then .ok ()
        else .error (.serviceUnavailable (MirrorReadiness.fromSnapshot snap s)) := by
  have named : m.name ∈ s.statusSnapshot.map (·.name) := by
    rw [gated.names]
    exact List.mem_map_of_mem mem
  obtain ⟨snap, listed, same⟩ := List.mem_map.mp named
  unfold resolveMirror
  cases found : s.statusSnapshot.find? fun snap => snap.name == m.name with
  | none =>
    have absent := List.find?_eq_none.mp found snap listed
    exact absurd same (by simpa using absent)
  | some row =>
    have named := List.find?_some found
    exact ⟨row, List.mem_of_find?_eq_some found, by simpa using named, rfl⟩

/-- The probe, its report and the routes agree on which mirrors are past the end. -/
theorem gate_of_gated (gated : s.Gated reads mirrors calls)
    (apart : (mirrors.map (·.name)).Nodup) : Gate reads mirrors calls s where
  probe := by
    -- The process is ready if some row gates it and no name is unhealthy.
    have ready : (buildReadinessReport s).1 = .ok
        ↔ (∃ row ∈ (buildReadinessReport s).2.mirrors, row.gatesReadiness = true)
          ∧ (buildReadinessReport s).2.unhealthy = [] := by
      simp only [buildReadinessReport]
      split
      · rename_i holds
        simpa using holds
      · rename_i fails
        simpa using fails
    rw [ready, List.eq_nil_iff_forall_not_mem]
    refine and_congr ?_ ?_
    · constructor
      · rintro ⟨row, mem, gates⟩
        obtain ⟨snap, listed, rfl⟩ := mem_report.mp mem
        have named : snap.name ∈ mirrors.map (·.name) := by
          rw [← gated.names]
          exact List.mem_map_of_mem listed
        obtain ⟨m, there, same⟩ := List.mem_map.mp named
        refine ⟨m, there, ?_⟩
        rw [← gated.servesValues_eq there, same]
        exact gates
      · rintro ⟨m, there, serves⟩
        obtain ⟨snap, listed, same, -⟩ := resolveMirror_eq gated there
        refine ⟨_, mem_report.mpr ⟨snap, listed, rfl⟩, ?_⟩
        show s.servesValues snap.name = true
        rw [same, gated.servesValues_eq there, serves]
    · constructor
      · intro none_ m there serves
        refine Classical.byContradiction fun behind => ?_
        exact none_ m.name ((unhealthy_iff gated _).mpr ⟨m, there, rfl, serves, behind⟩)
      · intro all name mem
        obtain ⟨m, there, -, serves, behind⟩ := (unhealthy_iff gated name).mp mem
        exact behind (all m there serves)
  unhealthy := unhealthy_iff gated
  sorted := unhealthy_sorted gated apart
  served m there pastEnd := by
    obtain ⟨snap, -, -, answer⟩ := resolveMirror_eq gated there
    rw [answer, if_pos ((gated.hasCaughtUp_iff there).mpr pastEnd)]
  refused m there behind := by
    obtain ⟨snap, listed, same, answer⟩ := resolveMirror_eq gated there
    refine ⟨_, mem_report.mpr ⟨snap, listed, rfl⟩, same, ?_⟩
    rw [answer, if_neg (mt (gated.hasCaughtUp_iff there).mp behind)]
  unknown name absent := by
    unfold resolveMirror
    cases found : s.statusSnapshot.find? fun snap => snap.name == name with
    | none => rfl
    | some row =>
      have named : row.name = name := by simpa using List.find?_some found
      have listed := List.mem_map_of_mem (f := (·.name)) (List.mem_of_find?_eq_some found)
      rw [gated.names, named] at listed
      exact absurd listed absent

end Report

/--
After any updates of any of its mirrors, a process answers its probe and its routes by one measure:
which mirrors are past the end that their sources had when the process registered them. Once it is
ready it stays so, whatever is reported of its mirrors later on.
-/
theorem gate_opens {reads : StartupReads} {tolerance : Nat} {cfg : Config}
    {start s s' : CacheState} (registered : reads.registerEnabled tolerance cfg = .ok start)
    (apart : (cfg.mirrors.map (·.name)).Nodup) {calls later : List MirrorCall}
    (inRange : InRange (calls ++ later)) (called : start.callEach calls = some s)
    (calledLater : s.callEach later = some s') :
    Gate reads (cfg.mirrors.filter Config.Mirror.isEnabled) calls s
      ∧ ((buildReadinessReport s).1 = .ok → (buildReadinessReport s').1 = .ok) := by
  have names := apart.sublist
    ((List.filter_sublist (p := Config.Mirror.isEnabled) (l := cfg.mirrors)).map (·.name))
  have gated := (CacheState.gated_of_registerEnabled registered apart).callEach
    (fun name record mem => inRange name record (List.mem_append_left _ mem)) called
  have gatedLater := gated.callEach
    (fun name record mem => inRange name record (List.mem_append_right _ mem)) calledLater
  have now : Gate reads _ calls s := gate_of_gated gated names
  have then_ : Gate reads _ (calls ++ later) s' := gate_of_gated gatedLater names
  refine ⟨now, fun ready => then_.probe.mpr ?_⟩
  -- What was passed once has been passed ever since.
  obtain ⟨some_, all⟩ := now.probe.mp ready
  refine ⟨some_, fun m mem serves => ?_⟩
  obtain ⟨hwm, read, reached⟩ := all m mem serves
  refine ⟨hwm, read, reached.imp_right ?_⟩
  rintro ⟨record, applied, below⟩
  exact ⟨record, List.mem_append_left _ applied, below⟩

namespace GateSample

open Sample

/-- The mirror that serves values is given the last of its ten records, and loses its source. -/
def calls : List MirrorCall :=
  [("served", .applyRecord (record 9)), ("served", .markSourceUnassigned)]

/-- The process is ready, and stays so when a destination of the mirror falls behind. -/
theorem gate_opens_served : ∃ s s', bothRegistered.callEach calls = some s
    ∧ s.callEach [("served", .markDestinationLagging "backup" 7)] = some s'
    ∧ resolveMirror s "served" = .ok ()
    ∧ (buildReadinessReport s).1 = .ok ∧ (buildReadinessReport s').1 = .ok := by
  have inRange : InRange (calls ++ [("served", .markDestinationLagging "backup" 7)]) := by
    intro name record mem
    simp only [calls, List.cons_append, List.nil_append, List.mem_cons, Prod.mk.injEq,
      StatusCall.applyRecord.injEq, reduceCtorEq, and_false, List.not_mem_nil, or_false] at mem
    rw [mem.2]
    decide
  obtain ⟨s, called⟩ : ∃ s, bothRegistered.callEach calls = some s := ⟨_, rfl⟩
  obtain ⟨s', calledLater⟩ : ∃ s', s.callEach [("served", .markDestinationLagging "backup" 7)]
      = some s' := by
    cases called
    exact ⟨_, rfl⟩
  obtain ⟨gate, stays⟩ := gate_opens registerEnabled_both (by decide) inRange called calledLater
  have pastEnd : notifyAndServe.PastEnd fourCommitted calls :=
    ⟨10, rfl, .inr ⟨_, List.mem_cons_self, by decide⟩⟩
  have ready := gate.probe.mpr ⟨⟨notifyAndServe, by decide, rfl⟩, ?_⟩
  · exact ⟨s, s', called, calledLater, gate.served notifyAndServe (by decide) pastEnd, ready,
      stays ready⟩
  · intro m mem serves
    have listed : m = notifyOnly ∨ m = notifyAndServe := by
      simpa using (List.mem_filter.mp mem).1
    rcases listed with rfl | rfl
    · cases serves
    · exact pastEnd

end GateSample

end MirrorV3
