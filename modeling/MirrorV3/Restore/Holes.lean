import MirrorV3.Restore.BackedUp
import MirrorV3.Restore.Seeking

/-! With preserve, a hole stops a follower: what it has yielded by then depends on where the hole is. -/

namespace MirrorV3

open Effect Ranges

section Sources

variable [EnvelopeLibraries]

section Offsets

variable {records : List Record} {hole : Nat}

omit [EnvelopeLibraries] in
/-- In increasing order, records stand at their offsets as long as none is missing. -/
theorem getElem?_of_present (ordered : records.Pairwise (·.sourceOffset < ·.sourceOffset))
    (present : ∀ q < hole, ∃ r ∈ records, r.sourceOffset = q) {q : Nat} (below : q < hole) :
    ∃ r, records[q]? = some r ∧ r.sourceOffset = q := by
  -- The records at earlier places have earlier offsets, and none is below its place.
  induction q using Nat.strongRecOn with
  | ind q ih =>
    obtain ⟨r, mem, offset⟩ := present q below
    obtain ⟨k, here⟩ := List.mem_iff_getElem?.mp mem
    have least := offset_ge ordered (fun _ _ => Nat.zero_le _) here
    rcases Nat.lt_or_eq_of_le (show k ≤ q by omega) with earlier | same
    · obtain ⟨r', here', offset'⟩ := ih k earlier (by omega)
      rw [here] at here'
      obtain rfl := Option.some.inj here'
      omega
    · exact ⟨r, same ▸ here, offset⟩

/-- The records of a stretch of a backup are in increasing order. -/
theorem Backup.records_ordered {reader : Reader} {start : Nat} {objects : List BackupObject}
    (backup : Backup reader start objects) :
    (backupRecords objects).Pairwise (·.sourceOffset < ·.sourceOffset) := by
  induction backup with
  | nil => exact .nil
  | cons written rest ih =>
    obtain ⟨inside, ordered, -⟩ := written.inside
    refine List.pairwise_append.mpr ⟨ordered, ih, fun r mem r' later => ?_⟩
    have upper := (inside r mem).2
    have lower := rest.start_le later
    omega

end Offsets

namespace ChainSource

variable {cfg : ChainSourceConfig} {backup : List BackupObject} {hole : Nat}
  {s s' : ChainSource GrowingStore} {n : Nat}

/-- The error of a follower that comes to a hole in an object. -/
def holeError (object : ChainObject) (hole : Nat) : RestoreError :=
  .mode (s!"--offsets=preserve: offset {hole} is a hole "
    ++ s!"in the backup ({object.name}: records removed by compaction, or a transaction "
    ++ "marker), and a Kafka topic cannot be written with holes")

/-- A backup from offset 0 on, restored with its offsets, whose first hole is known. -/
structure Holed (cfg : ChainSourceConfig) (backup : List BackupObject) (hole : Nat) : Prop where
  valid : Backup cfg.reader cfg.chainStart backup
  zero : cfg.chainStart = 0
  preserve : cfg.mode = .preserve
  first : FirstMissing (fun p => ∃ r ∈ backupRecords backup, r.sourceOffset = p) 0
    (backupEnd 0 backup) (some hole)

namespace Holed

variable (holed : Holed cfg backup hole)

include holed

/-- The backup starts at offset 0. -/
theorem fromZero : Backup cfg.reader 0 backup := holed.zero ▸ holed.valid

/-- Below the hole, every record stands at its offset. -/
theorem before {q : Nat} (below : q < hole) :
    ∃ r, (backupRecords backup)[q]? = some r ∧ r.sourceOffset = q := by
  obtain ⟨-, -, -, present⟩ := holed.first
  exact getElem?_of_present holed.valid.records_ordered (fun q below => present q (Nat.zero_le _) below)
    below

/-- In the place of the hole stands a record of a later offset. -/
theorem beyond : ∃ r, (backupRecords backup)[hole]? = some r ∧ hole < r.sourceOffset := by
  obtain ⟨-, inside, absent, -⟩ := holed.first
  have ordered := holed.valid.records_ordered
  -- The last record of the backup is at its end, so it is behind the hole.
  have later : ∃ r ∈ backupRecords backup, hole < r.sourceOffset := by
    rw [backupEnd_eq] at inside
    cases last : backup.getLast? with
    | none =>
      rw [last] at inside
      exact absurd inside (Nat.not_lt_zero _)
    | some o =>
      rw [last] at inside
      have inside : hole < o.object.hi + 1 := inside
      rw [List.getLast?_eq_getElem?] at last
      obtain ⟨k, r, -, here, offset⟩ := holed.valid.last_record last
      have mem : r ∈ backupRecords backup :=
        List.mem_flatMap.mpr ⟨o, List.mem_of_getElem? last, List.mem_of_getElem? here⟩
      have elsewhere : r.sourceOffset ≠ hole := fun same => absent ⟨r, mem, same⟩
      exact ⟨r, mem, by omega⟩
  obtain ⟨r, mem, behind⟩ := later
  obtain ⟨k, here⟩ := List.mem_iff_getElem?.mp mem
  have far : hole ≤ k := by
    by_contra near
    obtain ⟨r', here', offset'⟩ := holed.before (Nat.lt_of_not_le near)
    rw [here] at here'
    obtain rfl := Option.some.inj here'
    omega
  have within : hole < (backupRecords backup).length := by
    have := (List.getElem?_eq_some_iff.mp here).1
    omega
  refine ⟨_, List.getElem?_eq_getElem within, ?_⟩
  have at_hole : (backupRecords backup)[hole]? = some (backupRecords backup)[hole] :=
    List.getElem?_eq_getElem within
  have least := offset_ge ordered (fun _ _ => Nat.zero_le _) at_hole
  have elsewhere : (backupRecords backup)[hole].sourceOffset ≠ hole := fun same =>
    absent ⟨_, List.getElem_mem within, same⟩
  omega

/-- An object all of whose records are below the hole ends where they do. -/
theorem place {i : Nat} {o : BackupObject} (here : backup[i]? = some o)
    (below : recordsBefore backup (i + 1) ≤ hole) :
    o.object.hi + 1 = recordsBefore backup (i + 1) := by
  obtain ⟨k, last, length, at_end, offset⟩ := holed.valid.last_record here
  have place := getElem?_backupRecords here k (by omega)
  rw [at_end] at place
  have count := recordsBefore_succ here
  obtain ⟨r, same, at_place⟩ := holed.before (show recordsBefore backup i + k < hole by omega)
  rw [place] at same
  obtain rfl := Option.some.inj same
  omega

/-- An object with a record at the hole or behind it starts where the records before it end. -/
theorem start_eq {i : Nat} {o : BackupObject} (here : backup[i]? = some o)
    (below : recordsBefore backup i ≤ hole) : o.object.lo = recordsBefore backup i := by
  rw [holed.fromZero.lo_eq here]
  cases i with
  | zero => rfl
  | succ i =>
    obtain ⟨within, -⟩ := List.getElem?_eq_some_iff.mp here
    have earlier : backup[i]? = some backup[i] := List.getElem?_eq_getElem (by omega)
    rw [List.take_succ_eq_append_getElem (by omega), backupEnd_eq, List.getLast?_concat]
    exact holed.place earlier below

/-- The hole is in one of the objects. -/
theorem exists_holder : ∃ i o, backup[i]? = some o ∧ recordsBefore backup i ≤ hole
    ∧ hole < recordsBefore backup (i + 1) ∧ o.object.lo = recordsBefore backup i
    ∧ hole ≤ o.object.hi := by
  obtain ⟨r, here, -⟩ := holed.beyond
  have within : hole < recordsBefore backup backup.length := by
    rw [recordsBefore_length]
    exact (List.getElem?_eq_some_iff.mp here).1
  obtain ⟨i, o, -, at_i, starts, ends⟩ := exists_object within
  refine ⟨i, o, at_i, starts, ends, holed.start_eq at_i starts, ?_⟩
  -- Its last record is at its end, and none is below its place.
  obtain ⟨k, last, length, at_end, offset⟩ := holed.valid.last_record at_i
  have place := getElem?_backupRecords at_i k (by omega)
  rw [at_end] at place
  have least := offset_ge holed.valid.records_ordered (fun _ _ => Nat.zero_le _) place
  have count := recordsBefore_succ at_i
  omega

/-- Up to the hole, a seek finds the object that a position is in. -/
theorem reaches {position : Nat} (atMost : position ≤ hole) : Reaches backup position := by
  intro i o here below
  by_cases inside : recordsBefore backup (i + 1) ≤ hole
  · exact .inl (holed.place here inside)
  · refine .inr ⟨?_, by omega⟩
    obtain ⟨k, last, length, at_end, offset⟩ := holed.valid.last_record here
    have place := getElem?_backupRecords here k (by omega)
    rw [at_end] at place
    have least := offset_ge holed.valid.records_ordered (fun _ _ => Nat.zero_le _) place
    have count := recordsBefore_succ here
    omega

/-- The records from a position to the hole are those that stand at these places. -/
theorem records_eq (position : Nat) :
    (backupRecords backup).filter (fun r => position ≤ r.sourceOffset ∧ r.sourceOffset < hole)
      = ((backupRecords backup).take hole).drop position := by
  have ordered := holed.valid.records_ordered
  -- Cut at the hole and at the position, only the middle part is kept.
  have kept : ∀ (k : Nat) (r : Record), (backupRecords backup)[k]? = some r →
      (k < hole → r.sourceOffset = k) ∧ (hole ≤ k → hole < r.sourceOffset) := by
    intro k r here
    refine ⟨fun below => ?_, fun above => ?_⟩
    · obtain ⟨r', here', offset⟩ := holed.before below
      rw [here] at here'
      obtain rfl := Option.some.inj here'
      exact offset
    · obtain ⟨r', here', offset⟩ := holed.beyond
      rcases Nat.lt_or_eq_of_le above with later | same
      · obtain ⟨within, rfl⟩ := List.getElem?_eq_some_iff.mp here
        obtain ⟨within', rfl⟩ := List.getElem?_eq_some_iff.mp here'
        have := List.pairwise_iff_getElem.mp ordered hole k within' within later
        omega
      · rw [← same, here'] at here
        obtain rfl := Option.some.inj here
        exact offset
  have behind : ((backupRecords backup).drop hole).filter
      (fun r => position ≤ r.sourceOffset ∧ r.sourceOffset < hole) = [] := by
    rw [List.filter_eq_nil_iff]
    intro r mem
    obtain ⟨k, here⟩ := List.mem_iff_getElem?.mp mem
    rw [List.getElem?_drop] at here
    have := (kept _ r here).2 (Nat.le_add_right _ _)
    simp only [decide_eq_true_eq, not_and]
    omega
  have ahead : (((backupRecords backup).take hole).take position).filter
      (fun r => position ≤ r.sourceOffset ∧ r.sourceOffset < hole) = [] := by
    rw [List.filter_eq_nil_iff]
    intro r mem
    obtain ⟨k, here⟩ := List.mem_iff_getElem?.mp mem
    rw [List.getElem?_take, List.getElem?_take] at here
    split at here
    · split at here
      · have := (kept k r here).1 (by assumption)
        simp only [decide_eq_true_eq, not_and]
        omega
      · cases here
    · cases here
  have middle : (((backupRecords backup).take hole).drop position).filter
      (fun r => position ≤ r.sourceOffset ∧ r.sourceOffset < hole)
        = ((backupRecords backup).take hole).drop position := by
    rw [List.filter_eq_self]
    intro r mem
    obtain ⟨k, here⟩ := List.mem_iff_getElem?.mp mem
    rw [List.getElem?_drop, List.getElem?_take] at here
    split at here
    · have := (kept _ r here).1 (by assumption)
      simp only [decide_eq_true_eq]
      omega
    · cases here
  conv_lhs => rw [← List.take_append_drop hole (backupRecords backup), List.filter_append, behind,
    List.append_nil, ← List.take_append_drop position ((backupRecords backup).take hole),
    List.filter_append, ahead, List.nil_append, middle]

end Holed

omit [EnvelopeLibraries] in
/-- Records are buffered up to the hole, which ends it. -/
theorem preserveRecords_halts (object : ChainObject) (records : List Record) {first expected : Nat}
    (atMost : first ≤ expected) (within : expected ≤ hole)
    (placed : ∀ (k : Nat) (r : Record), records[k]? = some r → first + k < hole →
      r.sourceOffset = first + k)
    (beyond : ∃ r, records[hole - first]? = some r ∧ hole < r.sourceOffset)
    {s : ChainSource GrowingStore} :
    wp (preserveRecords object expected records) (fun _ _ => False)
      (fun e _ => e = holeError object hole) s := by
  -- Record by record, either it is before the hole or it is the one behind it.
  induction records generalizing first expected s with
  | nil =>
    obtain ⟨r, here, -⟩ := beyond
    rw [List.getElem?_nil] at here
    cases here
  | cons r records ih =>
    unfold preserveRecords
    by_cases last : first = hole
    · obtain rfl : expected = hole := by omega
      obtain ⟨r', here, offset⟩ := beyond
      rw [last, Nat.sub_self] at here
      obtain rfl : r = r' := by simpa using here
      rw [if_neg (by omega)]
      simp only [wp_bind, wp_ensure, if_neg (show ¬ r.sourceOffset = expected by omega)]
      rfl
    · have here : r.sourceOffset = first := placed 0 r rfl (by omega)
      have later : ∀ (k : Nat) (r : Record), records[k]? = some r → first + 1 + k < hole →
          r.sourceOffset = first + 1 + k := by
        intro k r at_k below
        have := placed (k + 1) r at_k (by omega)
        omega
      have beyond' : ∃ r, records[hole - (first + 1)]? = some r ∧ hole < r.sourceOffset := by
        obtain ⟨r', at_hole, offset⟩ := beyond
        rw [show hole - first = hole - (first + 1) + 1 by omega, List.getElem?_cons_succ] at at_hole
        exact ⟨r', at_hole, offset⟩
      rw [here]
      by_cases below : first < expected
      · rw [if_pos below]
        exact ih below within later beyond'
      · obtain rfl : first = expected := by omega
        rw [if_neg below]
        simp only [wp_bind, wp_ensure, wp_modify, if_true]
        exact ih (Nat.le_refl _) (by omega) later beyond'

/-- The object that the hole is in stops a follower, which has yielded all that is before it. -/
structure Holder (backup : List BackupObject) (hole start : Nat) (o : BackupObject) : Prop where
  mem : o ∈ backup
  lo : o.object.lo = start
  range : start ≤ hole ∧ hole ≤ o.object.hi
  upto : ∀ i o', backup[i]? = some o' → recordsBefore backup i ≤ hole →
    recordsBefore backup (i + 1) ≤ start ∨ o' = o ∧ recordsBefore backup i = start

/-- Some object is the one that the hole is in. -/
theorem Holed.holder (holed : Holed cfg backup hole) : ∃ start o, Holder backup hole start o := by
  obtain ⟨i, o, here, starts, ends, lo, hi⟩ := holed.exists_holder
  refine ⟨recordsBefore backup i, o, List.mem_of_getElem? here, lo, ⟨starts, hi⟩, ?_⟩
  intro j o' at_j below
  rcases Nat.lt_trichotomy j i with earlier | rfl | later
  · exact .inl (recordsBefore_mono earlier)
  · rw [here] at at_j
    exact .inr ⟨(Option.some.inj at_j).symm, rfl⟩
  · have := @recordsBefore_mono backup (i + 1) j later
    omega

/-- Only the object of the hole can start at it. -/
theorem Holder.start_of_lo {start : Nat} {o o' : BackupObject} (holder : Holder backup hole start o)
    (holed : Holed cfg backup hole) (mem : o' ∈ backup) (lo : o'.object.lo = hole) : start = hole := by
  obtain ⟨starts, ends⟩ := holder.range
  have range := (holed.valid.written mem).2.range
  have same := holder.lo
  obtain ⟨i, within, rfl⟩ := List.mem_iff_getElem.mp holder.mem
  obtain ⟨j, within', rfl⟩ := List.mem_iff_getElem.mp mem
  -- Of two objects one ends before the other starts.
  have apart := List.pairwise_iff_getElem.mp holed.valid.ascending
  rcases Nat.lt_trichotomy i j with earlier | rfl | later
  · have := apart i j within within' earlier
    omega
  · omega
  · have := apart j i within' within later
    omega

section Polls

variable {ε : Type} {poll : Polled ε GrowingStore} {stops : ε → Prop} {start upto : Nat}
  {o : BackupObject}

/-- A follower that has come to the object of the hole is stopped when it reads it. -/
theorem fill_halts (holed : Holed cfg backup hole) (lawful : poll.Lawful stops)
    (holder : Holder backup hole start o) (among : upto ≤ hole) (further : start ≤ upto) :
    FillsUpTo cfg backup poll stops upto fun n e =>
      start ≤ n ∧ e = poll.report (holeError o.object hole) := by
  refine fillsUpTo holed.valid lawful ?_
  intro n s o' placed awake empty unread here within ahead
  have reached := placed.reached
  rw [empty, List.length_nil, Nat.add_zero] at reached
  have position := placed.position
  have own : ∀ (k : Nat) (r : Record), o'.records[k]? = some r →
      recordsBefore backup s.nextObject + k < hole →
      r.sourceOffset = recordsBefore backup s.nextObject + k := by
    intro k r at_k below
    obtain ⟨r', same, offset⟩ := holed.before below
    rw [getElem?_backupRecords here k (List.getElem?_eq_some_iff.mp at_k).1, at_k] at same
    obtain rfl := Option.some.inj same
    exact offset
  have count := recordsBefore_succ here
  rw [placed.follows.knows.settings, holed.preserve]
  dsimp only
  rcases holder.upto _ o' here (by omega) with earlier | ⟨rfl, at_start⟩
  · -- Objects before that one have no hole.
    have whole : ∀ (k : Nat) (r : Record), o'.records[k]? = some r →
        r.sourceOffset = recordsBefore backup s.nextObject + k := by
      intro k r at_k
      have := (List.getElem?_eq_some_iff.mp at_k).1
      exact own k r at_k (by omega)
    refine wp_mono (preserve_buffers holed.valid holed.preserve placed awake empty unread here within
      whole) (fun _ s' ⟨further', more, next, onward⟩ => ⟨further', more, ?_, onward⟩)
      (fun _ _ failed => failed.elim)
    have ends := further'.buffer_ends more
    have ends : n + s'.buffer.length = recordsBefore backup (s'.nextObject + 1) := ends
    rw [next] at ends
    omega
  · refine wp_mono (preserveRecords_halts o'.object o'.records (by omega) (by omega) own ?_)
      (fun _ _ never => never.elim) (fun e _ named => ⟨by omega, by rw [named]⟩)
    -- The record in the place of the hole is in this object.
    obtain ⟨r, at_hole, offset⟩ := holed.beyond
    have inside : hole < recordsBefore backup (s.nextObject + 1) := by
      obtain ⟨k, last, length, at_end, at_hi⟩ := holed.valid.last_record here
      by_contra all
      have := holed.place here (by omega)
      have := holder.range.2
      omega
    refine ⟨r, ?_, offset⟩
    rw [← getElem?_backupRecords here (hole - recordsBefore backup s.nextObject) (by omega),
      Nat.add_sub_cancel' (by omega)]
    exact at_hole

end Polls

/-- Poll one time after the other up to the first error, each time after polls that are dropped. -/
def pollsToError {σ : Type} [BlobStore σ] :
    List Nat → ChainSource σ → List Record × Option SourceError
  | [], _ => ([], none)
  | dropped :: polls, s =>
    match pollOne (abandonPoll^[dropped] s) with
    | .ok polled s' =>
      let (records, error) := pollsToError polls s'
      (polled.toList ++ records, error)
    | .error e _ => ([], some e)

/-- Any number of dropped polls leaves a follower where it was, as far from a stop. -/
theorem abandonPolls_upTo {upto : Nat} {halts : Nat → Option SourceError → Prop}
    (valid : Backup cfg.reader cfg.chainStart backup)
    (fills : FillsUpTo cfg backup ChainSource.dropped (· = none) upto halts)
    (unhalted : ∀ n, ¬ halts n none) (dropped : Nat) {s : ChainSource GrowingStore}
    (placed : Placed cfg backup n s) (ahead : n + s.buffer.length ≤ upto) :
    Placed cfg backup n (abandonPoll^[dropped] s)
      ∧ n + (abandonPoll^[dropped] s).buffer.length ≤ upto
      ∧ Onward s (abandonPoll^[dropped] s) := by
  induction dropped generalizing s with
  | zero => exact ⟨placed, ahead, .refl s⟩
  | succ dropped ih =>
    obtain ⟨placed₁, ahead₁, onward₁⟩ := abandonPoll_upTo valid fills unhalted placed ahead
    obtain ⟨placed', ahead', onward'⟩ := ih placed₁ ahead₁
    exact ⟨placed', ahead', onward₁.trans onward'⟩

/-- A number of records, those from a place of the backup on, and how polling them ended. -/
structure Polls (backup : List BackupObject) (hole start upto n : Nat) (o : BackupObject)
    (polls : List Nat) (s : ChainSource GrowingStore) (m : Nat) : Prop where
  records : (pollsToError polls s).1 = ((backupRecords backup).drop n).take m
  ahead : n + m ≤ upto
  ends : ∀ e, (pollsToError polls s).2 = some e →
    (∃ reason, e = sourceError reason ∧ Unreachable s reason)
      ∨ start ≤ n + m ∧ e = sourceError (holeError o.object hole)
  goes : s.chain.length = backup.length → s.store.Quiet → (pollsToError polls s).2 = none →
    m = polls.length

/-- Polls yield record by record, until the object of the hole is read or a request fails. -/
theorem polls_spec (holed : Holed cfg backup hole) {start upto : Nat} {o : BackupObject}
    (holder : Holder backup hole start o) (among : upto ≤ hole) (further : start ≤ upto)
    (polls : List Nat) {n : Nat} {s : ChainSource GrowingStore} (placed : Placed cfg backup n s)
    (ahead : n + s.buffer.length ≤ upto) : ∃ m, Polls backup hole start upto n o polls s m := by
  induction polls generalizing n s with
  | nil => exact ⟨0, rfl, by omega, nofun, fun _ _ _ => rfl⟩
  | cons dropped polls ih =>
    obtain ⟨placed₁, ahead₁, onward₁⟩ := abandonPolls_upTo holed.valid
      (fill_halts holed dropped_lawful holder among further) (fun _ never => nomatch never.2) dropped
      placed ahead
    have polled := pollOne_upTo holed.valid (fill_halts holed kept_lawful holder among further)
      placed₁ ahead₁
    cases outcome : pollOne (abandonPoll^[dropped] s) with
    | error e s₂ =>
      have shown : pollsToError (dropped :: polls) s = ([], some e) := by
        rw [pollsToError, outcome]
      refine ⟨0, by rw [shown]; rfl, by omega, fun e' is => ?_, fun _ _ none_ => ?_⟩
      · rw [shown] at is
        obtain rfl := Option.some.inj is
        rcases wp_of_error polled outcome with ⟨⟨reason, named, failed⟩, -⟩ | halted
        · exact .inl ⟨reason, named, failed.before onward₁.later⟩
        · exact .inr halted
      · rw [shown] at none_
        cases none_
    | ok answer s₂ =>
      obtain ⟨yields, ahead₂, onward₂⟩ := wp_of_ok polled outcome
      have onward := onward₁.trans onward₂
      have shown : pollsToError (dropped :: polls) s
          = (answer.toList ++ (pollsToError polls s₂).1, (pollsToError polls s₂).2) := by
        rw [pollsToError, outcome]
      cases yields with
      | @record r _ here next =>
        have ahead₂ : n + 1 + s₂.buffer.length ≤ upto := ahead₂
        obtain ⟨m, rest⟩ := ih next ahead₂
        -- Below the hole a record is yielded as it is.
        have own : (backupRecords backup)[n]? = some r := by
          obtain ⟨r', at_n, offset⟩ := holed.before (show n < hole by omega)
          rw [getElem?_numbered, at_n, Nat.zero_add] at here
          have same : { r' with sourceOffset := n } = r := Option.some.inj here
          rw [at_n, ← same, ← offset]
        refine ⟨m + 1, ?_, ?_, fun e is => ?_, fun whole quiet none_ => ?_⟩
        · obtain ⟨within, at_n⟩ := List.getElem?_eq_some_iff.mp own
          rw [shown, rest.records, List.drop_eq_getElem_cons within, List.take_succ_cons, at_n]
          rfl
        · have := rest.ahead
          omega
        · rw [shown] at is
          rcases rest.ends e is with ⟨reason, named, failed⟩ | ⟨reached, named⟩
          · exact .inl ⟨reason, named, failed.before onward.later⟩
          · exact .inr ⟨by omega, named⟩
        · rw [shown] at none_
          rw [rest.goes (next.follows.whole onward whole) (onward.later.quiet quiet) none_]
          rfl
      | nothing all same =>
        have ahead₂ : n + s₂.buffer.length ≤ upto := ahead₂
        obtain ⟨m, rest⟩ := ih same ahead₂
        refine ⟨m, ?_, rest.ahead, fun e is => ?_, fun whole quiet none_ => ?_⟩
        · rw [shown]
          exact rest.records
        · rw [shown] at is
          rcases rest.ends e is with ⟨reason, named, failed⟩ | halted
          · exact .inl ⟨reason, named, failed.before onward.later⟩
          · exact .inr halted
        · -- With all listed there is a record left before the hole.
          obtain ⟨r, at_hole, -⟩ := holed.beyond
          have within := (List.getElem?_eq_some_iff.mp at_hole).1
          rw [same.follows.whole onward whole, recordsBefore_length] at all
          omega

/-- A seek to a position up to the hole succeeds, unless the position is behind what is listed. -/
theorem seek_holed (holed : Holed cfg backup hole) (follows : Follows cfg backup s) {position : Nat}
    (atMost : position ≤ hole) :
    wp (seek position)
      (fun _ s' => Placed cfg backup position s' ∧ s'.buffer = [] ∧ Onward s s')
      (fun _ _ => s.chain.length = backup.length → ¬ s.store.Quiet) s := by
  simp only [seek, asSource, wp_bind, wp_focus, wp_get, wp_ensure, wp_modify]
  refine wp_mono (listNew_spec holed.valid follows.knows) ?_ ?_
  · rintro _ s₁ ⟨knows₁, learned₁, _⟩
    have follows₁ := follows.learned knows₁ learned₁
    have mode : s₁.cfg.mode = .preserve := by rw [knows₁.settings, holed.preserve]
    rw [mode]
    split
    · rename_i allowed
      have within : position ≤ s₁.positionsEnd := by
        rcases allowed with renumber | within
        · cases renumber
        · exact within
      exact ⟨findIdx_placed holed.valid holed.zero holed.preserve follows₁ (holed.reaches atMost) within,
        rfl, learned₁.later, learned₁.chain⟩
    · -- What is listed whole ends behind the hole.
      rename_i refused
      intro whole _
      obtain ⟨-, inside, -, -⟩ := holed.first
      have whole₁ := follows₁.whole learned₁.onward whole
      refine refused (.inr ?_)
      by_cases nothing : s₁.chain = []
      · have empty : backup = [] := by
          rw [nothing] at whole₁
          exact List.length_eq_zero_iff.mp whole₁.symm
        rw [empty] at inside
        exact absurd inside (Nat.not_lt_zero _)
      · obtain ⟨o, here, ends⟩ := positionsEnd_last holed.valid knows₁ nothing
        rw [whole₁, ← List.getLast?_eq_getElem?] at here
        rw [backupEnd_eq, here] at inside
        have inside : hole < o.object.hi + 1 := inside
        have zero := holed.zero
        omega
  · rintro e s₁ ⟨_, _, _, unreachable⟩ _
    exact unreachable.2

/-- A source over a backup that was opened, asked whatever it was asked, and then positioned. -/
structure Positioned (cfg : ChainSourceConfig) (backup : List BackupObject) (position : Nat)
    (before s : ChainSource GrowingStore) : Prop where
  opened : ∃ store drops first calls, store.written = backup.map (·.blob)
    ∧ value? (openChain cfg drops store) = some first ∧ before = afterAsked calls first
  sought : failure? (seek position) before = none
  here : s = after (seek position) before

/-- Up to the hole, a source that was positioned yields the record of that position next. -/
theorem Positioned.placed (holed : Holed cfg backup hole) {position : Nat} (atMost : position ≤ hole)
    {before : ChainSource GrowingStore} (positioned : Positioned cfg backup position before s) :
    Placed cfg backup position s ∧ s.buffer = [] ∧ Follows cfg backup before ∧ Onward before s := by
  obtain ⟨⟨store, drops, first, calls, written, opens, rfl⟩, sought, rfl⟩ := positioned
  obtain ⟨follows₀, -, -⟩ := wp_of_ok (openChain_spec holed.valid (.inr holed.zero) written drops)
    (eq_ok_of_value? opens)
  obtain ⟨follows, -⟩ := afterAsked_follows holed.valid calls follows₀
  have seeks := seek_holed holed follows atMost
  cases outcome : seek position (afterAsked calls first) with
  | ok done s' =>
    rw [after, outcome]
    obtain ⟨placed, empty, onward⟩ := wp_of_ok seeks outcome
    exact ⟨placed, empty, follows, onward⟩
  | error e s' =>
    rw [failure?, outcome] at sought
    cases sought

/-- What is polled from a position on, up to the hole. -/
theorem positioned_polls (holed : Holed cfg backup hole) {position : Nat}
    (atMost : position ≤ hole) {start : Nat} {o : BackupObject} (holder : Holder backup hole start o)
    {before : ChainSource GrowingStore} (positioned : Positioned cfg backup position before s)
    (polls : List Nat) : ∃ m, Polls backup hole start (max position start) position o polls s m := by
  obtain ⟨placed, empty, -, -⟩ := positioned.placed holed atMost
  have range := holder.range.1
  refine polls_spec holed holder (by omega) (by omega) polls placed ?_
  rw [empty, List.length_nil]
  omega

/-- Every error that names a hole names this one, and where the polls have come to by then. -/
theorem Polls.named {start position : Nat} {o : BackupObject} {polls : List Nat} {m : Nat}
    (polled : Polls backup hole start (max position start) position o polls s m)
    {object : ChainObject}
    (named : (pollsToError polls s).2 = some (sourceError (holeError object hole))) :
    position + m = max position start := by
  rcases polled.ends _ named with ⟨reason, same, ⟨message, rfl⟩, -⟩ | ⟨reached, -⟩
  · cases same
  · have := polled.ahead
    omega

/-- With everything listed and no request failing, enough polls end with the error of the hole. -/
theorem positioned_named (holed : Holed cfg backup hole) {position : Nat} (atMost : position ≤ hole)
    {start : Nat} {o : BackupObject} (holder : Holder backup hole start o)
    {before : ChainSource GrowingStore} (positioned : Positioned cfg backup position before s)
    (quiet : before.store.Quiet) (whole : before.chain.length = backup.length) {polls : List Nat}
    (enough : hole - position < polls.length) :
    (pollsToError polls s).2 = some (sourceError (holeError o.object hole)) := by
  obtain ⟨placed, -, follows, onward⟩ := positioned.placed holed atMost
  obtain ⟨m, polled⟩ := positioned_polls holed atMost holder positioned polls
  have quiet' := onward.later.quiet quiet
  have range := holder.range.1
  cases ended : (pollsToError polls s).2 with
  | none =>
    have all := polled.goes (placed.follows.whole onward whole) quiet' ended
    have := polled.ahead
    omega
  | some e =>
    rcases polled.ends e ended with ⟨reason, -, failed⟩ | ⟨-, named⟩
    · exact absurd quiet' failed.2
    · rw [named]

/-- Every backup with a hole can be listed whole and positioned up to the hole. -/
theorem exists_positioned (holed : Holed cfg backup hole) {position : Nat}
    (atMost : position ≤ hole) :
    ∃ before s, Positioned cfg backup position before s ∧ before.store.Quiet
      ∧ before.chain.length = backup.length := by
  -- A store that shows everything and answers every request.
  let store : GrowingStore := ⟨backup.map (·.blob), backup.length, Stream'.const ⟨none, 0⟩⟩
  have answers : store.Quiet := fun _ => rfl
  have written : store.written = backup.map (·.blob) := rfl
  have opening := openChain_spec holed.valid (.inr holed.zero) written (Stream'.const true)
  cases opened : (openChain cfg (Stream'.const true) : Program RestoreError GrowingStore _) store with
  | error e store' => exact absurd answers (wp_of_error opening opened).1.2
  | ok first store' =>
    obtain ⟨follows, size, later⟩ := wp_of_ok opening opened
    have whole : first.chain.length = backup.length := by
      rw [size]
      exact Nat.min_eq_right later.shown
    have quiet := later.quiet answers
    have sought : failure? (seek position) first = none := by
      have seeks := seek_holed holed follows atMost
      cases outcome : seek position first with
      | ok done s' => rw [failure?, outcome]
      | error e s' => exact absurd quiet (wp_of_error seeks outcome whole)
    exact ⟨first, _, ⟨⟨store, _, first, [], rfl, by rw [opened]; rfl, rfl⟩, sought, rfl⟩, quiet, whole⟩

/--
With preserve, when the records before the first hole are all yielded before the error that names it.

They are if the follower starts at the hole, or an object does. Else the object that the hole is in has
records before it, which are buffered while the hole is found, and the error comes first.
With everything listed and no request failing, that error always comes.
-/
theorem hole_stops_iff (holed : Holed cfg backup hole) {position : Nat} (atMost : position ≤ hole) :
    ((∀ before s polls object, Positioned cfg backup position before s →
        (pollsToError polls s).2 = some (sourceError (holeError object hole)) →
        (pollsToError polls s).1 = (backupRecords backup).filter fun r =>
          position ≤ r.sourceOffset ∧ r.sourceOffset < hole)
      ↔ position = hole ∨ ∃ o ∈ backup, o.object.lo = hole)
    ∧ ∀ before s polls, Positioned cfg backup position before s → before.store.Quiet →
      before.chain.length = backup.length → hole - position < polls.length →
      ∃ o ∈ backup, (pollsToError polls s).2 = some (sourceError (holeError o.object hole)) := by
  obtain ⟨start, o, holder⟩ := holed.holder
  obtain ⟨starts, ends⟩ := holder.range
  refine ⟨⟨fun restores => ?_, fun either => ?_⟩, fun before s polls positioned quiet whole enough =>
    ⟨o, holder.mem, positioned_named holed atMost holder positioned quiet whole enough⟩⟩
  · obtain ⟨before, s, positioned, quiet, whole⟩ := exists_positioned holed atMost
    have named := positioned_named holed atMost holder positioned quiet whole
      (show hole - position < (List.replicate (hole - position + 1) 0).length by simp)
    obtain ⟨m, polled⟩ := positioned_polls holed atMost holder positioned
      (List.replicate (hole - position + 1) 0)
    have reached := polled.named named
    -- As many records were yielded as there are before the hole.
    have yielded := congrArg List.length (restores _ _ _ _ positioned named)
    have length : hole ≤ (backupRecords backup).length := by
      obtain ⟨r, at_hole, -⟩ := holed.beyond
      exact Nat.le_of_lt (List.getElem?_eq_some_iff.mp at_hole).1
    rw [polled.records, holed.records_eq, List.length_take, List.length_drop, List.length_drop,
      List.length_take] at yielded
    by_cases here : position = hole
    · exact .inl here
    · refine .inr ⟨o, holder.mem, ?_⟩
      rw [holder.lo]
      omega
  · intro before s polls object positioned named
    obtain ⟨m, polled⟩ := positioned_polls holed atMost holder positioned polls
    have reached := polled.named named
    have all : max position start = hole := by
      rcases either with here | ⟨o', mem, lo⟩
      · omega
      · have := holder.start_of_lo holed mem lo
        omega
    rw [polled.records, holed.records_eq, List.drop_take, show hole - position = m by omega]

end ChainSource

end Sources

namespace Sample

/-- How a backup is read as a source that keeps its offsets. -/
def keepingOffsets : ChainSourceConfig := ⟨⟨.ndjson, none, "t", 0⟩, .preserve, 0⟩

/-- A backup with no record at offset 2, where an object starts. -/
def holeBetween : List BackupObject :=
  [⟨⟨blobFilename 0 1 none "ndjson", 0, 1, none⟩, line 0 ++ [10] ++ line 1 ++ [10],
      [record 0, record 1]⟩,
    ⟨⟨blobFilename 2 3 none "ndjson", 2, 3, none⟩, line 3 ++ [10], [record 3]⟩]

/-- A backup with no record at offset 2, in the middle of an object. -/
def holeInside : List BackupObject :=
  [⟨⟨blobFilename 0 0 none "ndjson", 0, 0, none⟩, line 0 ++ [10], [record 0]⟩,
    ⟨⟨blobFilename 1 3 none "ndjson", 1, 3, none⟩, line 1 ++ [10] ++ line 3 ++ [10],
      [record 1, record 3]⟩]

/-- Of both the first hole is there. -/
theorem holed_two : ChainSource.Holed keepingOffsets holeBetween 2
    ∧ ChainSource.Holed keepingOffsets holeInside 2 := by
  refine ⟨⟨.cons ⟨rfl, by decide, by decide, rfl, nofun, by decide +kernel⟩
      (.cons ⟨rfl, by decide, by decide, rfl, nofun, by decide +kernel⟩ .nil), rfl, rfl, ?_⟩,
    ⟨.cons ⟨rfl, by decide, by decide, rfl, nofun, by decide +kernel⟩
      (.cons ⟨rfl, by decide, by decide, rfl, nofun, by decide +kernel⟩ .nil), rfl, rfl, ?_⟩⟩
  all_goals
    refine ⟨by decide, by decide, by decide, fun position _ below => ?_⟩
    obtain rfl | rfl : position = 0 ∨ position = 1 := by omega
    all_goals decide

/-- A hole where an object starts stops a follower with both records before it restored. -/
theorem hole_stops_iff_between : ∃ before s object,
    ChainSource.Positioned keepingOffsets holeBetween 0 before s
      ∧ (ChainSource.pollsToError [0, 0, 0] s).2
        = some (sourceError (ChainSource.holeError object 2))
      ∧ (ChainSource.pollsToError [0, 0, 0] s).1 = [record 0, record 1] := by
  -- The second object starts at the hole, so both records of the first come before the error.
  obtain ⟨before, s, positioned, quiet, whole⟩ :=
    ChainSource.exists_positioned holed_two.1 (Nat.zero_le 2)
  have holds := ChainSource.hole_stops_iff holed_two.1 (Nat.zero_le 2)
  obtain ⟨o, -, named⟩ := holds.2 before s [0, 0, 0] positioned quiet whole (by decide)
  have starts : (0 : Nat) = 2 ∨ ∃ o ∈ holeBetween, o.object.lo = 2 := .inr (by decide)
  exact ⟨before, s, o.object, positioned, named,
    holds.1.mpr starts before s [0, 0, 0] o.object positioned named⟩

/-- A hole inside an object stops a follower before the record of that object before it. -/
theorem hole_loses_record : ∃ before s,
    ChainSource.Positioned keepingOffsets holeInside 0 before s
      ∧ ∃ object, (ChainSource.pollsToError [0, 0, 0] s).2
          = some (sourceError (ChainSource.holeError object 2))
        ∧ (ChainSource.pollsToError [0, 0, 0] s).1 = [record 0]
        ∧ ((backupRecords holeInside).filter fun r => 0 ≤ r.sourceOffset ∧ r.sourceOffset < 2)
          = [record 0, record 1] := by
  have holed := holed_two.2
  obtain ⟨before, s, positioned, quiet, whole⟩ := ChainSource.exists_positioned holed (Nat.zero_le 2)
  obtain ⟨start, o, holder⟩ := holed.holder
  have named := ChainSource.positioned_named holed (Nat.zero_le 2) holder positioned quiet whole
    (show 2 - 0 < [0, 0, 0].length by decide)
  obtain ⟨m, polled⟩ := ChainSource.positioned_polls holed (Nat.zero_le 2) holder positioned [0, 0, 0]
  -- The hole is in the second object, which starts at offset 1.
  have second : start = 1 := by
    have range := holder.range
    have lo := holder.lo
    rcases List.mem_cons.mp holder.mem with rfl | mem
    · exact absurd range.2 (by decide)
    · obtain rfl := List.mem_singleton.mp mem
      exact lo.symm
  have reached := polled.named named
  have one : m = 1 := by
    rw [second] at reached
    omega
  refine ⟨before, s, positioned, o.object, named, ?_, by decide⟩
  rw [polled.records, one]
  rfl

end Sample

end MirrorV3
