import MirrorV3.Kafka.Sink
import MirrorV3.Restore.Backup
import MirrorV3.Restore.Follow
import MirrorV3.Restore.Growing

/-! A follower of a backup that grows: what it has listed, counted and read is of that backup. -/

namespace MirrorV3

open Effect

section Numbered

variable {n : Nat} {records others : List Record}

/-- Numbering keeps every record. -/
@[simp] theorem length_numbered : (numbered n records).length = records.length := by
  induction records generalizing n with
  | nil => rfl
  | cons r records ih => simp [numbered, ih]

/-- Each record is numbered by its place. -/
theorem getElem?_numbered (k : Nat) :
    (numbered n records)[k]? = records[k]?.map ({ · with sourceOffset := n + k }) := by
  induction records generalizing n k with
  | nil => simp [numbered]
  | cons r records ih =>
    cases k with
    | zero => rfl
    | succ k =>
      rw [numbered, List.getElem?_cons_succ, ih, List.getElem?_cons_succ, Nat.add_assoc,
        Nat.add_comm 1 k]

/-- Records that stand at their places are numbered as they are. -/
theorem numbered_eq (placed : ∀ (k : Nat) (r : Record), records[k]? = some r →
    r.sourceOffset = n + k) : numbered n records = records := by
  apply List.ext_getElem?
  intro k
  rw [getElem?_numbered]
  cases here : records[k]? with
  | none => rfl
  | some r => rw [Option.map_some, ← placed k r here]

end Numbered

variable [EnvelopeLibraries]

namespace ChainSource

variable {cfg : ChainSourceConfig} {backup : List BackupObject} {s s' : ChainSource GrowingStore}

/-- What a follower knows of a backup: a first part of its objects, and of those some records. -/
structure Knows (cfg : ChainSourceConfig) (backup : List BackupObject)
    (s : ChainSource GrowingStore) : Prop where
  settings : s.cfg = cfg
  written : s.store.written = backup.map (·.blob)
  shown : s.chain.length ≤ s.store.shown
  chain : s.chain = (backup.take s.chain.length).map (·.object)
  counted : s.counts.length ≤ s.chain.length
  counts : s.counts = (backup.take s.counts.length).map (·.records.length)
  lastRead : ∀ i records, s.lastRead = some (i, records) →
    ∃ o, backup[i]? = some o ∧ o.records = records

omit [EnvelopeLibraries] in
/-- Nothing else of a follower has a part in what it knows. -/
theorem Knows.congr (knows : Knows cfg backup s) (settings : s'.cfg = s.cfg)
    (store : s'.store = s.store) (chain : s'.chain = s.chain) (counts : s'.counts = s.counts)
    (lastRead : s'.lastRead = s.lastRead) : Knows cfg backup s' := by
  refine ⟨settings.trans knows.settings, ?_, ?_, ?_, ?_, ?_, ?_⟩
  · rw [store]
    exact knows.written
  · rw [chain, store]
    exact knows.shown
  · rw [chain]
    exact knows.chain
  · rw [chain, counts]
    exact knows.counted
  · rw [counts]
    exact knows.counts
  · rw [lastRead]
    exact knows.lastRead

/-- What a follower yields next does not change, nor what it has begun to read or to wait for. -/
structure Stays (s s' : ChainSource GrowingStore) : Prop where
  position : s'.position = s.position
  nextObject : s'.nextObject = s.nextObject
  buffer : s'.buffer = s.buffer
  skip : s'.skip = s.skip
  pending : s'.pending = s.pending
  idleUntil : s'.idleUntil = s.idleUntil

/-- What asking about a backup leaves of a follower: it knows more, and stands where it stood. -/
structure Learned (s s' : ChainSource GrowingStore) : Prop where
  later : GrowingStore.Later s.store s'.store
  chain : s.chain.length ≤ s'.chain.length
  counts : s.counts.length ≤ s'.counts.length
  stays : Stays s s'

omit [EnvelopeLibraries] in
/-- Asking nothing is learning nothing. -/
theorem Learned.refl (s : ChainSource GrowingStore) : Learned s s :=
  ⟨.refl _, Nat.le_refl _, Nat.le_refl _, rfl, rfl, rfl, rfl, rfl, rfl⟩

omit [EnvelopeLibraries] in
/-- Learning twice is learning. -/
theorem Learned.trans {s'' : ChainSource GrowingStore} (one : Learned s s')
    (other : Learned s' s'') : Learned s s'' := by
  refine ⟨one.later.trans other.later, Nat.le_trans one.chain other.chain,
    Nat.le_trans one.counts other.counts, ?_⟩
  have first := one.stays
  have second := other.stays
  exact ⟨second.position.trans first.position, second.nextObject.trans first.nextObject,
    second.buffer.trans first.buffer, second.skip.trans first.skip,
    second.pending.trans first.pending, second.idleUntil.trans first.idleUntil⟩

/-- The only failure of a backup that is well written: its store failed a request. -/
def Unreachable (s : ChainSource GrowingStore) (e : RestoreError) : Prop :=
  (∃ message, e = .store message) ∧ ¬ s.store.Quiet

omit [EnvelopeLibraries] in
/-- A store that fails a request later is not quiet before it. -/
theorem Unreachable.before {e : RestoreError} (failed : Unreachable s' e)
    (later : GrowingStore.Later s.store s'.store) : Unreachable s e :=
  ⟨failed.1, fun quiet => failed.2 (later.quiet quiet)⟩

omit [EnvelopeLibraries] in
/-- A listed object is at its place in the backup. -/
theorem Knows.getElem? (knows : Knows cfg backup s) (i : Nat) :
    s.chain[i]? = if i < s.chain.length then backup[i]?.map (·.object) else none := by
  conv_lhs => rw [knows.chain]
  rw [List.getElem?_map, List.getElem?_take]
  split <;> rfl

omit [EnvelopeLibraries] in
/-- A listed object is one of the backup. -/
theorem Knows.object (knows : Knows cfg backup s) {i : Nat} {object : ChainObject}
    (here : s.chain[i]? = some object) :
    ∃ o, backup[i]? = some o ∧ o.object = object ∧ i < s.chain.length := by
  rw [knows.getElem?] at here
  split at here
  · rename_i within
    obtain ⟨o, at_i, same⟩ := Option.map_eq_some_iff.mp here
    exact ⟨o, at_i, same, within⟩
  · cases here

omit [EnvelopeLibraries] in
/-- No more objects are listed than there are. -/
theorem Knows.length_le (knows : Knows cfg backup s) : s.chain.length ≤ backup.length := by
  have length := congrArg List.length knows.chain
  rw [List.length_map, List.length_take] at length
  omega

omit [EnvelopeLibraries] in
/-- The objects that are there but were not listed yet. -/
theorem Knows.stored (knows : Knows cfg backup s) {store : GrowingStore}
    (later : GrowingStore.Later s.store store) :
    store.stored.map (·.1) = (backup.take s.chain.length
      ++ (backup.take store.shown).drop s.chain.length).map (·.object.name) := by
  have listed : backup.take s.chain.length = (backup.take store.shown).take s.chain.length := by
    rw [List.take_take, Nat.min_eq_left (Nat.le_trans knows.shown later.shown)]
  rw [listed, List.take_append_drop, GrowingStore.stored, later.written, knows.written,
    ← List.map_take, List.map_map]
  rfl

/-- A listing extends the chain by the objects written since, or fails for want of the store. -/
theorem listNew_spec (valid : Backup cfg.reader cfg.chainStart backup) (knows : Knows cfg backup s) :
    wp listNew
      (fun grown s' => Knows cfg backup s' ∧ Learned s s' ∧ s'.counts = s.counts
        ∧ s'.lastRead = s.lastRead ∧ s'.chain.length = min s'.store.shown backup.length
        ∧ (grown = true ↔ s.chain.length < s'.chain.length))
      (fun e s' => Knows cfg backup s' ∧ Learned s s' ∧ s'.chain = s.chain ∧ Unreachable s e) s := by
  have keeps : ∀ store, GrowingStore.Later s.store store →
      Knows cfg backup { s with store } ∧ Learned s { s with store } := fun store later =>
    ⟨⟨knows.settings, later.written.trans knows.written, Nat.le_trans knows.shown later.shown,
      knows.chain, knows.counted, knows.counts, knows.lastRead⟩,
      ⟨later, Nat.le_refl _, Nat.le_refl _, rfl, rfl, rfl, rfl, rfl, rfl⟩⟩
  simp only [listNew, wp_bind, wp_get, wp_focus]
  refine wp_mono (GrowingStore.listAfter_spec _ s.store) (fun names store ⟨later, listed⟩ => ?_)
    (fun e store ⟨later, failed⟩ =>
      ⟨(keeps store later).1, (keeps store later).2, rfl, ⟨_, rfl⟩, failed⟩)
  -- What a listing names is what is there and was not listed yet.
  have within := knows.length_le
  have known : backup.take store.shown = backup.take s.chain.length
      ++ (backup.take store.shown).drop s.chain.length := by
    conv_lhs => rw [← List.take_append_drop s.chain.length (backup.take store.shown)]
    rw [List.take_take, Nat.min_eq_left (Nat.le_trans knows.shown later.shown)]
  generalize new : (backup.take store.shown).drop s.chain.length = others at known
  have part : Backup cfg.reader cfg.chainStart (backup.take s.chain.length ++ others) := by
    rw [← List.take_append_drop store.shown backup, known] at valid
    exact valid.split.1
  have last : s.chain.getLast?.map (·.name)
      = (backup.take s.chain.length).getLast?.map (·.object.name) := by
    conv_lhs => rw [knows.chain]
    rw [List.getLast?_map, Option.map_map]
    rfl
  have names_eq : names = others.map (·.object.name) := by
    rw [listed, knows.stored later, new, last]
    exact part.names_after
  have count : others.length = min store.shown backup.length - s.chain.length := by
    rw [← new, List.length_drop, List.length_take]
  have shown := Nat.le_trans knows.shown later.shown
  by_cases empty : others = []
  · rw [if_pos (by rw [names_eq, empty]; rfl)]
    have size : s.chain.length = min store.shown backup.length := by
      rw [empty] at count
      simp only [List.length_nil] at count
      omega
    refine ⟨(keeps store later).1, (keeps store later).2, rfl, rfl, size, ?_⟩
    show false = true ↔ s.chain.length < s.chain.length
    simp
  · rw [if_neg (by rw [names_eq]; simpa using empty)]
    -- The new objects start where the listed ones end, so there is no gap.
    have start_eq : ((s.chain.getLast?.map fun o => addOne o.hi).getD s.cfg.chainStart)
        = backupEnd cfg.chainStart (backup.take s.chain.length) := by
      rw [backupEnd_eq, knows.settings]
      conv_lhs => rw [knows.chain]
      rw [List.getLast?_map]
      cases at_end : (backup.take s.chain.length).getLast? with
      | none => rfl
      | some o =>
        have inRange := (part.split.1.written (List.mem_of_getLast? at_end)).2.numbered
        show addOne o.object.hi = o.object.hi + 1
        exact addOne_eq (by omega)
    rw [start_eq, knows.settings]
    have rest := part.split.2
    generalize backupEnd cfg.chainStart (backup.take s.chain.length) = start at rest ⊢
    have lows : (names.filterMap fun n =>
        (parseBlobName n cfg.reader.format.extension).map (·.lo))
        = (others.map (·.object)).map (·.lo) := by
      rw [names_eq, List.filterMap_map, List.map_map, ← List.filterMap_eq_map]
      refine List.filterMap_congr fun o mem => ?_
      simp only [Function.comp, rest.parse_eq mem]
      rfl
    have planned := rest.planChain_eq empty
    rw [← names_eq] at planned
    rw [lows, rest.min_lo empty, planned]
    have adjoins : (some start).filter (fun f => decide (s.chain ≠ [] ∧ start < f)) = none := by
      simp
    rw [adjoins]
    simp only [wp_bind, wp_ofExcept, wp_modify, wp_pure]
    have chain : s.chain ++ others.map (·.object) = (backup.take store.shown).map (·.object) := by
      rw [known, List.map_append, ← knows.chain]
    have size : (s.chain ++ others.map (·.object)).length = min store.shown backup.length := by
      rw [chain, List.length_map, List.length_take]
    refine ⟨⟨knows.settings, later.written.trans knows.written, ?_, ?_, ?_, knows.counts,
      knows.lastRead⟩, ⟨later, ?_, Nat.le_refl _, rfl, rfl, rfl, rfl, rfl, rfl⟩, rfl,
      rfl, size, ?_⟩
    · show (s.chain ++ others.map (·.object)).length ≤ store.shown
      omega
    · show s.chain ++ others.map (·.object)
        = (backup.take (s.chain ++ others.map (·.object)).length).map (·.object)
      rw [size, chain, ← List.take_eq_take_min]
    · show s.counts.length ≤ (s.chain ++ others.map (·.object)).length
      have := knows.counted
      omega
    · show s.chain.length ≤ (s.chain ++ others.map (·.object)).length
      omega
    · have some_ := List.length_pos_iff.mpr empty
      refine ⟨fun _ => ?_, fun _ => trivial⟩
      show s.chain.length < (s.chain ++ others.map (·.object)).length
      omega

/-- A listed object is read as its records, or the store could not be reached. -/
theorem readObject_spec (valid : Backup cfg.reader cfg.chainStart backup)
    (knows : Knows cfg backup s) {i : Nat} {o : BackupObject} (here : backup[i]? = some o)
    (within : i < s.chain.length) :
    wp (readObject o.object)
      (fun records s' => records = o.records ∧ Knows cfg backup s' ∧ Learned s s'
        ∧ s'.chain = s.chain ∧ s'.counts = s.counts ∧ s'.lastRead = s.lastRead)
      (fun e s' => Unreachable s e ∧ Knows cfg backup s' ∧ Learned s s' ∧ s'.chain = s.chain
        ∧ s'.counts = s.counts ∧ s'.lastRead = s.lastRead) s := by
  have keeps : ∀ store, GrowingStore.Later s.store store →
      Knows cfg backup { s with store } ∧ Learned s { s with store } := fun store later =>
    ⟨⟨knows.settings, later.written.trans knows.written, Nat.le_trans knows.shown later.shown,
      knows.chain, knows.counted, knows.counts, knows.lastRead⟩,
      ⟨later, Nat.le_refl _, Nat.le_refl _, rfl, rfl, rfl, rfl, rfl, rfl⟩⟩
  simp only [readObject, wp_bind, wp_get, wp_focus, wp_ofExcept]
  -- A listed object stays there, so what is found under its name are its bytes.
  have found_eq : ∀ store, GrowingStore.Later s.store store →
      store.stored.lookup o.object.name = some o.bytes := by
    intro store later
    have there : o ∈ backup.take store.shown := by
      have shown := Nat.le_trans knows.shown later.shown
      refine List.mem_of_getElem? (i := i) ?_
      rw [List.getElem?_take_of_lt (by omega), here]
    have part : Backup cfg.reader cfg.chainStart (backup.take store.shown) := by
      rw [← List.take_append_drop store.shown backup] at valid
      exact valid.split.1
    have stored : store.stored = (backup.take store.shown).map (·.blob) := by
      rw [GrowingStore.stored, later.written, knows.written, List.map_take]
    rw [stored, part.lookup_eq there]
  refine wp_mono (GrowingStore.get_spec _ s.store) (fun bytes store ⟨later, found⟩ => ?_)
    (fun e store ⟨later, failed⟩ => ?_)
  case refine_2 =>
    refine ⟨⟨⟨_, rfl⟩, ?_⟩, (keeps store later).1, (keeps store later).2, rfl, rfl, rfl⟩
    rcases failed with missing | failed
    · rw [found_eq store later] at missing
      cases missing
    · exact failed
  rw [found_eq store later] at found
  cases found
  have reads := (valid.written (List.mem_of_getElem? here)).2.reads
  rw [knows.settings]
  have location : (BlobStore.location s.store o.object.name : String) = o.object.name := rfl
  rw [location, reads]
  exact ⟨rfl, (keeps store later).1, (keeps store later).2, rfl, rfl, rfl⟩

/-- The records of a listed object are known without a read or read now. -/
theorem recordsOf_spec (valid : Backup cfg.reader cfg.chainStart backup)
    (knows : Knows cfg backup s) {i : Nat} {o : BackupObject} (here : backup[i]? = some o)
    (within : i < s.chain.length) :
    wp (recordsOf i o.object)
      (fun records s' => records = o.records ∧ Knows cfg backup s' ∧ Learned s s'
        ∧ s'.chain = s.chain ∧ s'.counts = s.counts)
      (fun e s' => Unreachable s e ∧ Knows cfg backup s' ∧ Learned s s' ∧ s'.chain = s.chain) s := by
  simp only [recordsOf, wp_bind, wp_get]
  -- The object that was read last is kept, and any other is read from the store.
  cases known : s.lastRead.filter (fun read => decide (read.1 = i)) with
  | some read =>
    obtain ⟨j, records⟩ := read
    obtain ⟨last, same⟩ := Option.filter_eq_some_iff.mp known
    have same : j = i := of_decide_eq_true same
    subst same
    obtain ⟨o', at_i, holds⟩ := knows.lastRead _ _ last
    rw [here] at at_i
    cases at_i
    exact ⟨holds.symm, knows, .refl s, rfl, rfl⟩
  | none =>
    simp only [wp_bind, wp_modify, wp_pure]
    refine wp_mono (readObject_spec valid knows here within)
      (fun records s' ⟨read, knows', learned, chain, counts, _⟩ => ?_)
      (fun e s' ⟨unreachable, knows', learned, chain, _⟩ => ⟨unreachable, knows', learned, chain⟩)
    refine ⟨read, ⟨knows'.settings, knows'.written, knows'.shown, knows'.chain, knows'.counted,
      knows'.counts, ?_⟩, ⟨learned.later, learned.chain, learned.counts,
      ⟨learned.stays.position, learned.stays.nextObject, learned.stays.buffer, learned.stays.skip,
        learned.stays.pending, learned.stays.idleUntil⟩⟩,
      chain, counts⟩
    intro j others last
    cases last
    exact ⟨o, here, read.symm⟩

/-- Objects are counted in order, from the first that was not counted yet. -/
theorem countObjects_spec (valid : Backup cfg.reader cfg.chainStart backup)
    (objects : List BackupObject) {j : Nat} {s : ChainSource GrowingStore}
    (knows : Knows cfg backup s) (next : s.counts.length = j)
    (stretch : ∀ k o, objects[k]? = some o → backup[j + k]? = some o)
    (within : j + objects.length ≤ s.chain.length) :
    wp (countObjects j (objects.map (·.object)))
      (fun _ s' => Knows cfg backup s' ∧ Learned s s' ∧ s'.chain = s.chain
        ∧ s'.counts.length = j + objects.length)
      (fun e s' => Unreachable s e ∧ Knows cfg backup s' ∧ Learned s s' ∧ s'.chain = s.chain) s := by
  induction objects generalizing j s with
  | nil => exact ⟨knows, .refl s, rfl, next⟩
  | cons o objects ih =>
    have here : backup[j]? = some o := stretch 0 o rfl
    rw [List.length_cons] at within
    simp only [List.map_cons, countObjects, wp_bind, wp_modify]
    refine wp_mono (recordsOf_spec valid knows here (by omega))
      (fun records s₁ ⟨read, knows₁, learned₁, chain₁, counts₁⟩ => ?_) (fun e s' failed => failed)
    subst read
    -- One more object is counted, and the rest follow it.
    have length₁ : (s₁.counts ++ [o.records.length]).length = j + 1 := by
      rw [List.length_append, counts₁, next]
      rfl
    have counted : Knows cfg backup { s₁ with counts := s₁.counts ++ [o.records.length] } := by
      refine ⟨knows₁.settings, knows₁.written, knows₁.shown, knows₁.chain, ?_, ?_, knows₁.lastRead⟩
      · show (s₁.counts ++ [o.records.length]).length ≤ s₁.chain.length
        rw [length₁, chain₁]
        omega
      · show s₁.counts ++ [o.records.length]
          = (backup.take (s₁.counts ++ [o.records.length]).length).map (·.records.length)
        have before := knows₁.counts
        rw [counts₁, next] at before
        obtain ⟨inside, at_j⟩ := List.getElem?_eq_some_iff.mp here
        rw [length₁, List.take_succ_eq_append_getElem inside, List.map_append, counts₁, before,
          at_j, List.map_singleton]
    have learned : Learned s { s₁ with counts := s₁.counts ++ [o.records.length] } := by
      refine ⟨learned₁.later, learned₁.chain, ?_, ⟨learned₁.stays.position, learned₁.stays.nextObject,
        learned₁.stays.buffer, learned₁.stays.skip, learned₁.stays.pending, learned₁.stays.idleUntil⟩⟩
      show s.counts.length ≤ (s₁.counts ++ [o.records.length]).length
      omega
    refine wp_mono (ih counted length₁ (fun k o at_k => ?_) ?_)
      (fun _ s' ⟨knows', learned', chain', counts'⟩ =>
        ⟨knows', learned.trans learned', chain'.trans chain₁, ?_⟩)
      (fun e s' ⟨unreachable, knows', learned', chain'⟩ =>
        ⟨unreachable.before learned.later, knows', learned.trans learned', chain'.trans chain₁⟩)
    · rw [Nat.add_right_comm, Nat.add_assoc]
      exact stretch (k + 1) o at_k
    · show j + 1 + objects.length ≤ s₁.chain.length
      rw [chain₁]
      omega
    · rw [counts', List.length_cons]
      omega

/-- A listed object is counted, with every object before it. -/
theorem count_spec (valid : Backup cfg.reader cfg.chainStart backup) (knows : Knows cfg backup s)
    {i : Nat} {o : BackupObject} (here : backup[i]? = some o) (within : i < s.chain.length) :
    wp (count i)
      (fun n s' => n = o.records.length ∧ Knows cfg backup s' ∧ Learned s s' ∧ s'.chain = s.chain)
      (fun e s' => Unreachable s e ∧ Knows cfg backup s' ∧ Learned s s' ∧ s'.chain = s.chain) s := by
  -- Objects are counted from the first that was not counted yet up to this one.
  have among := knows.length_le
  have counted := knows.counted
  have part : (s.chain.take (i + 1)).drop s.counts.length
      = ((backup.take (i + 1)).drop s.counts.length).map (·.object) := by
    conv_lhs => rw [knows.chain]
    rw [List.map_drop, ← List.map_take, List.take_take, Nat.min_eq_left (by omega)]
  have length : ((backup.take (i + 1)).drop s.counts.length).length = i + 1 - s.counts.length := by
    rw [List.length_drop, List.length_take]
    omega
  simp only [count, wp_bind, wp_get, wp_pure, part]
  refine wp_mono (countObjects_spec valid _ knows rfl (fun k o at_k => ?_) (by omega))
    (fun _ s' ⟨knows', learned, chain, counts⟩ => ⟨?_, knows', learned, chain⟩)
    (fun e s' failed => failed)
  · rw [List.getElem?_drop] at at_k
    have below : s.counts.length + k < i + 1 := by
      obtain ⟨inside, -⟩ := List.getElem?_eq_some_iff.mp at_k
      rw [List.length_take] at inside
      omega
    rwa [List.getElem?_take_of_lt below] at at_k
  · -- Whatever was counted before, the place of this object holds its count.
    have reached : i < s'.counts.length := by omega
    rw [List.getD_eq_getElem?_getD, knows'.counts, List.getElem?_map,
      List.getElem?_take_of_lt reached, here]
    rfl

/-- The objects from one on are searched for the one that holds a position. -/
theorem locate_spec (valid : Backup cfg.reader cfg.chainStart backup) (position : Nat)
    (remaining : Nat) {i : Nat} {s : ChainSource GrowingStore} (knows : Knows cfg backup s)
    (left : i + remaining = s.chain.length) (below : recordsBefore backup i ≤ position) :
    wp (locate position remaining i (recordsBefore backup i))
      (fun found s' => found.2 = recordsBefore backup found.1 ∧ found.2 ≤ position
        ∧ found.1 ≤ s.chain.length
        ∧ (found.1 < s.chain.length → position < recordsBefore backup (found.1 + 1))
        ∧ Knows cfg backup s' ∧ Learned s s' ∧ s'.chain = s.chain)
      (fun e s' => Unreachable s e ∧ Knows cfg backup s' ∧ Learned s s' ∧ s'.chain = s.chain) s := by
  -- By induction on the objects that are left: each is passed by unless the position is inside it.
  induction remaining generalizing i s with
  | zero =>
    refine ⟨rfl, below, by omega, fun more => ?_, knows, .refl s, rfl⟩
    have : i < s.chain.length := more
    omega
  | succ remaining ih =>
    have within : i < backup.length := by
      have := knows.length_le
      omega
    have here : backup[i]? = some backup[i] := List.getElem?_eq_getElem within
    simp only [locate, wp_bind, wp_ite, wp_pure]
    refine wp_mono (count_spec valid knows here (by omega))
      (fun n s₁ ⟨counted, knows₁, learned₁, chain₁⟩ => ?_) (fun e s' failed => failed)
    have next := recordsBefore_succ here
    rw [counted, ← next]
    split
    · rename_i inside
      exact ⟨trivial, below, by omega, fun _ => inside, knows₁, learned₁, chain₁⟩
    · rename_i beyond
      rw [← chain₁] at left ⊢
      refine wp_mono (ih knows₁ (by omega) (by omega))
        (fun found s' ⟨place, atMost, among, before, knows', learned', chain'⟩ =>
          ⟨place, atMost, among, before, knows', learned₁.trans learned', chain'⟩)
        (fun e s' ⟨unreachable, knows', learned', chain'⟩ =>
          ⟨unreachable.before learned₁.later, knows', learned₁.trans learned', chain'⟩)

/-- The offsets a follower yields are the backup's own, or it has no holes to close. -/
structure Restorable (cfg : ChainSourceConfig) (backup : List BackupObject) : Prop where
  valid : Backup cfg.reader cfg.chainStart backup
  preserved : cfg.mode = .preserve → cfg.chainStart = 0 ∧ NoHoles backup

/-- A backup that can be restored may be followed. -/
theorem Restorable.allowed (restorable : Restorable cfg backup) :
    cfg.mode = .renumber ∨ cfg.chainStart = 0 := by
  cases mode : cfg.mode with
  | renumber => exact .inl rfl
  | preserve => exact .inr (restorable.preserved mode).1

/-- The record the target holds at a place is found in the listed part of the backup. -/
theorem recordAt_spec (restorable : Restorable cfg backup) (knows : Knows cfg backup s)
    {position : Nat} (within : position < recordsBefore backup s.chain.length) :
    wp (recordAt position)
      (fun found s' => (∃ r, (backupRecords backup)[position]? = some r
          ∧ found = some { r with sourceOffset := position })
        ∧ Knows cfg backup s' ∧ Learned s s')
      (fun e s' => Unreachable s e ∧ Knows cfg backup s' ∧ Learned s s') s := by
  have valid := restorable.valid
  obtain ⟨i, o, listed, here, starts, ends⟩ := exists_object within
  simp only [recordAt, wp_bind, wp_get]
  cases mode : s.cfg.mode with
  | renumber =>
    have whole := @locate_spec _ cfg backup valid position s.chain.length 0 s knows (by omega)
      (Nat.zero_le _)
    simp only [wp_bind]
    refine wp_mono whole
      (fun found s₁ ⟨place, atMost, among, before, knows₁, learned₁, chain₁⟩ => ?_)
      (fun e s' ⟨unreachable, knows', learned', _⟩ => ⟨unreachable, knows', learned'⟩)
    obtain ⟨j, first⟩ := found
    simp only at place atMost among before ⊢
    subst place
    -- The search did not run to the end, since the position is before it.
    have inside : j < s.chain.length := by
      rcases Nat.lt_or_eq_of_le among with inside | same
      · exact inside
      · rw [same] at atMost
        omega
    obtain ⟨o', at_j⟩ : ∃ o', backup[j]? = some o' :=
      ⟨_, List.getElem?_eq_getElem (Nat.lt_of_lt_of_le inside knows.length_le)⟩
    rw [knows.getElem?, if_pos inside, at_j]
    simp only [Option.map_some, wp_bind, wp_pure]
    refine wp_mono (recordsOf_spec valid knows₁ at_j (chain₁ ▸ inside))
      (fun records s₂ ⟨read, knows₂, learned₂, _⟩ => ⟨?_, knows₂, learned₁.trans learned₂⟩)
      (fun e s' ⟨unreachable, knows', learned', _⟩ =>
        ⟨unreachable.before learned₁.later, knows', learned₁.trans learned'⟩)
    subst read
    have length := recordsBefore_succ at_j
    have upper := before inside
    have found := getElem?_backupRecords at_j (position - recordsBefore backup j) (by omega)
    rw [Nat.add_sub_cancel' atMost] at found
    obtain ⟨r, at_place⟩ : ∃ r, o'.records[position - recordsBefore backup j]? = some r :=
      ⟨_, List.getElem?_eq_getElem (by omega)⟩
    exact ⟨r, found.trans at_place, by rw [at_place]; rfl⟩
  | preserve =>
    rw [knows.settings] at mode
    obtain ⟨zero, holeFree⟩ := restorable.preserved mode
    rw [zero] at valid
    have place := holeFree.place valid here
    have listing : (o.object, i) ∈ s.chain.zipIdx := by
      rw [List.mk_mem_zipIdx_iff_getElem?, knows.getElem?, if_pos listed, here]
      rfl
    cases search : s.chain.zipIdx.find? (fun entry =>
        decide (entry.1.lo ≤ position ∧ position ≤ entry.1.hi)) with
    | none =>
      have outside := List.find?_eq_none.mp search _ listing
      simp only [decide_eq_true_eq] at outside
      omega
    | some entry =>
      obtain ⟨object, j⟩ := entry
      have mem := List.mem_of_find?_eq_some search
      have inRange := List.find?_some search
      simp only [decide_eq_true_eq] at inRange
      rw [List.mk_mem_zipIdx_iff_getElem?] at mem
      obtain ⟨o', at_j, rfl, inside⟩ := knows.object mem
      obtain ⟨lower, upper⟩ := holeFree.place valid at_j
      simp only [wp_bind, wp_pure]
      refine wp_mono (recordsOf_spec restorable.valid knows at_j inside)
        (fun records s₁ ⟨read, knows₁, learned₁, _⟩ => ⟨?_, knows₁, learned₁⟩)
        (fun e s' ⟨unreachable, knows', learned', _⟩ => ⟨unreachable, knows', learned'⟩)
      subst read
      have length := recordsBefore_succ at_j
      have offset := fun k below => getElem?_backupRecords at_j k below
      have found := offset (position - recordsBefore backup j) (by omega)
      rw [Nat.add_sub_cancel' (by omega)] at found
      obtain ⟨r, at_place⟩ : ∃ r, o'.records[position - recordsBefore backup j]? = some r :=
        ⟨_, List.getElem?_eq_getElem (by omega)⟩
      rw [at_place] at found
      have own := holeFree _ _ found
      refine ⟨r, found, ?_⟩
      -- The records before it in the object have the offsets before it.
      have first : o'.records.find? (fun r => decide (r.sourceOffset = position)) = some r := by
        obtain ⟨within', get_eq⟩ := List.getElem?_eq_some_iff.mp at_place
        rw [List.find?_eq_some_iff_getElem]
        refine ⟨by simpa using own, _, within', get_eq, fun k earlier => ?_⟩
        have at_k := offset k (by omega)
        rw [List.getElem?_eq_getElem (show k < o'.records.length by omega)] at at_k
        have := holeFree _ _ at_k
        simp only [Bool.not_eq_true', decide_eq_false_iff_not]
        omega
      rw [first, ← own]

/-- The target holds no record of the listed part of the backup after it. -/
theorem recordAt_beyond (restorable : Restorable cfg backup) (knows : Knows cfg backup s)
    {position : Nat} (beyond : recordsBefore backup s.chain.length ≤ position) :
    wp (recordAt position) (fun found s' => found = none ∧ Knows cfg backup s' ∧ Learned s s')
      (fun e s' => Unreachable s e ∧ Knows cfg backup s' ∧ Learned s s') s := by
  have valid := restorable.valid
  simp only [recordAt, wp_bind, wp_get]
  cases mode : s.cfg.mode with
  | renumber =>
    have whole := @locate_spec _ cfg backup valid position s.chain.length 0 s knows (by omega)
      (Nat.zero_le _)
    simp only [wp_bind]
    refine wp_mono whole
      (fun found s₁ ⟨_, _, among, before, knows₁, learned₁, _⟩ => ?_)
      (fun e s' ⟨unreachable, knows', learned', _⟩ => ⟨unreachable, knows', learned'⟩)
    obtain ⟨j, first⟩ := found
    simp only at among before ⊢
    -- The search runs past every listed object.
    have at_end : s.chain.length ≤ j := by
      by_contra inside
      have upper := before (by omega)
      have := @recordsBefore_mono backup (j + 1) s.chain.length (by omega)
      omega
    rw [List.getElem?_eq_none at_end]
    exact ⟨rfl, knows₁, learned₁⟩
  | preserve =>
    rw [knows.settings] at mode
    obtain ⟨zero, holeFree⟩ := restorable.preserved mode
    rw [zero] at valid
    -- Without holes the listed objects end where their records do.
    have outside : s.chain.zipIdx.find? (fun entry =>
        decide (entry.1.lo ≤ position ∧ position ≤ entry.1.hi)) = none := by
      rw [List.find?_eq_none]
      intro entry mem inRange
      obtain ⟨object, j⟩ := entry
      rw [List.mk_mem_zipIdx_iff_getElem?] at mem
      obtain ⟨o, at_j, rfl, inside⟩ := knows.object mem
      have place := holeFree.place valid at_j
      have := @recordsBefore_mono backup (j + 1) s.chain.length (by omega)
      simp only [decide_eq_true_eq] at inRange
      omega
    rw [outside]
    exact ⟨rfl, knows, .refl s⟩

/-- A record as the target gives it back: as it was produced, its timestamp unless restamped. -/
structure ReadBack (produced : FutureRecord) (last : Record) : Prop where
  key : last.key = produced.key
  value : last.value = produced.payload
  headers : last.headers = produced.headers.getD []
  timestamp : ∀ t, produced.timestamp = some t → last.timestampType = .createTime →
    last.timestampMs = some t

omit [EnvelopeLibraries] in
/-- A record that was produced with its own timestamp is known again when it is read back. -/
theorem sameRecord_readBack {config : KafkaSinkConfig} (stamped : config.timestampMode = .source)
    {ours last : Record} (back : ReadBack (config.futureRecord ours) last) :
    sameRecord ours last = true := by
  have headers : ours.headers = last.headers := by
    rw [back.headers]
    show ours.headers = (if ours.headers = [] then none else some ours.headers).getD []
    split
    · rename_i none_
      exact none_
    · rfl
  have time : ours.timestampMs.isSome ∧ last.timestampType = .createTime →
      ours.timestampMs = last.timestampMs := by
    rintro ⟨some_, created⟩
    obtain ⟨t, known⟩ := Option.isSome_iff_exists.mp some_
    have produced : (config.futureRecord ours).timestamp = some t := by
      simp only [KafkaSinkConfig.futureRecord, stamped]
      exact known
    rw [known, back.timestamp t produced created]
  unfold sameRecord
  rw [back.key, back.value]
  simp only [headers, decide_eq_true_eq]
  refine ⟨rfl, rfl, trivial, ?_⟩
  by_cases compared : ours.timestampMs.isSome ∧ last.timestampType = .createTime
  · exact .inr (time compared)
  · exact .inl compared

/-- A target that ends with the backup's record at that place may be resumed. -/
theorem checkResume_spec {config : KafkaSinkConfig} (restorable : Restorable cfg backup)
    (knows : Knows cfg backup s) (stamped : config.timestampMode = .source) {n : Nat}
    (within : n ≤ recordsBefore backup s.chain.length) {last : Record}
    (ends : ∀ position r, n = position + 1 → (backupRecords backup)[position]? = some r →
      ReadBack (config.futureRecord { r with sourceOffset := position }) last) :
    wp (checkResume n last) (fun _ s' => Knows cfg backup s' ∧ Learned s s')
      (fun e s' => Unreachable s e ∧ Knows cfg backup s' ∧ Learned s s') s := by
  cases n with
  | zero => exact ⟨knows, .refl s⟩
  | succ position =>
    unfold checkResume
    rw [if_neg (Nat.succ_ne_zero position)]
    simp only [Nat.add_sub_cancel, wp_bind]
    refine wp_mono (recordAt_spec restorable knows (by omega))
      (fun found s₁ ⟨⟨r, at_place, found_eq⟩, knows₁, learned₁⟩ => ?_) (fun e s' failed => failed)
    subst found_eq
    simp only [wp_ensure]
    rw [if_pos (sameRecord_readBack stamped (ends position r rfl at_place))]
    exact ⟨knows₁, learned₁⟩

end ChainSource

end MirrorV3
