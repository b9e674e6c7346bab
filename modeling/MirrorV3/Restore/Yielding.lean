import MirrorV3.Restore.Following

/-! What a follower yields: the backup's records one after the other, however polls are dropped. -/

namespace MirrorV3

open Effect

variable [EnvelopeLibraries]

namespace ChainSource

variable {cfg : ChainSourceConfig} {backup : List BackupObject} {s s' : ChainSource GrowingStore}
  {n : Nat}

/-- A later moment of a follower: its store is later, and it has listed no fewer objects. -/
structure Onward (s s' : ChainSource GrowingStore) : Prop where
  later : GrowingStore.Later s.store s'.store
  chain : s.chain.length ≤ s'.chain.length

omit [EnvelopeLibraries] in
/-- Every moment is a later moment of itself. -/
theorem Onward.refl (s : ChainSource GrowingStore) : Onward s s := ⟨.refl _, Nat.le_refl _⟩

omit [EnvelopeLibraries] in
/-- A moment later than a later one is later. -/
theorem Onward.trans {s'' : ChainSource GrowingStore} (one : Onward s s') (other : Onward s' s'') :
    Onward s s'' :=
  ⟨one.later.trans other.later, Nat.le_trans one.chain other.chain⟩

omit [EnvelopeLibraries] in
/-- Learning something is a step onward. -/
theorem Learned.onward (learned : Learned s s') : Onward s s' := ⟨learned.later, learned.chain⟩

omit [EnvelopeLibraries] in
/-- What was read before has no part in what is learned. -/
theorem Learned.forget {pending : Option ChainObject} {lastRead : Option (Nat × List Record)}
    (learned : Learned { s with pending, lastRead } s') : Learned { s with pending } s' := by
  have stays := learned.stays
  exact ⟨learned.later, learned.chain, learned.counts, stays.position, stays.nextObject,
    stays.buffer, stays.skip, stays.pending, stays.idleUntil⟩

/-- A follower of a backup: the read it has begun, if any, is of the object it is at. -/
structure Follows (cfg : ChainSourceConfig) (backup : List BackupObject)
    (s : ChainSource GrowingStore) : Prop where
  knows : Knows cfg backup s
  begun : ∀ object, s.pending = some object → s.chain[s.nextObject]? = some object

omit [EnvelopeLibraries] in
/-- What is learned does not change which object a follower is at. -/
theorem Follows.learned (follows : Follows cfg backup s) (knows : Knows cfg backup s')
    (learned : Learned s s') : Follows cfg backup s' := by
  refine ⟨knows, ?_⟩
  intro object begun
  rw [learned.stays.pending] at begun
  obtain ⟨o, here, same, listed⟩ := follows.knows.object (follows.begun object begun)
  rw [learned.stays.nextObject, knows.getElem?, if_pos (Nat.lt_of_lt_of_le listed learned.chain),
    here, ← same]
  rfl

/--
A follower that yields the record at a place next.

What it has buffered are the records from there on, and what it reads next follows them, except
that an object may be read whose first records were yielded before.
-/
structure Placed (cfg : ChainSourceConfig) (backup : List BackupObject) (n : Nat)
    (s : ChainSource GrowingStore) : Prop where
  follows : Follows cfg backup s
  position : s.position = n
  next : s.nextObject ≤ s.chain.length
  reached : recordsBefore backup s.nextObject ≤ n + s.buffer.length
  buffered : s.buffer = numbered n (((backupRecords backup).drop n).take s.buffer.length)
  inside : recordsBefore backup s.nextObject < n + s.buffer.length →
    s.buffer = [] ∧ s.nextObject < s.chain.length ∧ n < recordsBefore backup (s.nextObject + 1)
  skip : cfg.mode = .renumber → s.skip = n + s.buffer.length - recordsBefore backup s.nextObject
  idle : s.idleUntil = true → s.buffer = [] ∧ s.nextObject = s.chain.length

omit [EnvelopeLibraries] in
/-- What a follower learns, and which read or wait it has begun, does not move it. -/
theorem Placed.congr (placed : Placed cfg backup n s) (follows : Follows cfg backup s')
    (chain : s.chain.length ≤ s'.chain.length) (position : s'.position = s.position)
    (next : s'.nextObject = s.nextObject) (buffer : s'.buffer = s.buffer)
    (skip : s'.skip = s.skip)
    (idle : s'.idleUntil = true → s.buffer = [] ∧ s.nextObject = s'.chain.length) :
    Placed cfg backup n s' := by
  refine ⟨follows, position.trans placed.position, ?_, ?_, ?_, ?_, ?_, ?_⟩
  · rw [next]
    exact Nat.le_trans placed.next chain
  · rw [next, buffer]
    exact placed.reached
  · rw [buffer]
    exact placed.buffered
  · rw [next, buffer]
    intro more
    obtain ⟨empty, listed, upper⟩ := placed.inside more
    exact ⟨empty, Nat.lt_of_lt_of_le listed chain, upper⟩
  · rw [next, buffer, skip]
    exact placed.skip
  · rw [next, buffer]
    exact idle

omit [EnvelopeLibraries] in
/-- A follower that is not waiting stays where it is while it reads or gives a read up. -/
theorem Placed.learned (placed : Placed cfg backup n s) (awake : s.idleUntil = false)
    (follows : Follows cfg backup s') {pending : Option ChainObject}
    (learned : Learned { s with pending } s') : Placed cfg backup n s' := by
  have stays := learned.stays
  refine placed.congr follows learned.chain stays.position stays.nextObject stays.buffer
    stays.skip ?_
  intro idle
  rw [stays.idleUntil] at idle
  rw [awake] at idle
  cases idle

omit [EnvelopeLibraries] in
/-- Between its polls a follower has yielded all that is listed once it waits. -/
theorem Placed.all_of_idle (placed : Placed cfg backup n s) (idle : s.idleUntil = true) :
    n = recordsBefore backup s.chain.length := by
  obtain ⟨empty, at_end⟩ := placed.idle idle
  have reached := placed.reached
  rw [empty, List.length_nil, at_end] at reached
  rcases Nat.lt_or_eq_of_le reached with more | same
  · have := (placed.inside (by rw [empty, at_end]; exact more)).2.1
    omega
  · exact same.symm

/-- How the await of a poll ends: the poll goes on, or it is stopped there. -/
structure Polled.Lawful {ε : Type} (poll : Polled ε GrowingStore) (stops : ε → Prop) : Prop where
  await_spec : ∀ s, wp poll.await (fun _ s' => ∃ drops, s' = { s with drops })
    (fun e s' => stops e ∧ ∃ drops, s' = { s with drops }) s

omit [EnvelopeLibraries] in
/-- A poll that is kept is never stopped. -/
theorem kept_lawful : (kept : Polled SourceError GrowingStore).Lawful fun _ => False :=
  ⟨fun s => ⟨s.drops, rfl⟩⟩

omit [EnvelopeLibraries] in
/-- A poll that is dropped is stopped at an await, or goes on past it. -/
theorem dropped_lawful : (dropped : Polled (Option SourceError) GrowingStore).Lawful (· = none) := by
  refine ⟨fun s => ?_⟩
  simp only [dropped, wp_bind, wp_get, wp_set]
  cases s.drops.head with
  | true => exact ⟨rfl, _, rfl⟩
  | false => exact ⟨_, rfl⟩

section Polls

variable {ε : Type} {poll : Polled ε GrowingStore} {stops : ε → Prop}

/-- How a poll of a well-written backup ends early: it is stopped, or a request fails. -/
def Polled.EndsEarly (poll : Polled ε GrowingStore) (stops : ε → Prop)
    (s : ChainSource GrowingStore) (e : ε) : Prop :=
  stops e ∨ ∃ reason, e = poll.report reason ∧ Unreachable s reason

/-- The read of an object is finished, or left to be finished by the next poll. -/
theorem finishRead_spec (valid : Backup cfg.reader cfg.chainStart backup)
    (lawful : poll.Lawful stops) (follows : Follows cfg backup s) {o : BackupObject}
    (here : backup[s.nextObject]? = some o) (within : s.nextObject < s.chain.length) :
    wp (finishRead poll o.object)
      (fun records s' => records = o.records ∧ Follows cfg backup s'
        ∧ Learned { s with pending := none } s' ∧ s'.chain = s.chain)
      (fun e s' => poll.EndsEarly stops s e ∧ Follows cfg backup s'
        ∧ Learned { s with pending := s'.pending } s') s := by
  have object : s.chain[s.nextObject]? = some o.object := by
    rw [follows.knows.getElem?, if_pos within, here]
    rfl
  -- A read that an earlier poll began is of this object too.
  have reading : s.pending.getD o.object = o.object := by
    cases begun : s.pending with
    | none => rfl
    | some other =>
      have same := follows.begun other begun
      rw [object] at same
      exact (Option.some.inj same).symm
  simp only [finishRead, Polled.ask, wp_bind, wp_get, wp_modify, wp_attempt, wp_focus, wp_ofExcept,
    reading]
  refine wp_mono (lawful.await_spec _) ?_ ?_
  · rintro _ s₁ ⟨drops, dropped⟩
    subst dropped
    have knows₁ : Knows cfg backup { s with pending := some o.object, drops } :=
      follows.knows.congr rfl rfl rfl rfl rfl
    -- Whether the read succeeds or fails, nothing is being read any more.
    have unread : ∀ s₂, Knows cfg backup s₂ → Learned { s with pending := some o.object, drops } s₂ →
        Follows cfg backup { s₂ with pending := none }
          ∧ Learned { s with pending := none } { s₂ with pending := none } := by
      intro s₂ knows₂ learned
      have stays := learned.stays
      refine ⟨⟨knows₂.congr rfl rfl rfl rfl rfl, ?_⟩, learned.later, learned.chain, learned.counts,
        stays.position, stays.nextObject, stays.buffer, stays.skip, rfl, stays.idleUntil⟩
      intro object' begun
      cases begun
    refine wp_mono (readObject_spec valid knows₁ here within)
      (fun records s₂ ⟨read, knows₂, learned, chain, _⟩ => ?_)
      (fun e s₂ ⟨unreachable, knows₂, learned, _⟩ => ?_)
    · obtain ⟨follows₂, learned₂⟩ := unread s₂ knows₂ learned
      exact ⟨read, follows₂, learned₂, chain⟩
    · exact ⟨.inr ⟨e, rfl, unreachable⟩, unread s₂ knows₂ learned⟩
  · rintro e s₁ ⟨stopped, drops, dropped⟩
    subst dropped
    refine ⟨.inl stopped, ⟨follows.knows.congr rfl rfl rfl rfl rfl, ?_⟩, ?_⟩
    · intro object' begun
      cases begun
      exact object
    · exact ⟨.refl _, Nat.le_refl _, Nat.le_refl _, rfl, rfl, rfl, rfl, rfl, rfl⟩

omit [EnvelopeLibraries] in
/-- Records without holes are buffered from the expected one on. -/
theorem preserveRecords_spec (object : ChainObject) (records : List Record) {first expected : Nat}
    {s : ChainSource GrowingStore} (atMost : first ≤ expected)
    (placed : ∀ (k : Nat) (r : Record), records[k]? = some r → r.sourceOffset = first + k) :
    wp (preserveRecords object expected records)
      (fun _ s' => s' = { s with buffer := s.buffer ++ records.drop (expected - first) })
      (fun _ _ => False) s := by
  induction records generalizing first expected s with
  | nil =>
    rw [List.drop_nil, List.append_nil]
    exact rfl
  | cons r records ih =>
    have here : r.sourceOffset = first := placed 0 r rfl
    have later : ∀ (k : Nat) (r : Record), records[k]? = some r →
        r.sourceOffset = first + 1 + k := by
      intro k r at_k
      have := placed (k + 1) r at_k
      omega
    unfold preserveRecords
    rw [here]
    rcases Nat.lt_or_eq_of_le atMost with below | same
    · -- A record below the expected one is in the target already.
      rw [if_pos below]
      refine wp_mono (ih (by omega : first + 1 ≤ expected) later) (fun _ s' left => ?_)
        (fun _ _ failed => failed)
      rw [left, show expected - first = (expected - (first + 1)) + 1 by omega,
        List.drop_succ_cons]
    · subst same
      rw [if_neg (Nat.lt_irrefl _)]
      simp only [wp_bind, wp_ensure, wp_modify, if_true]
      refine wp_mono (ih (Nat.le_refl _) later) (fun _ s' left => ?_) (fun _ _ failed => failed)
      rw [left, Nat.sub_self, Nat.sub_self]
      simp

omit [EnvelopeLibraries] in
/-- What an object adds to a buffer that is empty: its records that were not yielded yet. -/
theorem Placed.buffer_object (placed : Placed cfg backup n s) (empty : s.buffer = [])
    (awake : s.idleUntil = false) (unread : s.pending = none) {o : BackupObject}
    (here : backup[s.nextObject]? = some o) (within : s.nextObject < s.chain.length)
    (some_ : 0 < o.records.length) (skip : Nat) (skipped : cfg.mode = .renumber → skip = 0) :
    Placed cfg backup n { s with
        buffer := numbered n (o.records.drop (n - recordsBefore backup s.nextObject))
        skip
        nextObject := s.nextObject + 1 }
      ∧ numbered n (o.records.drop (n - recordsBefore backup s.nextObject)) ≠ [] := by
  have reached := placed.reached
  have inside := placed.inside
  rw [empty, List.length_nil, Nat.add_zero] at reached inside
  have length := recordsBefore_succ here
  have fits : n - recordsBefore backup s.nextObject < o.records.length := by
    rcases Nat.lt_or_eq_of_le reached with more | same
    · have := (inside more).2.2
      omega
    · omega
  generalize yielded : n - recordsBefore backup s.nextObject = d at fits ⊢
  have count : (numbered n (o.records.drop d)).length = o.records.length - d := by simp
  have ends : n + (o.records.length - d) = recordsBefore backup (s.nextObject + 1) := by omega
  refine ⟨⟨⟨placed.follows.knows.congr rfl rfl rfl rfl rfl, ?_⟩, placed.position, within, ?_, ?_,
    ?_, ?_, ?_⟩, ?_⟩
  · intro object begun
    have begun : s.pending = some object := begun
    rw [unread] at begun
    cases begun
  · show recordsBefore backup (s.nextObject + 1) ≤ n + (numbered n (o.records.drop d)).length
    omega
  · show numbered n (o.records.drop d)
      = numbered n (((backupRecords backup).drop n).take (numbered n (o.records.drop d)).length)
    have split : (backupRecords backup).drop n
        = o.records.drop d ++ backupRecords (backup.drop (s.nextObject + 1)) := by
      have at_n : n = recordsBefore backup s.nextObject + d := by omega
      rw [at_n, ← List.drop_drop, drop_backupRecords here,
        List.drop_append_of_le_length (Nat.le_of_lt fits)]
    rw [count, split, List.take_append_of_le_length (by simp), List.take_of_length_le (by simp)]
  · intro more
    have more : recordsBefore backup (s.nextObject + 1)
      < n + (numbered n (o.records.drop d)).length := more
    omega
  · intro renumber
    show skip = n + (numbered n (o.records.drop d)).length
      - recordsBefore backup (s.nextObject + 1)
    rw [skipped renumber]
    omega
  · intro idle
    have idle : s.idleUntil = true := idle
    rw [awake] at idle
    cases idle
  · intro none_
    rw [none_] at count
    simp only [List.length_nil] at count
    omega

omit [EnvelopeLibraries] in
/-- Counting an object once it is read keeps the counts those of the first objects. -/
theorem Knows.count_next (knows : Knows cfg backup s) {i : Nat} {o : BackupObject}
    (here : backup[i]? = some o) (within : i < s.chain.length) :
    Knows cfg backup { s with
      counts := if s.counts.length = i then s.counts ++ [o.records.length] else s.counts } := by
  split
  · rename_i next
    subst next
    obtain ⟨inside, at_i⟩ := List.getElem?_eq_some_iff.mp here
    refine ⟨knows.settings, knows.written, knows.shown, knows.chain, ?_, ?_, knows.lastRead⟩
    · show (s.counts ++ [o.records.length]).length ≤ s.chain.length
      rw [List.length_append, List.length_singleton]
      omega
    · show s.counts ++ [o.records.length]
        = (backup.take (s.counts ++ [o.records.length]).length).map (·.records.length)
      rw [List.length_append, List.length_singleton, List.take_succ_eq_append_getElem inside,
        List.map_append, ← knows.counts, at_i, List.map_singleton]
  · exact knows.congr rfl rfl rfl rfl rfl

/-- Records that stand at their own offsets are buffered as they are yielded. -/
theorem preserve_buffers (valid : Backup cfg.reader cfg.chainStart backup)
    (preserve : cfg.mode = .preserve) (placed : Placed cfg backup n s) (awake : s.idleUntil = false)
    (empty : s.buffer = []) (unread : s.pending = none) {o : BackupObject}
    (here : backup[s.nextObject]? = some o) (within : s.nextObject < s.chain.length)
    (own : ∀ (k : Nat) (r : Record), o.records[k]? = some r →
      r.sourceOffset = recordsBefore backup s.nextObject + k) :
    wp (preserveRecords o.object s.position o.records)
      (fun _ s' => Placed cfg backup n { s' with nextObject := s'.nextObject + 1 }
        ∧ s'.buffer ≠ [] ∧ s'.nextObject = s.nextObject ∧ Onward s s')
      (fun _ _ => False) s := by
  have some_ : 0 < o.records.length := by
    obtain ⟨k, _, length, _⟩ := valid.last_record here
    omega
  have at_n := placed.position
  subst at_n
  have reached := placed.reached
  rw [empty, List.length_nil, Nat.add_zero] at reached
  refine wp_mono (preserveRecords_spec o.object o.records reached own) (fun _ s' left => ?_)
    (fun _ _ failed => failed)
  -- Numbering records that are at their places changes nothing.
  have same : numbered s.position (o.records.drop (s.position - recordsBefore backup s.nextObject))
      = o.records.drop (s.position - recordsBefore backup s.nextObject) := by
    apply numbered_eq
    intro k r at_k
    rw [List.getElem?_drop] at at_k
    have := own _ r at_k
    omega
  obtain ⟨further, more⟩ := placed.buffer_object empty awake unread here within some_
    s.skip (fun renumber => by rw [preserve] at renumber; cases renumber)
  rw [same] at further more
  subst left
  rw [empty]
  exact ⟨further, more, rfl, .refl _, Nat.le_refl _⟩

/-- In either mode the records of an object are buffered as they are yielded. -/
theorem buffer_spec (restorable : Restorable cfg backup) (placed : Placed cfg backup n s)
    (awake : s.idleUntil = false) (empty : s.buffer = []) (unread : s.pending = none)
    {o : BackupObject} (here : backup[s.nextObject]? = some o)
    (within : s.nextObject < s.chain.length) :
    wp (match s.cfg.mode with
        | .preserve => preserveRecords o.object s.position o.records
        | .renumber => renumberRecords o.records)
      (fun _ s' => Placed cfg backup n { s' with nextObject := s'.nextObject + 1 }
        ∧ s'.buffer ≠ [] ∧ s'.nextObject = s.nextObject ∧ Onward s s')
      (fun _ _ => False) s := by
  rw [placed.follows.knows.settings]
  cases mode : cfg.mode with
  | preserve =>
    obtain ⟨zero, holeFree⟩ := restorable.preserved mode
    refine preserve_buffers restorable.valid mode placed awake empty unread here within ?_
    intro k r at_k
    apply holeFree
    rw [getElem?_backupRecords here k (List.getElem?_eq_some_iff.mp at_k).1, at_k]
  | renumber =>
    have some_ : 0 < o.records.length := by
      obtain ⟨k, _, length, _⟩ := restorable.valid.last_record here
      omega
    have at_n := placed.position
    subst at_n
    have skip := placed.skip mode
    rw [empty, List.length_nil, Nat.add_zero] at skip
    obtain ⟨further, more⟩ := placed.buffer_object empty awake unread here within some_
      0 (fun _ => rfl)
    simp only [renumberRecords, wp_modify, empty, List.nil_append, skip]
    exact ⟨further, more, trivial, .refl _, Nat.le_refl _⟩

/-- To fill the buffer is to know the records of the next object and then to buffer them. -/
theorem fill_wp (valid : Backup cfg.reader cfg.chainStart backup) (lawful : poll.Lawful stops)
    (follows : Follows cfg backup s) {o : BackupObject} (here : backup[s.nextObject]? = some o)
    (within : s.nextObject < s.chain.length) {post : Unit → ChainSource GrowingStore → Prop}
    {fail : ε → ChainSource GrowingStore → Prop}
    (rest : ∀ s₁, Follows cfg backup s₁ → Learned { s with pending := none } s₁ →
      s₁.chain = s.chain →
      wp (match s₁.cfg.mode with
          | .preserve => preserveRecords o.object s₁.position o.records
          | .renumber => renumberRecords o.records)
        (fun _ s' => post () { s' with nextObject := s'.nextObject + 1 })
        (fun e s' => fail (poll.report e) s') s₁)
    (early : ∀ e s₁, poll.EndsEarly stops s e → Follows cfg backup s₁ →
      Learned { s with pending := s₁.pending } s₁ → fail e s₁) :
    wp (fill poll o.object) post fail s := by
  -- Once the records are known the object is counted, and the rest is done at once.
  have counted : ∀ s₁, Follows cfg backup s₁ → Learned { s with pending := none } s₁ →
      s₁.chain = s.chain →
      wp (do
          modify fun s₂ => { s₂ with
            counts := if s₂.counts.length = s.nextObject then s₂.counts ++ [o.records.length]
              else s₂.counts }
          poll.ask (match s.cfg.mode with
            | .preserve => preserveRecords o.object s.position o.records
            | .renumber => renumberRecords o.records)
          modify fun s₂ => { s₂ with nextObject := s₂.nextObject + 1 }) post fail s₁ := by
    intro s₁ follows₁ learned₁ chain₁
    have settings : s.cfg = s₁.cfg :=
      follows.knows.settings.trans follows₁.knows.settings.symm
    have position : s₁.position = s.position := learned₁.stays.position
    rw [settings, ← position]
    simp only [Polled.ask, wp_bind, wp_modify, wp_focus]
    refine rest _ ⟨follows₁.knows.count_next here (chain₁ ▸ within), follows₁.begun⟩ ?_ chain₁
    refine ⟨learned₁.later, learned₁.chain, Nat.le_trans learned₁.counts ?_, ?_⟩
    · show s₁.counts.length ≤ (if s₁.counts.length = s.nextObject
        then s₁.counts ++ [o.records.length] else s₁.counts).length
      split
      · rw [List.length_append]
        exact Nat.le_add_right _ _
      · exact Nat.le_refl _
    · have stays := learned₁.stays
      exact ⟨stays.position, stays.nextObject, stays.buffer, stays.skip, stays.pending,
        stays.idleUntil⟩
  simp only [fill, wp_bind, wp_get, wp_modify]
  have knows := follows.knows
  have forgot : Follows cfg backup { s with lastRead := none } := by
    refine ⟨⟨knows.settings, knows.written, knows.shown, knows.chain, knows.counted, knows.counts,
      ?_⟩, follows.begun⟩
    intro _ _ last
    cases last
  cases known : s.lastRead.filter
      (fun read => decide (read.1 = s.nextObject ∧ s.pending = none)) with
  | some read =>
    -- What was read to count or to look up is not read again.
    obtain ⟨j, records⟩ := read
    obtain ⟨last, same⟩ := Option.filter_eq_some_iff.mp known
    simp only [decide_eq_true_eq] at same
    obtain ⟨same, unread⟩ := same
    subst same
    obtain ⟨o', at_next, holds⟩ := knows.lastRead _ _ last
    rw [here] at at_next
    cases at_next
    subst holds
    exact counted _ forgot ⟨.refl _, Nat.le_refl _, Nat.le_refl _, rfl, rfl, rfl, rfl, unread, rfl⟩
      rfl
  | none =>
    rw [wp_bind]
    refine wp_mono (finishRead_spec valid lawful forgot here within) ?_ ?_
    · rintro records s₁ ⟨read, follows₁, learned₁, chain₁⟩
      subst read
      exact counted s₁ follows₁ (learned₁.forget (s := s)) chain₁
    · rintro e s₁ ⟨ends, follows₁, learned₁⟩
      exact early e s₁ ends follows₁ (learned₁.forget (s := s))

/--
What filling the buffer may do to a follower that yields no record from the place `upto` on.

It is as far as it was and has buffered none of those records, or it comes to a stop of its own.
-/
def FillsUpTo (cfg : ChainSourceConfig) (backup : List BackupObject)
    (poll : Polled ε GrowingStore) (stops : ε → Prop) (upto : Nat) (halts : Nat → ε → Prop) : Prop :=
  ∀ n s o, Placed cfg backup n s → s.idleUntil = false → s.buffer = [] →
    backup[s.nextObject]? = some o → s.nextObject < s.chain.length → n ≤ upto →
    wp (fill poll o.object)
      (fun _ s' => Placed cfg backup n s' ∧ s'.buffer ≠ [] ∧ n + s'.buffer.length ≤ upto ∧ Onward s s')
      (fun e s' => (poll.EndsEarly stops s e ∧ Placed cfg backup n s' ∧ n + s'.buffer.length ≤ upto
        ∧ Onward s s') ∨ halts n e) s

/-- Filling the buffer is knowing the records of the next object and buffering them. -/
theorem fillsUpTo (valid : Backup cfg.reader cfg.chainStart backup) (lawful : poll.Lawful stops)
    {upto : Nat} {halts : Nat → ε → Prop}
    (buffers : ∀ n s o, Placed cfg backup n s → s.idleUntil = false → s.buffer = [] →
      s.pending = none → backup[s.nextObject]? = some o → s.nextObject < s.chain.length →
      n ≤ upto →
      wp (match s.cfg.mode with
          | .preserve => preserveRecords o.object s.position o.records
          | .renumber => renumberRecords o.records)
        (fun _ s' => Placed cfg backup n { s' with nextObject := s'.nextObject + 1 }
          ∧ s'.buffer ≠ [] ∧ n + s'.buffer.length ≤ upto ∧ Onward s s')
        (fun e _ => halts n (poll.report e)) s) :
    FillsUpTo cfg backup poll stops upto halts := by
  intro n s o placed awake empty here within ahead
  refine fill_wp valid lawful placed.follows here within ?_ ?_
  · intro s₁ follows₁ learned₁ chain₁
    have placed₁ := placed.learned awake follows₁ learned₁
    have stays := learned₁.stays
    have next : s₁.nextObject = s.nextObject := stays.nextObject
    rw [← next] at here within
    rw [← chain₁] at within
    refine wp_mono (buffers n s₁ o placed₁ (stays.idleUntil.trans awake)
      (stays.buffer.trans empty) stays.pending here within ahead)
      (fun _ s' ⟨further, more, ahead', onward⟩ => ?_) (fun _ _ halted => .inr halted)
    exact ⟨further, more, ahead', learned₁.later.trans onward.later,
      Nat.le_trans learned₁.chain onward.chain⟩
  · intro e s₁ ends follows₁ learned₁
    refine .inl ⟨ends, placed.learned awake follows₁ learned₁, ?_, learned₁.later, learned₁.chain⟩
    have unread : s₁.buffer = [] := learned₁.stays.buffer.trans empty
    rw [unread]
    exact ahead

omit [EnvelopeLibraries] in
/-- A follower is at most at the end of what it has listed. -/
theorem Placed.within (placed : Placed cfg backup n s) :
    n + s.buffer.length ≤ recordsBefore backup s.chain.length := by
  rcases Nat.lt_or_eq_of_le placed.reached with more | same
  · obtain ⟨empty, listed, upper⟩ := placed.inside more
    have := @recordsBefore_mono backup (s.nextObject + 1) s.chain.length listed
    rw [empty, List.length_nil]
    omega
  · rw [← same]
    exact recordsBefore_mono placed.next

omit [EnvelopeLibraries] in
/-- What a follower has buffered ends where an object does. -/
theorem Placed.buffer_ends (placed : Placed cfg backup n s) (some_ : s.buffer ≠ []) :
    n + s.buffer.length = recordsBefore backup s.nextObject := by
  rcases Nat.lt_or_eq_of_le placed.reached with more | same
  · exact absurd (placed.inside more).1 some_
  · exact same.symm

/-- Of a backup that can be restored, the whole can be read into the buffer, object by object. -/
theorem fill_spec (restorable : Restorable cfg backup) (lawful : poll.Lawful stops) :
    FillsUpTo cfg backup poll stops (backupRecords backup).length fun _ _ => False := by
  refine fillsUpTo restorable.valid lawful ?_
  intro n s o placed awake empty unread here within ahead
  refine wp_mono (buffer_spec restorable placed awake empty unread here within)
    (fun _ s' ⟨further, more, next, onward⟩ => ⟨further, more, ?_, onward⟩)
    (fun _ _ failed => failed)
  exact Nat.le_trans further.within recordsBefore_le

end Polls

end ChainSource

end MirrorV3
