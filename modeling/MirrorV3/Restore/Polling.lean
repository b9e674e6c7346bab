import MirrorV3.Restore.Yielding

/-! What one poll of a follower answers, and where a seek puts it. -/

namespace MirrorV3

open Effect

variable [EnvelopeLibraries]

namespace ChainSource

variable {cfg : ChainSourceConfig} {backup : List BackupObject} {s s' : ChainSource GrowingStore}
  {n : Nat}

omit [EnvelopeLibraries] in
/-- Taking the first buffered record is yielding the record at the follower's place. -/
theorem Placed.yield (placed : Placed cfg backup n s) (awake : s.idleUntil = false) {r : Record}
    {buffer : List Record} (buffered : s.buffer = r :: buffer) :
    (numbered 0 (backupRecords backup))[n]? = some r
      ∧ Placed cfg backup (n + 1) { s with buffer, position := s.position + 1 } := by
  have size : s.buffer.length = buffer.length + 1 := by rw [buffered, List.length_cons]
  -- Every buffered record is the one of the backup that many places further.
  have each : ∀ k, k < buffer.length + 1 → (r :: buffer)[k]?
      = ((backupRecords backup)[n + k]?).map ({ · with sourceOffset := n + k }) := by
    intro k below
    have whole := placed.buffered
    rw [size, buffered] at whole
    rw [whole, getElem?_numbered, List.getElem?_take_of_lt below, List.getElem?_drop]
  have reached := placed.reached
  rw [size] at reached
  refine ⟨?_, ⟨placed.follows.knows.congr rfl rfl rfl rfl rfl, placed.follows.begun⟩, ?_, placed.next,
    ?_, ?_, ?_, ?_, ?_⟩
  · have first := each 0 (Nat.succ_pos _)
    rw [getElem?_numbered, Nat.zero_add]
    exact first.symm
  · show s.position + 1 = n + 1
    rw [placed.position]
  · show recordsBefore backup s.nextObject ≤ n + 1 + buffer.length
    omega
  · show buffer = numbered (n + 1) (((backupRecords backup).drop (n + 1)).take buffer.length)
    apply List.ext_getElem?
    intro k
    rw [getElem?_numbered]
    by_cases below : k < buffer.length
    · have later := each (k + 1) (by omega)
      rw [List.getElem?_cons_succ] at later
      rw [later, List.getElem?_take_of_lt below, List.getElem?_drop, Nat.add_right_comm, Nat.add_assoc n]
    · rw [List.getElem?_eq_none (by omega), List.getElem?_eq_none]
      · rfl
      · rw [List.length_take]
        omega
  · intro more
    have more : recordsBefore backup s.nextObject < n + 1 + buffer.length := more
    have empty := (placed.inside (by omega)).1
    rw [buffered] at empty
    cases empty
  · intro renumber
    show s.skip = n + 1 + buffer.length - recordsBefore backup s.nextObject
    rw [placed.skip renumber]
    omega
  · intro idle
    have idle : s.idleUntil = true := idle
    rw [awake] at idle
    cases idle

omit [EnvelopeLibraries] in
/-- Which polls are dropped later has no part in where a follower is. -/
theorem Placed.dropped (placed : Placed cfg backup n s) (drops : Stream' Bool) :
    Placed cfg backup n { s with drops } :=
  placed.congr ⟨placed.follows.knows.congr rfl rfl rfl rfl rfl, placed.follows.begun⟩
    (Nat.le_refl _) rfl rfl rfl rfl placed.idle

omit [EnvelopeLibraries] in
/-- A follower that has yielded all that is listed may wait, and may stop waiting. -/
theorem Placed.wait (placed : Placed cfg backup n s) (idleUntil : Bool)
    (all : idleUntil = true → s.buffer = [] ∧ s.nextObject = s.chain.length) :
    Placed cfg backup n { s with idleUntil } :=
  placed.congr ⟨placed.follows.knows.congr rfl rfl rfl rfl rfl, placed.follows.begun⟩
    (Nat.le_refl _) rfl rfl rfl rfl all

/-- What a poll answers: the record of a place, or nothing once all that is listed was yielded. -/
inductive Yields (cfg : ChainSourceConfig) (backup : List BackupObject) (n : Nat) :
    Option Record → ChainSource GrowingStore → Prop where
  | record {r : Record} {s : ChainSource GrowingStore}
      (here : (numbered 0 (backupRecords backup))[n]? = some r)
      (next : Placed cfg backup (n + 1) s) : Yields cfg backup n (some r) s
  | nothing {s : ChainSource GrowingStore} (all : n = recordsBefore backup s.chain.length)
      (same : Placed cfg backup n s) : Yields cfg backup n none s

/-- How many rounds a poll needs at most: to list, to read an object and to yield a record. -/
def roundsLeft (s : ChainSource GrowingStore) : Nat :=
  if s.idleUntil ∨ s.buffer ≠ [] then 1 else if s.nextObject < s.chain.length then 2 else 3

section Rounds

variable {ε : Type} {poll : Polled ε GrowingStore} {stops : ε → Prop} {upto : Nat}
  {halts : Nat → ε → Prop}

/-- How a poll fails: early, with the follower where it was, or by a stop of its own. -/
def Polled.Fails (cfg : ChainSourceConfig) (backup : List BackupObject)
    (poll : Polled ε GrowingStore) (stops : ε → Prop) (upto : Nat) (halts : Nat → ε → Prop) (n : Nat)
    (s : ChainSource GrowingStore) (e : ε) (s' : ChainSource GrowingStore) : Prop :=
  (poll.EndsEarly stops s e ∧ Placed cfg backup n s' ∧ n + s'.buffer.length ≤ upto ∧ Onward s s')
    ∨ halts n e

/-- A round answers, or comes nearer to an answer. -/
theorem pollRound_spec (valid : Backup cfg.reader cfg.chainStart backup) (lawful : poll.Lawful stops)
    (fills : FillsUpTo cfg backup poll stops upto halts) (placed : Placed cfg backup n s)
    (ahead : n + s.buffer.length ≤ upto) :
    wp (pollRound poll)
      (fun answer s' => Onward s s' ∧ match answer with
        | some answer => Yields cfg backup n answer s'
          ∧ n + answer.toList.length + s'.buffer.length ≤ upto
        | none => Placed cfg backup n s' ∧ n + s'.buffer.length ≤ upto
          ∧ roundsLeft s' < roundsLeft s)
      (poll.Fails cfg backup stops upto halts n s) s := by
  have onward : ∀ drops, Onward s { s with drops } := fun _ => ⟨.refl _, Nat.le_refl _⟩
  -- A poll that is dropped at an await leaves the follower at its place.
  have stopped : ∀ e s₁, (stops e ∧ ∃ drops, s₁ = { s with drops }) →
      poll.Fails cfg backup stops upto halts n s e s₁ := by
    rintro e s₁ ⟨stops, drops, dropped⟩
    subst dropped
    exact .inl ⟨.inl stops, placed.dropped drops, ahead, onward drops⟩
  simp only [pollRound, wp_bind, wp_get, wp_ite]
  split
  · -- The wait is over, and everything listed before it was yielded.
    rename_i idle
    simp only [wp_modify, wp_pure]
    refine wp_mono (lawful.await_spec s) ?_ stopped
    rintro _ s₁ ⟨drops, dropped⟩
    subst dropped
    refine ⟨⟨.refl _, Nat.le_refl _⟩, .nothing (placed.all_of_idle idle) ?_, ahead⟩
    exact (placed.dropped drops).wait false (fun waiting => by cases waiting)
  · rename_i awake
    have awake : s.idleUntil = false := by simpa using awake
    cases buffered : s.buffer with
    | cons r buffer =>
      obtain ⟨here, next⟩ := placed.yield awake buffered
      simp only [wp_bind, wp_modify, wp_pure]
      refine ⟨⟨.refl _, Nat.le_refl _⟩, .record here next, ?_⟩
      rw [buffered, List.length_cons] at ahead
      show n + 1 + buffer.length ≤ upto
      omega
    | nil =>
      dsimp only
      cases here : s.chain[s.nextObject]? with
      | some object =>
        -- An object is read, and its records that were not yielded yet are buffered.
        obtain ⟨o, at_next, same, within⟩ := placed.follows.knows.object here
        subst same
        have left : roundsLeft s = 2 := by
          unfold roundsLeft
          rw [if_neg (by simp [awake, buffered]), if_pos within]
        simp only [wp_bind, wp_pure]
        refine wp_mono (fills n s o placed awake buffered at_next within
          (Nat.le_trans (Nat.le_add_right _ _) ahead))
          (fun _ s₁ ⟨placed₁, more, ahead₁, onward₁⟩ => ⟨onward₁, placed₁, ahead₁, ?_⟩)
          (fun _ _ ends => ends)
        have left₁ : roundsLeft s₁ = 1 := by
          unfold roundsLeft
          rw [if_pos (.inr more)]
        omega
      | none =>
        have at_end : s.nextObject = s.chain.length := by
          have := List.getElem?_eq_none_iff.mp here
          have := placed.next
          omega
        have left : roundsLeft s = 3 := by
          unfold roundsLeft
          rw [if_neg (by simp [awake, buffered]), if_neg (by omega)]
        simp only [Polled.ask, wp_bind, wp_focus]
        refine wp_mono (lawful.await_spec s) ?_ stopped
        rintro _ s₁ ⟨drops, dropped⟩
        subst dropped
        have placed₁ := placed.dropped drops
        refine wp_mono (listNew_spec valid placed₁.follows.knows) ?_ ?_
        · rintro grown s₂ ⟨knows₂, learned₂, _, _, _, grew⟩
          have stays := learned₂.stays
          have awake₂ : s₂.idleUntil = false := stays.idleUntil.trans awake
          have empty₂ : s₂.buffer = [] := stays.buffer.trans buffered
          have placed₂ := placed₁.learned awake (placed₁.follows.learned knows₂ learned₂) learned₂
          have next : s₂.nextObject = s.nextObject := stays.nextObject
          have ahead₂ : n + s₂.buffer.length ≤ upto := by
            rw [empty₂]
            rwa [buffered] at ahead
          have grew : grown = true ↔ s.chain.length < s₂.chain.length := grew
          have onward₂ : Onward s s₂ := ⟨learned₂.later, learned₂.chain⟩
          simp only [wp_ite, wp_bind, wp_modify, wp_pure]
          split
          · -- There are new objects, and the next round reads the first of them.
            rename_i more
            have longer := grew.mp more
            refine ⟨onward₂, placed₂, ahead₂, ?_⟩
            have left₂ : roundsLeft s₂ = 2 := by
              unfold roundsLeft
              rw [if_neg (by simp [awake₂, empty₂]), if_pos (by omega)]
            omega
          · -- There are none, and the next round waits.
            rename_i none_
            have same : s₂.chain.length = s.chain.length := by
              have := onward₂.chain
              have : ¬ s.chain.length < s₂.chain.length := fun more => none_ (grew.mpr more)
              omega
            refine ⟨⟨onward₂.later, onward₂.chain⟩,
              placed₂.wait true (fun _ => ⟨empty₂, by omega⟩), ahead₂, ?_⟩
            have left₂ : roundsLeft { s₂ with idleUntil := true } = 1 := by
              unfold roundsLeft
              rw [if_pos (.inl rfl)]
            omega
        · rintro e s₂ ⟨knows₂, learned₂, _, unreachable⟩
          refine .inl ⟨.inr ⟨e, rfl, unreachable⟩,
            placed₁.learned awake (placed₁.follows.learned knows₂ learned₂) learned₂, ?_,
            learned₂.later, learned₂.chain⟩
          have empty₂ : s₂.buffer = [] := learned₂.stays.buffer.trans buffered
          rw [empty₂]
          rwa [buffered] at ahead

/-- A poll answers in as many rounds as it needs, unless it fails. -/
theorem pollRounds_spec (valid : Backup cfg.reader cfg.chainStart backup) (lawful : poll.Lawful stops)
    (fills : FillsUpTo cfg backup poll stops upto halts) {rounds : Nat}
    {s : ChainSource GrowingStore} (placed : Placed cfg backup n s)
    (ahead : n + s.buffer.length ≤ upto) (enough : roundsLeft s ≤ rounds) :
    wp (pollRounds poll rounds)
      (fun answer s' => Onward s s' ∧ ∃ polled, answer = some polled ∧ Yields cfg backup n polled s'
        ∧ n + polled.toList.length + s'.buffer.length ≤ upto)
      (poll.Fails cfg backup stops upto halts n s) s := by
  induction rounds generalizing s with
  | zero =>
    -- At least one round is always left.
    have some_ : 0 < roundsLeft s := by
      unfold roundsLeft
      split <;> [skip; split] <;> omega
    omega
  | succ rounds ih =>
    simp only [pollRounds, wp_bind]
    refine wp_mono (pollRound_spec valid lawful fills placed ahead)
      (fun answer s₁ ⟨onward₁, rest⟩ => ?_) (fun _ _ ends => ends)
    cases answer with
    | some polled => exact ⟨onward₁, polled, rfl, rest⟩
    | none =>
      obtain ⟨placed₁, ahead₁, fewer⟩ := rest
      refine wp_mono (ih placed₁ ahead₁ (by omega))
        (fun answer s' ⟨onward', yields⟩ => ⟨onward₁.trans onward', yields⟩)
        (fun e s' fails => ?_)
      rcases fails with ⟨ends, placed', ahead', onward'⟩ | halted
      · refine .inl ⟨?_, placed', ahead', onward₁.trans onward'⟩
        rcases ends with stopped | ⟨reason, named, failed⟩
        · exact .inl stopped
        · exact .inr ⟨reason, named, failed.before onward₁.later⟩
      · exact .inr halted

omit [EnvelopeLibraries] in
/-- The rounds a poll is given are enough. -/
theorem roundsLeft_le (s : ChainSource GrowingStore) : roundsLeft s ≤ enough := by
  unfold roundsLeft enough
  split <;> [skip; split] <;> omega

end Rounds

/-- A poll yields the record of the follower's place, or says that there is none yet, or fails. -/
theorem pollOne_upTo {upto : Nat} {halts : Nat → SourceError → Prop}
    (valid : Backup cfg.reader cfg.chainStart backup)
    (fills : FillsUpTo cfg backup kept (fun _ => False) upto halts) (placed : Placed cfg backup n s)
    (ahead : n + s.buffer.length ≤ upto) :
    wp pollOne
      (fun answer s' => Yields cfg backup n answer s'
        ∧ n + answer.toList.length + s'.buffer.length ≤ upto ∧ Onward s s')
      (fun e s' => ((∃ reason, e = sourceError reason ∧ Unreachable s reason)
        ∧ Placed cfg backup n s' ∧ n + s'.buffer.length ≤ upto ∧ Onward s s') ∨ halts n e) s := by
  simp only [pollOne, wp_bind]
  refine wp_mono (pollRounds_spec valid kept_lawful fills placed ahead (roundsLeft_le s))
    (fun answer s' ⟨onward, polled, answered, yields, ahead'⟩ => ?_) (fun e s' fails => ?_)
  · subst answered
    exact ⟨yields, ahead', onward⟩
  · rcases fails with ⟨ends, rest⟩ | halted
    · rcases ends with stopped | failed
      · exact stopped.elim
      · exact .inl ⟨failed, rest⟩
    · exact .inr halted

/-- A poll that is dropped leaves the follower where it was. -/
theorem abandonPoll_upTo {upto : Nat} {halts : Nat → Option SourceError → Prop}
    (valid : Backup cfg.reader cfg.chainStart backup)
    (fills : FillsUpTo cfg backup ChainSource.dropped (· = none) upto halts)
    (unhalted : ∀ n, ¬ halts n none) (placed : Placed cfg backup n s)
    (ahead : n + s.buffer.length ≤ upto) :
    Placed cfg backup n (abandonPoll s) ∧ n + (abandonPoll s).buffer.length ≤ upto
      ∧ Onward s (abandonPoll s) := by
  have rounds := pollRounds_spec valid dropped_lawful fills placed ahead (roundsLeft_le s)
  unfold abandonPoll
  cases outcome : pollRounds ChainSource.dropped enough s with
  | ok polled s' => exact ⟨placed, ahead, .refl s⟩
  | error e s' =>
    cases e with
    | none =>
      -- A poll that is dropped has not come to a stop of its own.
      rcases wp_of_error rounds outcome with ⟨-, placed', ahead', onward⟩ | halted
      · exact ⟨placed', ahead', onward⟩
      · exact absurd halted (unhalted n)
    | some e => exact ⟨placed, ahead, .refl s⟩

/-- Of a backup that can be restored, a poll fails only for want of its store. -/
theorem pollOne_spec (restorable : Restorable cfg backup) (placed : Placed cfg backup n s) :
    wp pollOne (fun answer s' => Yields cfg backup n answer s' ∧ Onward s s')
      (fun e s' => (∃ reason, e = sourceError reason ∧ Unreachable s reason)
        ∧ Placed cfg backup n s' ∧ Onward s s') s := by
  have ahead := Nat.le_trans placed.within recordsBefore_le
  refine wp_mono (pollOne_upTo restorable.valid (fill_spec restorable kept_lawful) placed ahead)
    (fun answer s' ⟨yields, _, onward⟩ => ⟨yields, onward⟩) (fun e s' fails => ?_)
  rcases fails with ⟨failed, placed', -, onward⟩ | halted
  · exact ⟨failed, placed', onward⟩
  · exact halted.elim

/-- Of a backup that can be restored, a dropped poll leaves the follower where it was. -/
theorem abandonPoll_spec (restorable : Restorable cfg backup) (placed : Placed cfg backup n s) :
    Placed cfg backup n (abandonPoll s) ∧ Onward s (abandonPoll s) := by
  have ahead := Nat.le_trans placed.within recordsBefore_le
  obtain ⟨placed', -, onward⟩ := abandonPoll_upTo restorable.valid
    (fill_spec restorable dropped_lawful) (fun _ never => never) placed ahead
  exact ⟨placed', onward⟩

end ChainSource

end MirrorV3
