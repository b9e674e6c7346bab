import MirrorV3.Restore.Polling

/-! Whatever a follower is asked, and however that ends, it stays a follower of its backup. -/

namespace MirrorV3

open Effect

variable [EnvelopeLibraries]

namespace ChainSource

variable {cfg : ChainSourceConfig} {backup : List BackupObject} {s s' : ChainSource GrowingStore}

omit [EnvelopeLibraries] in
/-- What a seek makes of a follower before it looks for the object to read first. -/
theorem Follows.reset (follows : Follows cfg backup s) (position : Nat) :
    Follows cfg backup { s with
      pending := none, buffer := [], skip := 0, idleUntil := false, position } := by
  refine ⟨follows.knows.congr rfl rfl rfl rfl rfl, ?_⟩
  intro object begun
  cases begun

omit [EnvelopeLibraries] in
/-- Only what a follower knows and which object it reads make it one of a backup. -/
theorem Follows.congr (follows : Follows cfg backup s) (settings : s'.cfg = s.cfg)
    (store : s'.store = s.store) (chain : s'.chain = s.chain) (counts : s'.counts = s.counts)
    (lastRead : s'.lastRead = s.lastRead) (next : s'.nextObject = s.nextObject)
    (pending : s'.pending = s.pending) : Follows cfg backup s' := by
  refine ⟨follows.knows.congr settings store chain counts lastRead, ?_⟩
  rw [pending, chain, next]
  exact follows.begun

omit [EnvelopeLibraries] in
/-- Up to a hole, records are buffered and nothing else is done. -/
theorem preserveRecords_buffers (object : ChainObject) (records : List Record) (expected : Nat)
    (s : ChainSource GrowingStore) :
    wp (preserveRecords object expected records) (fun _ s' => ∃ buffer, s' = { s with buffer })
      (fun _ s' => ∃ buffer, s' = { s with buffer }) s := by
  induction records generalizing expected s with
  | nil => exact ⟨s.buffer, rfl⟩
  | cons r records ih =>
    unfold preserveRecords
    split
    · exact ih expected s
    · simp only [wp_bind, wp_ensure, wp_modify]
      split
      · refine wp_mono (ih (expected + 1) _) ?_ ?_
        · rintro _ s' ⟨buffer, more⟩
          exact ⟨buffer, more⟩
        · rintro _ s' ⟨buffer, more⟩
          exact ⟨buffer, more⟩
      · exact ⟨s.buffer, rfl⟩

section Rounds

variable {ε : Type} {poll : Polled ε GrowingStore} {stops : ε → Prop}

/-- A round of a poll from wherever a follower stands leaves it one of its backup. -/
theorem pollRound_follows (valid : Backup cfg.reader cfg.chainStart backup)
    (lawful : poll.Lawful stops) (follows : Follows cfg backup s) :
    wp (pollRound poll) (fun _ s' => Follows cfg backup s' ∧ Onward s s')
      (fun _ s' => Follows cfg backup s' ∧ Onward s s') s := by
  have dropped : ∀ drops, Follows cfg backup { s with drops } := fun drops =>
    follows.congr rfl rfl rfl rfl rfl rfl rfl
  have stopped : ∀ e s₁, (stops e ∧ ∃ drops, s₁ = { s with drops }) →
      Follows cfg backup s₁ ∧ Onward s s₁ := by
    rintro e s₁ ⟨_, drops, same⟩
    subst same
    exact ⟨dropped drops, .refl _, Nat.le_refl _⟩
  simp only [pollRound, wp_bind, wp_get, wp_ite]
  split
  · simp only [wp_modify, wp_pure]
    refine wp_mono (lawful.await_spec s) ?_ stopped
    rintro _ s₁ ⟨drops, same⟩
    subst same
    exact ⟨follows.congr rfl rfl rfl rfl rfl rfl rfl, .refl _, Nat.le_refl _⟩
  · cases s.buffer with
    | cons r buffer => exact ⟨follows.congr rfl rfl rfl rfl rfl rfl rfl, .refl _, Nat.le_refl _⟩
    | nil =>
      dsimp only
      cases here : s.chain[s.nextObject]? with
      | some object =>
        obtain ⟨o, at_next, same, within⟩ := follows.knows.object here
        subst same
        simp only [wp_bind, wp_pure]
        refine fill_wp valid lawful follows at_next within ?_ ?_
        · -- Records are buffered, and the object is done with unless there is a hole in it.
          intro s₁ follows₁ learned₁ _
          have unread : s₁.pending = none := learned₁.stays.pending
          have onward₁ : Onward s s₁ := ⟨learned₁.later, learned₁.chain⟩
          cases s₁.cfg.mode with
          | preserve =>
            refine wp_mono (preserveRecords_buffers o.object o.records s₁.position s₁) ?_ ?_
            · rintro _ s₂ ⟨buffer, same⟩
              subst same
              refine ⟨⟨follows₁.knows.congr rfl rfl rfl rfl rfl, ?_⟩, onward₁.later, onward₁.chain⟩
              intro object begun
              have begun : s₁.pending = some object := begun
              rw [unread] at begun
              cases begun
            · rintro _ s₂ ⟨buffer, same⟩
              subst same
              exact ⟨follows₁.congr rfl rfl rfl rfl rfl rfl rfl, onward₁.later, onward₁.chain⟩
          | renumber =>
            refine ⟨⟨follows₁.knows.congr rfl rfl rfl rfl rfl, ?_⟩, onward₁.later, onward₁.chain⟩
            intro object begun
            have begun : s₁.pending = some object := begun
            rw [unread] at begun
            cases begun
        · intro e s₁ _ follows₁ learned₁
          exact ⟨follows₁, learned₁.later, learned₁.chain⟩
      | none =>
        simp only [Polled.ask, wp_bind, wp_focus, wp_ite, wp_modify, wp_pure]
        refine wp_mono (lawful.await_spec s) ?_ stopped
        rintro _ s₁ ⟨drops, same⟩
        subst same
        refine wp_mono (listNew_spec valid (dropped drops).knows) ?_ ?_
        · rintro grown s₂ ⟨knows₂, learned₂, _⟩
          have follows₂ := (dropped drops).learned knows₂ learned₂
          split
          · exact ⟨follows₂, learned₂.later, learned₂.chain⟩
          · exact ⟨follows₂.congr rfl rfl rfl rfl rfl rfl rfl, learned₂.later, learned₂.chain⟩
        · rintro e s₂ ⟨knows₂, learned₂, _⟩
          exact ⟨(dropped drops).learned knows₂ learned₂, learned₂.later, learned₂.chain⟩

/-- And so do all the rounds of a poll. -/
theorem pollRounds_follows (valid : Backup cfg.reader cfg.chainStart backup)
    (lawful : poll.Lawful stops) (rounds : Nat) {s : ChainSource GrowingStore}
    (follows : Follows cfg backup s) :
    wp (pollRounds poll rounds) (fun _ s' => Follows cfg backup s' ∧ Onward s s')
      (fun _ s' => Follows cfg backup s' ∧ Onward s s') s := by
  induction rounds generalizing s with
  | zero => exact ⟨follows, .refl s⟩
  | succ rounds ih =>
    simp only [pollRounds, wp_bind]
    refine wp_mono (pollRound_follows valid lawful follows) ?_ (fun _ _ ends => ends)
    rintro answer s₁ ⟨follows₁, onward₁⟩
    cases answer with
    | some polled => exact ⟨follows₁, onward₁⟩
    | none =>
      have rest := ih follows₁
      refine wp_mono rest ?_ ?_
      · rintro _ s' ⟨follows', onward'⟩
        exact ⟨follows', onward₁.trans onward'⟩
      · rintro _ s' ⟨follows', onward'⟩
        exact ⟨follows', onward₁.trans onward'⟩

end Rounds

/-- A dropped poll leaves a follower one of its backup, wherever it stands. -/
theorem abandonPoll_follows (valid : Backup cfg.reader cfg.chainStart backup)
    (follows : Follows cfg backup s) :
    Follows cfg backup (abandonPoll s) ∧ Onward s (abandonPoll s) := by
  have rounds := pollRounds_follows valid dropped_lawful enough follows
  unfold abandonPoll
  cases outcome : pollRounds ChainSource.dropped enough s with
  | ok polled s' => exact ⟨follows, .refl s⟩
  | error e s' =>
    have ends := wp_of_error rounds outcome
    cases e with
    | none => exact ends
    | some e => exact ⟨follows, .refl s⟩

/-- A poll that is kept leaves a follower one of its backup, wherever it stands. -/
theorem pollOne_follows (valid : Backup cfg.reader cfg.chainStart backup)
    (follows : Follows cfg backup s) :
    wp pollOne (fun _ s' => Follows cfg backup s' ∧ Onward s s')
      (fun _ s' => Follows cfg backup s' ∧ Onward s s') s := by
  simp only [pollOne, wp_bind]
  refine wp_mono (pollRounds_follows valid kept_lawful enough follows) (fun answer s' ends => ?_)
    (fun _ _ ends => ends)
  cases answer with
  | some polled => exact ends
  | none => exact ends

/-- Whatever position is looked up, asking leaves the follower one of its backup. -/
theorem recordAt_follows (valid : Backup cfg.reader cfg.chainStart backup)
    (follows : Follows cfg backup s) (position : Nat) :
    wp (recordAt position) (fun _ s' => Follows cfg backup s' ∧ Onward s s')
      (fun _ s' => Follows cfg backup s' ∧ Onward s s') s := by
  have knows := follows.knows
  -- Objects are only read and counted.
  have learns : ∀ s', Knows cfg backup s' → Learned s s' → Follows cfg backup s' ∧ Onward s s' :=
    fun s' knows' learned => ⟨follows.learned knows' learned, learned.onward⟩
  simp only [recordAt, wp_bind, wp_get]
  cases s.cfg.mode with
  | preserve =>
    cases search : s.chain.zipIdx.find? (fun entry =>
        decide (entry.1.lo ≤ position ∧ position ≤ entry.1.hi)) with
    | none => exact ⟨follows, .refl s⟩
    | some entry =>
      obtain ⟨object, i⟩ := entry
      have mem := List.mem_of_find?_eq_some search
      rw [List.mk_mem_zipIdx_iff_getElem?] at mem
      obtain ⟨o, here, rfl, within⟩ := knows.object mem
      simp only [wp_bind, wp_pure]
      refine wp_mono (recordsOf_spec valid knows here within) ?_ ?_
      · rintro _ s' ⟨_, knows', learned, _⟩
        exact learns s' knows' learned
      · rintro _ s' ⟨_, knows', learned, _⟩
        exact learns s' knows' learned
  | renumber =>
    simp only [wp_bind]
    refine wp_mono (@locate_spec _ cfg backup valid position s.chain.length 0 s knows (by omega)
      (Nat.zero_le _)) ?_
      ?_
    · rintro found s₁ ⟨_, _, _, _, knows₁, learned₁, chain₁⟩
      obtain ⟨i, first⟩ := found
      dsimp only
      cases at_i : s.chain[i]? with
      | none => exact learns s₁ knows₁ learned₁
      | some object =>
        obtain ⟨o, here, rfl, within⟩ := knows.object at_i
        simp only [wp_bind, wp_pure]
        refine wp_mono (recordsOf_spec valid knows₁ here (chain₁ ▸ within)) ?_ ?_
        · rintro _ s' ⟨_, knows', learned, _⟩
          exact learns s' knows' (learned₁.trans learned)
        · rintro _ s' ⟨_, knows', learned, _⟩
          exact learns s' knows' (learned₁.trans learned)
    · rintro _ s' ⟨_, knows', learned, _⟩
      exact learns s' knows' learned

/-- Whatever a target is found to end with, asking leaves the follower one of its backup. -/
theorem checkResume_follows (valid : Backup cfg.reader cfg.chainStart backup)
    (follows : Follows cfg backup s) (highWatermark : Nat) (last : Record) :
    wp (checkResume highWatermark last) (fun _ s' => Follows cfg backup s' ∧ Onward s s')
      (fun _ s' => Follows cfg backup s' ∧ Onward s s') s := by
  unfold checkResume
  split
  · exact ⟨follows, .refl s⟩
  · simp only [wp_bind]
    refine wp_mono (recordAt_follows valid follows (highWatermark - 1))
      (fun found s' ends => ?_) (fun _ _ ends => ends)
    cases found with
    | none => exact ends
    | some ours =>
      simp only [wp_ensure]
      split
      · exact ends
      · exact ends

/-- Wherever a seek is to, it leaves the follower one of its backup. -/
theorem seek_follows (valid : Backup cfg.reader cfg.chainStart backup)
    (follows : Follows cfg backup s) (position : Nat) :
    wp (seek position) (fun _ s' => Follows cfg backup s' ∧ Onward s s')
      (fun _ s' => Follows cfg backup s' ∧ Onward s s') s := by
  simp only [seek, asSource, wp_bind, wp_focus, wp_get, wp_ensure, wp_modify]
  refine wp_mono (listNew_spec valid follows.knows) (fun _ s₁ ⟨knows₁, learned₁, _⟩ => ?_)
    (fun e s₁ ⟨knows₁, learned₁, _⟩ => ⟨follows.learned knows₁ learned₁, learned₁.onward⟩)
  have follows₁ := follows.learned knows₁ learned₁
  split
  · have reset := follows₁.reset position
    -- Which object is read next is of no matter as long as none is being read.
    have stands : ∀ s₂, Knows cfg backup s₂ → s₂.pending = none → Follows cfg backup s₂ := by
      intro s₂ knows₂ unread
      refine ⟨knows₂, fun object begun => ?_⟩
      rw [unread] at begun
      cases begun
    cases s₁.cfg.mode with
    | preserve =>
      exact ⟨stands _ (reset.knows.congr rfl rfl rfl rfl rfl) rfl, learned₁.later, learned₁.chain⟩
    | renumber =>
      simp only [wp_bind, wp_focus, wp_ite, wp_modify, wp_ensure]
      refine wp_mono (locate_spec valid position s₁.chain.length (i := 0) reset.knows
        (Nat.zero_add _) (Nat.zero_le _))
        (fun found s₂ ⟨_, _, _, _, knows₂, learned₂, _⟩ => ?_)
        (fun e s₂ ⟨_, knows₂, learned₂, _⟩ => ⟨reset.learned knows₂ learned₂,
          learned₁.later.trans learned₂.later, Nat.le_trans learned₁.chain learned₂.chain⟩)
      have unread : s₂.pending = none := learned₂.stays.pending
      have onward₂ : Onward s s₂ :=
        ⟨learned₁.later.trans learned₂.later, Nat.le_trans learned₁.chain learned₂.chain⟩
      split
      · exact ⟨stands _ (knows₂.congr rfl rfl rfl rfl rfl) unread, onward₂.later, onward₂.chain⟩
      · split
        · exact ⟨stands _ (knows₂.congr rfl rfl rfl rfl rfl) unread, onward₂.later, onward₂.chain⟩
        · exact ⟨stands _ knows₂ unread, onward₂⟩
  · exact ⟨follows₁, learned₁.onward⟩

/-- Listing a backup and validating its chain makes a follower of it. -/
theorem openChain_spec (valid : Backup cfg.reader cfg.chainStart backup)
    (allowed : cfg.mode = .renumber ∨ cfg.chainStart = 0) {store : GrowingStore}
    (written : store.written = backup.map (·.blob)) (drops : Stream' Bool) :
    wp (openChain cfg drops)
      (fun s _ => Follows cfg backup s ∧ s.chain.length = min s.store.shown backup.length
        ∧ GrowingStore.Later store s.store)
      (fun e store' => ((∃ message, e = .store message) ∧ ¬ store.Quiet)
        ∧ GrowingStore.Later store store') store := by
  generalize fresh : (⟨store, cfg, [], [], 0, 0, none, [], 0, false, none, drops⟩ :
    ChainSource GrowingStore) = source
  have knows : Knows cfg backup source := by
    subst fresh
    refine ⟨rfl, written, Nat.zero_le _, rfl, Nat.le_refl _, rfl, ?_⟩
    intro i records last
    cases last
  have follows : Follows cfg backup source := by
    refine ⟨knows, ?_⟩
    intro object begun
    subst fresh
    cases begun
  have here : source.store = store := by
    subst fresh
    rfl
  -- Opening is a first listing of a source that has none.
  have opens : (openChain cfg drops : Program RestoreError GrowingStore _) store
      = match listNew source with
        | .ok _ s => .ok s s.store
        | .error e s => .error e s.store := by
    unfold openChain
    rw [ensure, if_pos allowed]
    cases outcome : listNew source <;>
      simp only [bind, EStateM.bind, pure, EStateM.pure, get_apply, fresh, outcome]
  have listed := listNew_spec valid knows
  unfold wp
  rw [opens]
  cases outcome : listNew source with
  | ok grown s =>
    obtain ⟨knows', learned, _, _, length, _⟩ := wp_of_ok listed outcome
    exact ⟨follows.learned knows' learned, length, here ▸ learned.later⟩
  | error e s =>
    obtain ⟨_, learned, _, unreachable⟩ := wp_of_error listed outcome
    exact ⟨⟨unreachable.1, here ▸ unreachable.2⟩, here ▸ learned.later⟩

section Calls

variable {σ : Type} [BlobStore σ]

/-- What a source may be asked to do. -/
inductive ChainCall where
  | recordAt (position : Nat)
  | checkResume (highWatermark : Nat) (last : Record)
  | seek (position : Nat)
  | pollOne
  /-- A poll that is dropped at an await. -/
  | abandonPoll
  | highWatermark

/-- What a source is after it was asked to do something, whether that succeeded or failed. -/
def call (s : ChainSource σ) : ChainCall → ChainSource σ
  | .recordAt position => after (recordAt position) s
  | .checkResume highWatermark last => after (checkResume highWatermark last) s
  | .seek position => after (seek position) s
  | .pollOne => after pollOne s
  | .abandonPoll => abandonPoll s
  | .highWatermark => after (Source.highWatermark : Program SourceError (ChainSource σ) Nat) s

/-- What a source is after it was asked to do one thing after the other. -/
def afterAsked (calls : List ChainCall) (s : ChainSource σ) : ChainSource σ := calls.foldl call s

end Calls

/-- Whatever a source over a backup is asked, it stays one of that backup. -/
theorem call_follows (valid : Backup cfg.reader cfg.chainStart backup)
    (follows : Follows cfg backup s) (c : ChainCall) :
    Follows cfg backup (call s c) ∧ Onward s (call s c) := by
  -- However a call ends, what it leaves is a later moment of the same source.
  cases c with
  | recordAt position =>
    exact after_of_wp (fun s' => Follows cfg backup s' ∧ Onward s s')
      (recordAt_follows valid follows position)
  | checkResume highWatermark last =>
    exact after_of_wp (fun s' => Follows cfg backup s' ∧ Onward s s')
      (checkResume_follows valid follows highWatermark last)
  | seek position =>
    exact after_of_wp (fun s' => Follows cfg backup s' ∧ Onward s s')
      (seek_follows valid follows position)
  | pollOne =>
    exact after_of_wp (fun s' => Follows cfg backup s' ∧ Onward s s') (pollOne_follows valid follows)
  | abandonPoll => exact abandonPoll_follows valid follows
  | highWatermark =>
    apply after_of_wp (fun s' => Follows cfg backup s' ∧ Onward s s')
    show wp (asSource listNew >>= _) _ _ s
    simp only [asSource, wp_bind, wp_focus, wp_get, wp_pure]
    exact wp_mono (listNew_spec valid follows.knows)
      (fun _ _ ⟨knows, learned, _⟩ => ⟨follows.learned knows learned, learned.onward⟩)
      (fun _ _ ⟨knows, learned, _⟩ => ⟨follows.learned knows learned, learned.onward⟩)

/-- So does it over any calls. -/
theorem afterAsked_follows (valid : Backup cfg.reader cfg.chainStart backup)
    (calls : List ChainCall) {s : ChainSource GrowingStore} (follows : Follows cfg backup s) :
    Follows cfg backup (afterAsked calls s) ∧ Onward s (afterAsked calls s) := by
  induction calls generalizing s with
  | nil => exact ⟨follows, .refl s⟩
  | cons c calls ih =>
    obtain ⟨follows₁, onward₁⟩ := call_follows valid follows c
    obtain ⟨follows', onward'⟩ := ih follows₁
    exact ⟨follows', onward₁.trans onward'⟩

end ChainSource

end MirrorV3
