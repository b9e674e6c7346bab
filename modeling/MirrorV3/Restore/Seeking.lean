import MirrorV3.Envelope.Sample
import MirrorV3.Restore.Calls

/-! A seek agrees with looking records up, whatever a follower was asked before. -/

namespace MirrorV3

open Effect

section Sources

variable [EnvelopeLibraries]

namespace ChainSource

variable {cfg : ChainSourceConfig} {backup : List BackupObject} {s s' : ChainSource GrowingStore}

section Seek

omit [EnvelopeLibraries] in
/-- Without objects the chain that is listed ends at the start. -/
theorem positionsEnd_nil (nothing : s.chain = []) : s.positionsEnd = 0 := by
  rw [positionsEnd, nothing]
  rfl

/-- The chain that is listed ends one past its last object. -/
theorem positionsEnd_last (valid : Backup cfg.reader cfg.chainStart backup)
    (knows : Knows cfg backup s) (some_ : s.chain ≠ []) :
    ∃ o, backup[s.chain.length - 1]? = some o
      ∧ s.positionsEnd + cfg.chainStart = o.object.hi + 1 := by
  obtain ⟨object, last⟩ := Option.isSome_iff_exists.mp (List.getLast?_isSome.mpr some_)
  have at_end := last
  rw [List.getLast?_eq_getElem?] at at_end
  obtain ⟨o, here, rfl, _⟩ := knows.object at_end
  obtain ⟨start, written⟩ := valid.written (List.mem_of_getElem? here)
  have range := written.range
  have inRange := written.numbered
  refine ⟨o, here, ?_⟩
  rw [positionsEnd, last, Option.map_some, Option.getD_some, knows.settings, addOne_eq (by omega),
    subtract_eq (by omega) (by omega)]
  omega

/-- The chain that is listed has a position for each of its records, at least. -/
theorem recordsBefore_le_positionsEnd (valid : Backup cfg.reader cfg.chainStart backup)
    (knows : Knows cfg backup s) : recordsBefore backup s.chain.length ≤ s.positionsEnd := by
  by_cases nothing : s.chain = []
  · rw [nothing]
    exact Nat.zero_le _
  · obtain ⟨o, here, ends⟩ := positionsEnd_last valid knows nothing
    have some_ := List.length_pos_iff.mpr nothing
    have listed : Backup cfg.reader cfg.chainStart (backup.take s.chain.length) := by
      rw [← List.take_append_drop s.chain.length backup] at valid
      exact valid.split.1
    have room := listed.records_le
    have last : (backup.take s.chain.length).getLast? = some o := by
      rw [List.getLast?_eq_getElem?, List.length_take, Nat.min_eq_left knows.length_le,
        List.getElem?_take_of_lt (by omega), here]
    rw [length_backupRecords_take, backupEnd_eq, last, Option.map_some, Option.getD_some] at room
    omega

/-- Without holes the chain that is listed ends where its records do. -/
theorem positionsEnd_eq (restorable : Restorable cfg backup) (preserve : cfg.mode = .preserve)
    (knows : Knows cfg backup s) : s.positionsEnd = recordsBefore backup s.chain.length := by
  obtain ⟨zero, holeFree⟩ := restorable.preserved preserve
  by_cases nothing : s.chain = []
  · rw [positionsEnd_nil nothing, nothing]
    rfl
  · obtain ⟨o, here, reached⟩ := positionsEnd_last restorable.valid knows nothing
    have valid := restorable.valid
    rw [zero] at valid reached
    have some_ := List.length_pos_iff.mpr nothing
    have count : s.chain.length - 1 + 1 = s.chain.length := by omega
    rw [Nat.add_zero, (holeFree.place valid here).2, count] at reached
    exact reached

/-- Up to a position, an object ends where its records do, or the position is among them. -/
def Reaches (backup : List BackupObject) (position : Nat) : Prop :=
  ∀ i o, backup[i]? = some o → recordsBefore backup i ≤ position →
    o.object.hi + 1 = recordsBefore backup (i + 1)
      ∨ position ≤ o.object.hi ∧ position < recordsBefore backup (i + 1)

/-- With preserve, a seek starts with the first object that reaches the position. -/
theorem findIdx_placed (valid : Backup cfg.reader cfg.chainStart backup)
    (zero : cfg.chainStart = 0) (preserve : cfg.mode = .preserve) (follows : Follows cfg backup s)
    {position : Nat} (reaches : Reaches backup position) (within : position ≤ s.positionsEnd) :
    Placed cfg backup position { s with
      pending := none, buffer := [], skip := 0, idleUntil := false, position
      nextObject := s.chain.findIdx (position ≤ ·.hi) } := by
  have knows := follows.knows
  have next := @List.findIdx_le_length _ (fun o : ChainObject => decide (position ≤ o.hi)) s.chain
  -- Every object before the first that reaches the position ends below it, and with its records.
  have before : ∀ i, i ≤ s.chain.findIdx (position ≤ ·.hi) → recordsBefore backup i ≤ position := by
    intro i
    induction i with
    | zero => exact fun _ => Nat.zero_le _
    | succ i ih =>
      intro earlier
      obtain ⟨o, here, same, _⟩ :=
        knows.object (List.getElem?_eq_getElem (Nat.lt_of_lt_of_le earlier next))
      have below := List.not_of_lt_findIdx (Nat.lt_of_succ_le earlier)
      simp only [decide_eq_false_iff_not, ← same] at below
      have place := reaches i o here (ih (by omega))
      omega
  have reached := before _ (Nat.le_refl _)
  refine ⟨⟨knows.congr rfl rfl rfl rfl rfl, ?_⟩, rfl, next, reached, rfl, ?_, ?_, ?_⟩
  · intro object begun
    cases begun
  · intro more
    have more : recordsBefore backup (s.chain.findIdx (position ≤ ·.hi)) < position := more
    have listed : s.chain.findIdx (position ≤ ·.hi) < s.chain.length := by
      by_contra beyond
      have at_end : s.chain.findIdx (position ≤ ·.hi) = s.chain.length := by omega
      rw [at_end] at more before
      -- Otherwise the position is at most where the last object ends, and so do the records.
      by_cases nothing : s.chain = []
      · rw [positionsEnd_nil nothing] at within
        omega
      · have some_ := List.length_pos_iff.mpr nothing
        obtain ⟨o, here, ends⟩ := positionsEnd_last valid knows nothing
        have count : s.chain.length - 1 + 1 = s.chain.length := by omega
        have place := reaches _ o here (before _ (Nat.sub_le _ _))
        rw [count] at place
        omega
    refine ⟨rfl, listed, ?_⟩
    have reaching := List.findIdx_getElem (w := listed)
    obtain ⟨o, here, same, _⟩ := knows.object (List.getElem?_eq_getElem listed)
    have place := reaches _ o here reached
    simp only [decide_eq_true_eq, ← same] at reaching
    show position < recordsBefore backup (s.chain.findIdx (position ≤ ·.hi) + 1)
    omega
  · intro renumber
    rw [preserve] at renumber
    cases renumber
  · intro waiting
    cases waiting

omit [EnvelopeLibraries] in
/-- With renumber, a seek starts with the object that holds the position, or behind the last one. -/
theorem located_placed {i position : Nat} (follows : Follows cfg backup s)
    (placed : s.position = position) (empty : s.buffer = [])
    (unskipped : s.skip = 0) (awake : s.idleUntil = false) (unread : s.pending = none)
    (among : i ≤ s.chain.length) (below : recordsBefore backup i ≤ position)
    (inside : i < s.chain.length → position < recordsBefore backup (i + 1))
    (ends : s.chain.length ≤ i → position ≤ recordsBefore backup i) :
    Placed cfg backup position { s with
      skip := if i < s.chain.length then position - recordsBefore backup i else s.skip
      nextObject := i } := by
  refine ⟨⟨follows.knows.congr rfl rfl rfl rfl rfl, ?_⟩, placed, among, ?_, ?_, ?_, ?_, ?_⟩
  · intro object begun
    have begun : s.pending = some object := begun
    rw [unread] at begun
    cases begun
  · show recordsBefore backup i ≤ position + s.buffer.length
    omega
  · show s.buffer = numbered position (((backupRecords backup).drop position).take s.buffer.length)
    rw [empty]
    rfl
  · intro more
    have more : recordsBefore backup i < position + s.buffer.length := more
    rw [empty, List.length_nil] at more
    have listed : i < s.chain.length := by
      by_contra beyond
      have := ends (by omega)
      omega
    exact ⟨empty, listed, inside listed⟩
  · intro _
    show (if i < s.chain.length then position - recordsBefore backup i else s.skip)
      = position + s.buffer.length - recordsBefore backup i
    rw [empty, unskipped, List.length_nil]
    split
    · omega
    · -- Behind the last object nothing is left to skip.
      have := ends (by omega)
      omega
  · intro waiting
    have waiting : s.idleUntil = true := waiting
    rw [awake] at waiting
    cases waiting

/-- A seek puts the follower at a position of the backup, and refuses every one after its end. -/
theorem seek_spec (restorable : Restorable cfg backup) (follows : Follows cfg backup s)
    (position : Nat) :
    wp (seek position) (fun _ s' => Placed cfg backup position s' ∧ Onward s s')
      (fun e s' => Follows cfg backup s' ∧ Onward s s'
        ∧ ((∃ reason, e = sourceError reason ∧ Unreachable s reason)
          ∨ (∃ message, e = .inconsistent message)
            ∧ recordsBefore backup s'.chain.length < position)) s := by
  simp only [seek, asSource, wp_bind, wp_focus, wp_get, wp_ensure, wp_modify]
  refine wp_mono (listNew_spec restorable.valid follows.knows) ?_ ?_
  · rintro _ s₁ ⟨knows₁, learned₁, _⟩
    have follows₁ := follows.learned knows₁ learned₁
    have mode_eq : s₁.cfg.mode = cfg.mode := by rw [knows₁.settings]
    split
    · rename_i allowed
      have reset := follows₁.reset position
      cases mode : s₁.cfg.mode with
      | preserve =>
        have preserve : cfg.mode = .preserve := mode_eq.symm.trans mode
        have atMost : position ≤ s₁.positionsEnd := by
          rcases allowed with renumber | atMost
          · rw [mode] at renumber
            cases renumber
          · exact atMost
        obtain ⟨zero, holeFree⟩ := restorable.preserved preserve
        have reaches : Reaches backup position := by
          intro i o here _
          have valid := restorable.valid
          rw [zero] at valid
          exact .inl (holeFree.place valid here).2
        exact ⟨findIdx_placed restorable.valid zero preserve follows₁ reaches atMost, learned₁.later,
          learned₁.chain⟩
      | renumber =>
        simp only [wp_bind, wp_focus, wp_ite, wp_modify, wp_ensure]
        refine wp_mono (locate_spec restorable.valid position s₁.chain.length (i := 0) reset.knows
          (Nat.zero_add _) (Nat.zero_le _))
          ?_
          ?_
        · rintro found s₂ ⟨place, below, among, inside, knows₂, learned₂, chain₂⟩
          obtain ⟨i, first⟩ := found
          simp only at place below among inside ⊢
          subst place
          have chain₂ : s₂.chain = s₁.chain := chain₂
          have follows₂ : Follows cfg backup s₂ := reset.learned knows₂ learned₂
          have onward₂ : Onward s s₂ :=
            ⟨learned₁.later.trans learned₂.later, Nat.le_trans learned₁.chain learned₂.chain⟩
          have stays := learned₂.stays
          have among : i ≤ s₁.chain.length := among
          have inside : i < s₁.chain.length → position < recordsBefore backup (i + 1) := inside
          have position₂ : s₂.position = position := stays.position
          show if i < s₁.chain.length then _ else _
          rw [← chain₂] at among inside ⊢
          -- Where the follower stands now depends only on what the search found.
          have stands := located_placed follows₂ position₂ stays.buffer stays.skip stays.idleUntil
            stays.pending among below inside
          split
          · rename_i listed
            rw [if_pos listed] at stands
            exact ⟨stands (fun beyond => by omega), onward₂.later, onward₂.chain⟩
          · rename_i beyond
            rw [if_neg beyond] at stands
            split
            · rename_i atMost
              exact ⟨stands (fun _ => atMost), onward₂.later, onward₂.chain⟩
            · rename_i further
              have at_end : i = s₂.chain.length := by omega
              refine ⟨follows₂, onward₂, .inr ⟨⟨_, rfl⟩, ?_⟩⟩
              rw [← at_end]
              omega
        · rintro e s₂ ⟨unreachable, knows₂, learned₂, _⟩
          exact ⟨reset.learned knows₂ learned₂,
            ⟨learned₁.later.trans learned₂.later, Nat.le_trans learned₁.chain learned₂.chain⟩,
            .inl ⟨e, rfl, unreachable.before learned₁.later⟩⟩
    · -- Without holes the end of the positions is that of the records.
      rename_i refused
      have preserve : cfg.mode = .preserve := by
        cases mode : cfg.mode with
        | preserve => rfl
        | renumber => exact absurd (.inl (mode_eq.trans mode)) refused
      rw [positionsEnd_eq restorable preserve knows₁] at refused
      refine ⟨follows₁, learned₁.onward, .inr ⟨⟨_, rfl⟩, ?_⟩⟩
      by_contra within
      exact refused (.inr (by omega))
  · rintro e s₁ ⟨knows₁, learned₁, _, unreachable⟩
    exact ⟨follows.learned knows₁ learned₁, learned₁.onward, .inl ⟨e, rfl, unreachable⟩⟩

end Seek

section Listed

/-- Of a backup that is listed whole, the record of every position is found, and of no other. -/
theorem recordAt_listed (restorable : Restorable cfg backup) (follows : Follows cfg backup s)
    (whole : s.chain.length = backup.length) (position : Nat) :
    wp (recordAt position)
      (fun found s' => found = (numbered 0 (backupRecords backup))[position]?
        ∧ Follows cfg backup s' ∧ Onward s s')
      (fun e s' => Unreachable s e ∧ Follows cfg backup s' ∧ Onward s s') s := by
  have count : recordsBefore backup s.chain.length = (backupRecords backup).length := by
    rw [whole, recordsBefore_length]
  have learns : ∀ s', Knows cfg backup s' → Learned s s' → Follows cfg backup s' ∧ Onward s s' :=
    fun s' knows learned => ⟨follows.learned knows learned, learned.onward⟩
  by_cases within : position < recordsBefore backup s.chain.length
  · refine wp_mono (recordAt_spec restorable follows.knows within)
      (fun found s' ⟨⟨r, here, same⟩, knows, learned⟩ => ⟨?_, learns s' knows learned⟩)
      (fun e s' ⟨unreachable, knows, learned⟩ => ⟨unreachable, learns s' knows learned⟩)
    rw [same, getElem?_numbered, here, Nat.zero_add]
    rfl
  · refine wp_mono (recordAt_beyond restorable follows.knows (Nat.le_of_not_lt within))
      (fun found s' ⟨same, knows, learned⟩ => ⟨?_, learns s' knows learned⟩)
      (fun e s' ⟨unreachable, knows, learned⟩ => ⟨unreachable, learns s' knows learned⟩)
    rw [same, List.getElem?_eq_none]
    rw [length_numbered]
    omega

end Listed

section Calls

variable {σ : Type} [BlobStore σ]

/-- One poll after the other, each after a number of polls that are dropped. -/
def pollMany : List Nat → Program SourceError (ChainSource σ) (List (Option Record))
  | [] => pure []
  | dropped :: polls => do
    modify abandonPoll^[dropped]
    let polled ← pollOne
    return polled :: (← pollMany polls)

/-- What polls answer once the source is positioned. -/
def pollsFrom (position : Nat) (polls : List Nat) :
    Program SourceError (ChainSource σ) (List (Option Record)) := do
  seek position
  pollMany polls

end Calls

section Agreement

omit [EnvelopeLibraries] in
/-- What is listed whole stays so. -/
theorem Follows.whole (follows : Follows cfg backup s') (onward : Onward s s')
    (whole : s.chain.length = backup.length) : s'.chain.length = backup.length := by
  have := onward.chain
  have := follows.knows.length_le
  omega

/-- Any number of dropped polls leaves a follower where it was. -/
theorem abandonPolls_spec (restorable : Restorable cfg backup) {n : Nat} (dropped : Nat)
    {s : ChainSource GrowingStore} (placed : Placed cfg backup n s) :
    Placed cfg backup n (abandonPoll^[dropped] s) ∧ Onward s (abandonPoll^[dropped] s) := by
  induction dropped generalizing s with
  | zero => exact ⟨placed, .refl s⟩
  | succ dropped ih =>
    obtain ⟨placed₁, onward₁⟩ := abandonPoll_spec restorable placed
    obtain ⟨placed', onward'⟩ := ih placed₁
    exact ⟨placed', onward₁.trans onward'⟩

/-- Polls answer the records from the follower's place on, and then that there are no more. -/
theorem pollMany_spec (restorable : Restorable cfg backup) (polls : List Nat) {n : Nat}
    {s : ChainSource GrowingStore} (placed : Placed cfg backup n s)
    (whole : s.chain.length = backup.length) (quiet : s.store.Quiet) :
    wp (pollMany polls)
      (fun answers _ => answers = (List.range polls.length).map fun i =>
        ((numbered 0 (backupRecords backup)).drop n)[i]?)
      (fun _ _ => False) s := by
  induction polls generalizing n s with
  | nil => exact rfl
  | cons dropped polls ih =>
    obtain ⟨placed₁, onward₁⟩ := abandonPolls_spec restorable dropped placed
    simp only [pollMany, wp_bind, wp_modify, wp_pure]
    refine wp_mono (pollOne_spec restorable placed₁) (fun polled s₂ ⟨yields, onward₂⟩ => ?_)
      (fun e s₂ ⟨⟨_, _, unreachable⟩, _⟩ => unreachable.2 (onward₁.later.quiet quiet))
    have onward := onward₁.trans onward₂
    have quiet₂ := onward.later.quiet quiet
    rw [List.length_cons, List.range_succ_eq_map, List.map_cons, List.map_map]
    cases yields with
    | @record r _ here next =>
      -- The polls after it answer the records after it.
      refine wp_mono (ih next (next.follows.whole onward whole) quiet₂)
        (fun answers _ rest => ?_) (fun _ _ failed => failed)
      subst rest
      have first : ((numbered 0 (backupRecords backup)).drop n)[0]? = some r := by
        rw [List.getElem?_drop]
        exact here
      rw [first]
      congr 1
      apply List.map_congr_left
      intro i _
      rw [Function.comp, List.getElem?_drop, List.getElem?_drop, Nat.add_assoc, Nat.add_comm 1]
    | nothing all same =>
      have whole₂ := same.follows.whole onward whole
      refine wp_mono (ih same whole₂ quiet₂) (fun answers _ rest => ?_) (fun _ _ failed => failed)
      subst rest
      -- Nothing is behind the end, now as later.
      have ended : (numbered 0 (backupRecords backup)).drop n = [] := by
        rw [List.drop_eq_nil_iff, length_numbered, all, whole₂, recordsBefore_length]
      rw [ended]
      rfl

/--
A seek into a backup agrees with looking records up in it.

Whatever was asked of the source before, and however that ended: polls after a seek answer the
backup's records, each at its place, without those before the position; a lookup answers the same
record for every place; and only positions behind the last record are refused.
-/
theorem seek_agrees (restorable : Restorable cfg backup) {store : GrowingStore}
    (written : store.written = backup.map (·.blob)) (shown : backup.length ≤ store.shown)
    {drops : Stream' Bool} {opened : ChainSource GrowingStore}
    (opens : value? (openChain cfg drops store) = some opened) (calls : List ChainCall)
    (quiet : (afterAsked calls opened).store.Quiet) :
    (∀ position ≤ (backupRecords backup).length, ∀ polls : List Nat,
        value? (pollsFrom position polls (afterAsked calls opened))
          = some ((List.range polls.length).map fun i =>
            ((numbered 0 (backupRecords backup)).drop position)[i]?))
      ∧ (∀ position, value? (recordAt position (afterAsked calls opened))
          = some (numbered 0 (backupRecords backup))[position]?)
      ∧ ∀ position, value? (seek position (afterAsked calls opened)) = none
          ↔ (backupRecords backup).length < position := by
  obtain ⟨follows₀, length₀, later₀⟩ :=
    wp_of_ok (openChain_spec restorable.valid restorable.allowed written drops) (eq_ok_of_value? opens)
  have whole₀ : opened.chain.length = backup.length := by
    have := later₀.shown
    omega
  obtain ⟨follows, onward₀⟩ := afterAsked_follows restorable.valid calls follows₀
  have whole := follows.whole onward₀ whole₀
  clear onward₀
  generalize afterAsked calls opened = s at follows whole quiet ⊢
  have count : ∀ s' : ChainSource GrowingStore, s'.chain.length = backup.length →
      recordsBefore backup s'.chain.length = (backupRecords backup).length := by
    intro s' whole'
    rw [whole', recordsBefore_length]
  -- Of a store that fails no request, a seek is refused only for its position.
  have seeks : ∀ position, wp (seek position)
      (fun _ s' => Placed cfg backup position s' ∧ Onward s s'
        ∧ position ≤ (backupRecords backup).length)
      (fun _ _ => (backupRecords backup).length < position) s := by
    intro position
    refine wp_mono (seek_spec restorable follows position) ?_ ?_
    · rintro _ s' ⟨placed, onward⟩
      have within := placed.within
      rw [count s' (placed.follows.whole onward whole)] at within
      exact ⟨placed, onward, by omega⟩
    · rintro e s' ⟨follows', onward, reason⟩
      rcases reason with ⟨_, _, unreachable⟩ | ⟨_, beyond⟩
      · exact absurd quiet unreachable.2
      · rwa [count s' (follows'.whole onward whole)] at beyond
  refine ⟨?_, ?_, ?_⟩
  · intro position atMost polls
    apply value?_of_wp
    simp only [pollsFrom, wp_bind]
    refine wp_mono (seeks position) (fun _ s' ⟨placed, onward, _⟩ => ?_) (fun _ _ refused => ?_)
    · exact pollMany_spec restorable polls placed (placed.follows.whole onward whole)
        (onward.later.quiet quiet)
    · exact absurd refused (Nat.not_lt.mpr atMost)
  · intro position
    exact value?_of_wp (wp_mono (recordAt_listed restorable follows whole position)
      (fun _ _ found => found.1) (fun _ _ failed => failed.1.2 quiet))
  · intro position
    have ends := seeks position
    unfold wp at ends
    cases outcome : seek position s with
    | ok _ s' =>
      rw [outcome] at ends
      refine ⟨fun none_ => ?_, fun beyond => absurd beyond (Nat.not_lt.mpr ends.2.2)⟩
      cases none_
    | error e s' =>
      rw [outcome] at ends
      exact ⟨fun _ => ends, fun _ => rfl⟩

end Agreement

end ChainSource

end Sources

namespace Sample

/-- A backup from offset 3 on, with no record at offset 4. -/
def withHole : List BackupObject :=
  [⟨⟨blobFilename 3 5 none "ndjson", 3, 5, none⟩, line 3 ++ [10] ++ line 5 ++ [10],
      [record 3, record 5]⟩,
    ⟨⟨blobFilename 6 6 none "ndjson", 6, 6, none⟩, line 6 ++ [10], [record 6]⟩]

/-- How it is read as a source that closes its holes. -/
def closingHoles : ChainSourceConfig := ⟨⟨.ndjson, none, "t", 0⟩, .renumber, 3⟩

/-- Numbered anew, its records have no holes. -/
theorem withHole_restorable : ChainSource.Restorable closingHoles withHole := by
  refine ⟨.cons ⟨rfl, by decide, by decide, rfl, ?_, by decide +kernel⟩
    (.cons ⟨rfl, by decide, by decide, rfl, ?_, by decide +kernel⟩ .nil), ?_⟩
  · intro id named
    cases named
  · intro id named
    cases named
  · intro preserve
    cases preserve

/-- Its store, which fails no request. -/
def holding : GrowingStore := ⟨withHole.map (·.blob), 2, Stream'.const ⟨none, 0⟩⟩

/-- A source over it that was asked for a record, was positioned and dropped a poll. -/
def asked (source : ChainSource GrowingStore) : ChainSource GrowingStore :=
  ChainSource.afterAsked [.recordAt 2, .seek 1, .abandonPoll] source

/-- A seek to the second of three records skips the first, over the hole between them. -/
theorem seek_agrees_withHole :
    ∃ opened, value? (ChainSource.openChain closingHoles (Stream'.const true) holding) = some opened
      ∧ value? (ChainSource.pollsFrom 1 [1, 0, 2] (asked opened))
        = some [some { record 5 with sourceOffset := 1 }, some { record 6 with sourceOffset := 2 },
          none]
      ∧ value? (ChainSource.recordAt 1 (asked opened))
        = some (some { record 5 with sourceOffset := 1 })
      ∧ value? (ChainSource.seek 4 (asked opened)) = none := by
  have restorable := withHole_restorable
  -- A store that fails no request lets the source be opened.
  have answered : holding.Quiet := fun _ => rfl
  have written : holding.written = withHole.map (·.blob) := rfl
  have opening :=
    ChainSource.openChain_spec restorable.valid restorable.allowed written (Stream'.const true)
  cases outcome : (ChainSource.openChain closingHoles (Stream'.const true) :
      Program RestoreError GrowingStore _) holding with
  | error e store => exact absurd answered (wp_of_error opening outcome).1.2
  | ok opened store =>
    obtain ⟨follows, size, later⟩ := wp_of_ok opening outcome
    have whole : opened.chain.length = withHole.length := by
      have := later.shown
      rw [size]
      exact Nat.min_eq_right this
    have quiet : (asked opened).store.Quiet := by
      obtain ⟨_, onward⟩ := ChainSource.afterAsked_follows restorable.valid
        [.recordAt 2, .seek 1, .abandonPoll] follows
      exact onward.later.quiet (later.quiet answered)
    have opens : value? ((ChainSource.openChain closingHoles (Stream'.const true) :
        Program RestoreError GrowingStore _) holding) = some opened := by
      rw [outcome]
      rfl
    obtain ⟨polls, lookup, refused⟩ := ChainSource.seek_agrees restorable written (Nat.le_refl 2) opens
      [.recordAt 2, .seek 1, .abandonPoll] quiet
    exact ⟨opened, rfl, polls 1 (by decide) [1, 0, 2], lookup 1, (refused 4).mpr (by decide)⟩

end Sample

end MirrorV3
