import MirrorV3.Fs.Sound
import MirrorV3.Resume.Reopened

/-! Destinations as they are opened again in surroundings at rest: where they say they stand. -/

namespace MirrorV3

open Effect Results

variable [EnvelopeLibraries]

/-- A Kafka destination holds no more records than a broker can number. -/
def Leftover.Numbered : Leftover → Prop
  | .blob _ _ _ => True
  | .kafka _ records => records.length < 2 ^ 63

/-- A directory that nothing is due to be flushed to, with a store at rest. -/
structure BlobAtRest (position : Nat) (s : BlobSink ObjectStore) : Prop where
  unbuffered : s.buffer = []
  durable : s.durablePosition = position
  answers : s.store.answers = Stream'.const ⟨none, false⟩
  interval : s.driftCheckInterval = driftCheckInterval
  chained : ∃ chain, s.tail = chain.tail
    ∧ validateChain (s.store.stored.map (·.1)) s.spec.format s.spec.compaction = .ok chain

/-- A partition whose broker is at rest and knows where its records end. -/
structure PartitionAtRest (position : Nat) (s : KafkaSink Partition) : Prop where
  answers : s.broker.answers = Stream'.const ⟨none, false, false⟩
  length : s.broker.records.length = position
  inRange : position < 2 ^ 63

/-- A destination of either kind that stands at a position and has nothing to do. -/
def AtRest (position : Nat) : DestinationSink → Prop :=
  Sum.elim (BlobAtRest position) (PartitionAtRest position)

/-- A drift check is due at a later query of a sink, unless one was made before. -/
def Late (query : Nat) : DestinationSink → Prop
  | .inl s => driftCheckInterval ≤ s.clocks.instants.get (2 * query + 1) - s.lastDriftCheck
  | .inr _ => False

/-- A drift check at one of the next queries takes what the sink holds for another chain's end. -/
def Drifts (queries : Nat) (sink : DestinationSink) : Prop :=
  (∃ query < queries, Late query sink) ∧ (DestinationSink.left sink).strays = true

/-- A sink at rest that was opened over what a destination holds. -/
structure OpenedAt (clocks : Clocks) (position : Nat) (left : Leftover) (sink : DestinationSink) :
    Prop where
  left_eq : DestinationSink.left sink = left
  atRest : AtRest position sink
  drifts : Drifts 2 sink ↔ clocks.ChecksDrift ∧ left.strays = true

omit [EnvelopeLibraries] in
/-- The listing of a store at rest. -/
theorem list_answering (stored : List BlobObject) :
    (BlobStore.list : Program BlobError ObjectStore _) (.answering stored)
      = .ok (stored.map (·.1)) (.answering stored) := rfl

omit [EnvelopeLibraries] in
/-- What is listed past a name of a store at rest. -/
theorem listAfter_answering (stored : List BlobObject) (after : Option String) :
    (BlobStore.listAfter after : Program BlobError ObjectStore _) (.answering stored)
      = .ok ((stored.map (·.1)).filter fun name => after.all (· < name)) (.answering stored) := rfl

omit [EnvelopeLibraries] in
/-- An object of a store at rest, which is there or is not. -/
theorem get_answering (stored : List BlobObject) (name : String) :
    (BlobStore.get name : Program BlobError ObjectStore _) (.answering stored)
      = match stored.lookup name with
        | some bytes => .ok bytes (.answering stored)
        | none => .error (.store s!"no object {name}") (.answering stored) := by
  have asked : ObjectStore.request (.answering stored) = .ok () (.answering stored) := rfl
  show ObjectStore.getObject name _ = _
  simp only [ObjectStore.getObject, bind, EStateM.bind, asked]
  show (match stored.lookup name with
    | some bytes => pure bytes
    | none => throw (.store s!"no object {name}") : Program BlobError ObjectStore Bytes) _ = _
  cases stored.lookup name with
  | some bytes => rfl
  | none => rfl

/-- The view a destination is opened with, from the snapshot that was read of it. -/
def openedView (spec : BlobSpec) (chain : Chain) (snapshot : Option Bytes) :
    Except BlobError (Option View) :=
  match spec.compaction with
  | none => pure none
  | some .log =>
    match chain.latest, snapshot with
    | some name, some bytes => some <$> decodeView name name bytes spec.format spec.encryption
    | none, _ => pure (some {})
    | some name, none => .error (.store ("snapshot " ++ name ++ " was not read"))

/-- The sink that a view is put into when a destination is opened. -/
def openedSink {spec : BlobSpec} (checked : spec.checkEncryption = .ok ())
    (objects : List BlobObject) (chain : Chain) (clocks : Clocks) (view : Option View) :
    BlobSink ObjectStore where
  store := .answering objects
  spec := spec
  checked := checked
  durablePosition := chain.durable
  buffer := []
  bufferBytes := 0
  bufferStarted := none
  view := view
  nextDailyUnix := spec.flush.dailyAtUtcSeconds.map (scheduleNextDaily · clocks.clock.head)
  clocks := ⟨clocks.clock.tail, clocks.instants.tail⟩
  flushObserver := none
  tail := chain.tail
  lastDriftCheck := clocks.instants.head
  driftCheckInterval := driftCheckInterval

/-- A setting that could be used before can be used again, when the snapshot can be read. -/
theorem new_of_checked {spec : BlobSpec} (checked : spec.checkEncryption = .ok ())
    (objects : List BlobObject) (chain : Chain) (snapshot : Option Bytes) (clocks : Clocks) :
    BlobSink.new (ObjectStore.answering objects) spec chain snapshot clocks
      = (openedView spec chain snapshot).map (openedSink checked objects chain clocks) := by
  unfold BlobSink.new
  split
  · rename_i e unusable
    rw [checked] at unusable
    cases unusable
  · unfold openedView
    cases spec.compaction with
    | none => rfl
    | some mode =>
      cases mode with
      | log =>
        cases chain.latest with
        | none => rfl
        | some name =>
          cases snapshot with
          | none => rfl
          | some bytes =>
            show (some <$> decodeView name name bytes spec.format spec.encryption >>= _)
              = (some <$> decodeView name name bytes spec.format spec.encryption).map _
            cases decodeView name name bytes spec.format spec.encryption <;> rfl

omit [EnvelopeLibraries] in
/-- Only a compacted chain has a newest snapshot. -/
theorem latest_of_validateChain {names : List String} {format : Format} {chain : Chain}
    (chained : validateChain names format none = .ok chain) : chain.latest = none := by
  unfold validateChain at chained
  obtain ⟨entries, -, chained⟩ := of_bind_ok chained
  obtain ⟨durable, -, chained⟩ := of_bind_ok chained
  cases chained
  rfl

/-- Where a directory with a valid chain stands, when its newest snapshot is read. -/
theorem stands_of_chain {spec : BlobSpec} {checked : spec.checkEncryption = .ok ()}
    {objects : List BlobObject} {chain : Chain}
    (chained : validateChain (objects.map (·.1)) spec.format spec.compaction = .ok chain) :
    (Leftover.blob spec checked objects).stands
      = match chain.latest with
        | none => .ok chain.durable
        | some name =>
          match objects.lookup name with
          | none => .error (.blob (.store s!"no object {name}"))
          | some bytes =>
            match decodeView name name bytes spec.format spec.encryption with
            | .error e => .error (.blob e)
            | .ok _ => .ok chain.durable := by
  simp only [Leftover.stands, chained]
  show (match chain.latest with | none => _ | some name => _) = _
  cases chain.latest with
  | none => rfl
  | some name =>
    dsimp only
    cases objects.lookup name with
    | none => rfl
    | some bytes =>
      dsimp only
      cases decodeView name name bytes spec.format spec.encryption <;> rfl

/-- A directory is opened where its names say that it stands, when its newest snapshot is read. -/
theorem openStore_stands {spec : BlobSpec} (checked : spec.checkEncryption = .ok ())
    (objects : List BlobObject) (clocks : Clocks) :
    wp (BlobSink.openStore spec clocks)
      (fun sink _ => ∃ position, (Leftover.blob spec checked objects).stands = .ok position
        ∧ OpenedAt clocks position (.blob spec checked objects) (.inl sink))
      (fun e store => (Leftover.blob spec checked objects).stands = .error (.blob e)
        ∧ store.stored = objects) (ObjectStore.answering objects) := by
  -- The first reading of a clock is the time from which the next drift check is counted.
  have opened : ∀ chain view,
      validateChain (objects.map (·.1)) spec.format spec.compaction = .ok chain →
      OpenedAt clocks chain.durable (.blob spec checked objects)
        (.inl (openedSink checked objects chain clocks view)) :=
    fun chain _ chained => ⟨rfl, ⟨rfl, rfl, rfl, rfl, chain, rfl, chained⟩, Iff.rfl⟩
  simp only [BlobSink.openStore, wp_bind, wp_eq_of_ok (list_answering objects), wp_ofExcept]
  cases chained : validateChain (objects.map (·.1)) spec.format spec.compaction with
  | error e =>
    refine ⟨?_, rfl⟩
    simp only [Leftover.stands, chained]
    rfl
  | ok chain =>
    dsimp only
    cases newest : chain.latest with
    | none =>
      -- Without a snapshot there is nothing to read, and the view starts empty.
      obtain ⟨view, start⟩ : ∃ view, openedView spec chain none = .ok view := by
        unfold openedView
        cases spec.compaction with
        | none => exact ⟨_, rfl⟩
        | some mode =>
          cases mode with
          | log =>
            rw [newest]
            exact ⟨_, rfl⟩
      simp only [wp_bind, wp_pure, wp_get, wp_ofExcept, new_of_checked checked, start, Except.map]
      refine ⟨chain.durable, ?_, opened chain view chained⟩
      rw [stands_of_chain chained, newest]
    | some name =>
      -- A newest snapshot is only known of a destination that compacts.
      have compacts : spec.compaction = some .log := by
        generalize spec.compaction = mode at chained
        cases mode with
        | some mode => cases mode; rfl
        | none =>
          rw [latest_of_validateChain chained] at newest
          cases newest
      have view : ∀ bytes, openedView spec chain (some bytes)
          = some <$> decodeView name name bytes spec.format spec.encryption := by
        intro bytes
        unfold openedView
        simp only [compacts, newest]
      dsimp only
      simp only [wp_bind, wp_map]
      cases found : objects.lookup name with
      | none =>
        have missing : (BlobStore.get name : Program BlobError ObjectStore _) (.answering objects)
            = .error (.store s!"no object {name}") (.answering objects) := by
          rw [get_answering, found]
        simp only [wp, missing]
        rw [stands_of_chain chained, newest]
        simp only [found]
        exact ⟨trivial, rfl⟩
      | some bytes =>
        have read : (BlobStore.get name : Program BlobError ObjectStore _) (.answering objects)
            = .ok bytes (.answering objects) := by
          rw [get_answering, found]
        simp only [wp_eq_of_ok read, wp_get, wp_ofExcept, new_of_checked checked, view]
        rw [stands_of_chain chained, newest]
        simp only [found]
        cases decodeView name name bytes spec.format spec.encryption with
        | error e => exact ⟨rfl, rfl⟩
        | ok decoded => exact ⟨chain.durable, rfl, opened chain (some decoded) chained⟩

omit [EnvelopeLibraries] in
/-- A partition is opened where its records end. -/
theorem openSink_stands {config : KafkaSinkConfig} {records : List FutureRecord}
    (numbered : records.length < 2 ^ 63) :
    wp (KafkaSink.openSink config)
      (fun sink _ => ∀ clocks, OpenedAt clocks records.length (.kafka config records) (.inr sink))
      (fun _ _ => False) (Partition.answering records) :=
  fun _ => OpenedAt.mk rfl (PartitionAtRest.mk rfl rfl numbered)
    (iff_of_false (fun drifts => Bool.false_ne_true drifts.2)
      fun drifts => Bool.false_ne_true drifts.2)

/-- What a destination is opened as, unless what it holds says that it cannot be. -/
theorem reopen_stands {left : Leftover} (numbered : left.Numbered) (clocks : Clocks) :
    match left.reopen clocks with
    | .ok sink => ∃ position, left.stands = .ok position ∧ OpenedAt clocks position left sink
    | .error (e, after) => left.stands = .error e ∧ after = left := by
  -- A directory stands where its chain ends, and a partition at the number of its messages.
  cases left with
  | blob spec checked objects =>
    have opening := openStore_stands checked objects clocks
    simp only [Leftover.reopen]
    unfold wp at opening
    generalize BlobSink.openStore spec clocks (ObjectStore.answering objects) = outcome
      at opening ⊢
    cases outcome with
    | ok sink store => exact opening
    | error e store =>
      obtain ⟨told, same⟩ := opening
      exact ⟨told, by rw [same]⟩
  | kafka config records =>
    have opening := @openSink_stands config records numbered
    simp only [Leftover.reopen]
    unfold wp at opening
    generalize KafkaSink.openSink config (Partition.answering records) = outcome at opening ⊢
    cases outcome with
    | ok sink partition => exact ⟨records.length, rfl, opening clocks⟩
    | error e partition => exact opening.elim

/-- The daily boundary finds nothing to flush in a directory at rest, and reads no instant. -/
theorem tickDaily_atRest {position : Nat} {s : BlobSink ObjectStore}
    (rest : BlobAtRest position s) :
    wp BlobSink.tickDaily (fun _ s' => DestinationSink.left (.inl s') = DestinationSink.left (.inl s)
      ∧ BlobAtRest position s' ∧ s'.clocks.instants = s.clocks.instants
      ∧ s'.lastDriftCheck = s.lastDriftCheck) (fun _ _ => False) s := by
  obtain ⟨unbuffered, durable, answers, interval, chained⟩ := rest
  simp only [BlobSink.tickDaily, BlobSink.now, wp_bind, wp_get]
  cases s.nextDailyUnix with
  | none => exact ⟨rfl, ⟨unbuffered, durable, answers, interval, chained⟩, rfl, rfl⟩
  | some next =>
    simp only [wp_bind, wp_get, wp_set, wp_pure, wp_ite]
    split
    · exact ⟨rfl, ⟨unbuffered, durable, answers, interval, chained⟩, trivial, trivial⟩
    · rw [if_neg (not_not.mpr unbuffered)]
      exact ⟨rfl, ⟨unbuffered, durable, answers, interval, chained⟩, rfl, rfl⟩

omit [EnvelopeLibraries] in
/-- A drift check of a directory at rest passes, unless it takes its end for another chain's. -/
theorem checkDrift_atRest {position : Nat} {s : BlobSink ObjectStore}
    (rest : BlobAtRest position s) :
    wp BlobSink.checkDrift (fun _ s' => DestinationSink.left (.inl s') = DestinationSink.left (.inl s)
      ∧ BlobAtRest position s' ∧ (DestinationSink.left (.inl s)).strays = false)
      (fun e s' => DestinationSink.left (.inl s') = DestinationSink.left (.inl s)
        ∧ e.isTransient = false ∧ (DestinationSink.left (.inl s)).strays = true) s := by
  obtain ⟨unbuffered, durable, answers, interval, chain, tail, valid⟩ := rest
  -- A store at rest lists what it holds, so the check sees exactly what strays.
  have store : s.store = .answering s.store.stored := by
    rw [ObjectStore.answering, ← answers]
  have listed := listAfter_answering s.store.stored s.driftAfter
  rw [← store] at listed
  generalize found : ((s.store.stored.map (·.1)).filter fun name =>
    s.driftAfter.all (· < name)) = names at listed
  have strays : (DestinationSink.left (.inl s)).strays
      = ((s.tail.getLast?.filter (· ∉ names)).isSome
        || (names.find? (some · ≠ s.tail.getLast?)).isSome) := by
    simp only [DestinationSink.left, Leftover.strays, valid, ← tail]
    rw [← found]
    rfl
  simp only [BlobSink.checkDrift, wp_bind, wp_get, wp_focus]
  show wp (BlobStore.listAfter s.driftAfter) _ _ s.store
  rw [wp_eq_of_ok listed, strays]
  cases s.tail.getLast?.filter (· ∉ names) with
  | some last => exact ⟨rfl, rfl, rfl⟩
  | none =>
    cases names.find? (some · ≠ s.tail.getLast?) with
    | some foreign => exact ⟨rfl, rfl, rfl⟩
    | none => exact ⟨rfl, ⟨unbuffered, durable, answers, interval, chain, tail, valid⟩, rfl⟩

omit [EnvelopeLibraries] in
/-- With one query less to come, a sink on which no check is due drifts at the later ones. -/
theorem drifts_tail {s s' : BlobSink ObjectStore} (early : ¬ Late 0 (.inl s))
    (instants : s'.clocks.instants = s.clocks.instants.tail.tail)
    (same : s'.lastDriftCheck = s.lastDriftCheck)
    (left : DestinationSink.left (.inl s') = DestinationSink.left (.inl s)) (queries : Nat) :
    Drifts queries (.inl s') ↔ Drifts (queries + 1) (.inl s) := by
  have later : ∀ query, Late query (.inl s') ↔ Late (query + 1) (.inl s) := by
    intro query
    simp only [Late, instants, same]
    exact Iff.rfl
  unfold Drifts
  rw [left]
  refine and_congr_left fun _ => ?_
  constructor
  · rintro ⟨query, inside, late⟩
    exact ⟨query + 1, by omega, (later query).mp late⟩
  · rintro ⟨query, inside, late⟩
    cases query with
    | zero => exact absurd late early
    | succ query => exact ⟨query, by omega, (later query).mpr late⟩

/-- A directory at rest answers where it stands, unless a drift check stops it. -/
theorem blob_atRest {position : Nat} {s : BlobSink ObjectStore} (rest : BlobAtRest position s) :
    wp BlobSink.nextExpectedOffset (fun next s' => next = position
      ∧ DestinationSink.left (.inl s') = DestinationSink.left (.inl s) ∧ BlobAtRest position s'
      ∧ ¬ Drifts 1 (.inl s) ∧ ∀ queries, Drifts queries (.inl s') ↔ Drifts (queries + 1) (.inl s))
      (fun e s' => DestinationSink.left (.inl s') = DestinationSink.left (.inl s)
        ∧ e.isTransient = false ∧ Drifts 1 (.inl s)) s := by
  simp only [BlobSink.nextExpectedOffset, BlobSink.instant, wp_bind, wp_get, wp_set, wp_pure]
  refine wp_mono (tickDaily_atRest rest) ?_ (fun _ _ failed => failed.elim)
  rintro _ s' ⟨same, rest, instants, checked⟩
  -- With nothing buffered no flush is due, but a check may be.
  rw [if_neg (by simp [BlobSink.shouldFlush, rest.unbuffered])]
  simp only [wp_bind, wp_pure, wp_get, wp_set, wp_ite]
  have rest' : BlobAtRest position { s' with
      clocks := { s'.clocks with instants := s'.clocks.instants.tail.tail } } :=
    ⟨rest.unbuffered, rest.durable, rest.answers, rest.interval, rest.chained⟩
  have head : ∀ s'' : BlobSink ObjectStore, BlobAtRest position s'' → s''.bufferedHead = position :=
    fun s'' rest => by simp [BlobSink.bufferedHead, rest.unbuffered, rest.durable]
  have due : s'.driftCheckInterval ≤ s'.clocks.instants.tail.head - s'.lastDriftCheck
      ↔ Late 0 (.inl s) := by
    rw [rest.interval, instants, checked]
    exact Iff.rfl
  by_cases late : Late 0 (.inl s)
  · rw [if_pos (due.mpr late)]
    refine wp_mono (checkDrift_atRest rest') ?_ ?_
    · rintro _ s'' ⟨left, rest'', straight⟩
      have straight : (DestinationSink.left (.inl s)).strays = false := by
        rw [← same]
        exact straight
      have left := left.trans same
      refine ⟨head s'' rest'', left, rest'', fun drifts => ?_, fun queries => ?_⟩
      · rw [drifts.2] at straight
        cases straight
      · refine iff_of_false (fun drifts => ?_) fun drifts => ?_
        · rw [← left, drifts.2] at straight
          cases straight
        · rw [drifts.2] at straight
          cases straight
    · rintro e s'' ⟨left, final, strays⟩
      exact ⟨left.trans same, final, ⟨0, Nat.one_pos, late⟩, same ▸ strays⟩
  · rw [if_neg (mt due.mp late)]
    refine ⟨head _ rest', same, rest', ?_, drifts_tail late (by rw [instants]) checked same⟩
    rintro ⟨⟨query, first, isLate⟩, -⟩
    obtain rfl : query = 0 := by omega
    exact late isLate

omit [EnvelopeLibraries] in
/-- A partition at rest answers where it stands. -/
theorem partition_atRest {position : Nat} {s : KafkaSink Partition}
    (rest : PartitionAtRest position s) :
    wp KafkaSink.fetchHighWatermark (fun next s' => next = position
      ∧ DestinationSink.left (.inr s') = DestinationSink.left (.inr s) ∧ PartitionAtRest position s')
      (fun _ _ => False) s := by
  obtain ⟨answers, length, inRange⟩ := rest
  obtain rfl := length
  have watermark : u64TryFrom (Int64.ofNat s.broker.records.length) = some s.broker.records.length :=
    u64TryFrom_eq (Partition.toInt_length inRange)
  have asks : (Broker.fetchWatermarks s.config.topic s.config.partition :
      Program String Partition _) = Partition.fetchWatermarks := rfl
  have head : s.broker.answers.head = ⟨none, false, false⟩ := by
    rw [answers]
    rfl
  simp only [KafkaSink.fetchHighWatermark, asks, Partition.fetchWatermarks, Partition.request,
    KafkaSink.brokerPart, wp_bind, wp_get, wp_focus, wp_set, wp_ensure, head, wp_pure]
  rw [if_pos inRange]
  simp only [Bool.false_eq_true, if_false, watermark, wp_pure]
  refine ⟨trivial, rfl, ?_, rfl, inRange⟩
  simp only [answers]
  rfl

/--
A sink at rest answers where it stands, unless a drift check stops it.

Either way it leaves what it would have left.
-/
theorem nextExpectedOffset_atRest {position : Nat} {sink : DestinationSink}
    (rest : AtRest position sink) :
    wp (Sink.nextExpectedOffset : Program SinkError DestinationSink Nat)
      (fun next sink' => next = position ∧ DestinationSink.left sink' = DestinationSink.left sink
        ∧ AtRest position sink' ∧ ¬ Drifts 1 sink
        ∧ ∀ queries, Drifts queries sink' ↔ Drifts (queries + 1) sink)
      (fun e sink' => DestinationSink.left sink' = DestinationSink.left sink
        ∧ e.isTransient = false ∧ Drifts 1 sink) sink := by
  cases sink with
  | inl s =>
    show wp (onEither BlobSink.nextExpectedOffset KafkaSink.fetchHighWatermark) _ _ (.inl s)
    rw [wp_onEither_inl]
    exact blob_atRest rest
  | inr s =>
    show wp (onEither BlobSink.nextExpectedOffset KafkaSink.fetchHighWatermark) _ _ (.inr s)
    rw [wp_onEither_inr]
    -- A partition is not checked for drift.
    have never : ∀ {queries} {s : KafkaSink Partition}, ¬ Drifts queries (.inr s) :=
      fun drifts => Bool.false_ne_true drifts.2
    exact wp_mono (partition_atRest rest)
      (fun _ _ ⟨next, left, rest⟩ => ⟨next, left, rest, never, fun _ => iff_of_false never never⟩)
      (fun _ _ failed => failed.elim)

/-- All destinations are opened, unless what one of them holds says that it cannot be. -/
theorem reopenAll_stands {left : List (String × Leftover)}
    (numbered : ∀ entry ∈ left, entry.2.Numbered) (clocks : Nat → Clocks) :
    match reopenAll clocks left with
    | .ok sinks => (sinks.map fun opened => (opened.1, DestinationSink.left opened.2)) = left
        ∧ (∀ opened ∈ sinks, ∃ position, (DestinationSink.left opened.2).stands = .ok position
          ∧ AtRest position opened.2)
        ∧ ((∃ opened ∈ sinks, Drifts 2 opened.2)
          ↔ ∃ i entry, left[i]? = some entry ∧ (clocks i).ChecksDrift ∧ entry.2.strays = true)
    | .error (e, after) => left.mapM (·.2.stands) = .error e ∧ after = left := by
  -- Each destination is opened with its own clocks, and the first that cannot be opened ends it.
  induction left generalizing clocks with
  | nil => exact ⟨rfl, fun _ mem => absurd mem List.not_mem_nil, by simp⟩
  | cons entry rest ih =>
    obtain ⟨name, held⟩ := entry
    have first := reopen_stands (numbered _ List.mem_cons_self) (clocks 0)
    have others := ih (fun entry mem => numbered entry (List.mem_cons_of_mem _ mem))
      fun i => clocks (i + 1)
    rw [List.mapM_cons]
    unfold reopenAll
    cases opened : held.reopen (clocks 0) with
    | error failure =>
      rw [opened] at first
      obtain ⟨told, rfl⟩ := first
      dsimp only
      rw [told]
      exact ⟨rfl, rfl⟩
    | ok sink =>
      rw [opened] at first
      obtain ⟨position, told, rfl, atRest, drifts⟩ := first
      cases later : reopenAll (fun i => clocks (i + 1)) rest with
      | error failure =>
        rw [later] at others
        obtain ⟨refused, rfl⟩ := others
        dsimp only
        rw [told, refused]
        exact ⟨rfl, rfl⟩
      | ok sinks =>
        rw [later] at others
        obtain ⟨rfl, each, laterDrifts⟩ := others
        refine ⟨rfl, fun opened mem => ?_, ?_⟩
        · rcases List.mem_cons.mp mem with rfl | mem
          · exact ⟨position, told, atRest⟩
          · exact each opened mem
        · -- The first destination reads the first clocks, and each later one those one further.
          simp only [List.mem_cons, or_and_right, exists_or, exists_eq_left]
          rw [drifts, laterDrifts]
          constructor
          · rintro (here | ⟨i, entry, found, later⟩)
            · exact ⟨0, _, rfl, here⟩
            · exact ⟨i + 1, entry, found, later⟩
          · rintro ⟨_ | i, entry, found, later⟩
            · obtain rfl := Option.some.inj found
              exact .inl later
            · exact .inr ⟨i, entry, found, later⟩

end MirrorV3
