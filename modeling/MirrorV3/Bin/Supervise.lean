import MirrorV3.Bin.Outage
import MirrorV3.Bin.Resolution
import MirrorV3.Envelope.Sample

/-! A mirror that has destinations only, from opening them on, and what reopens it in its process. -/

namespace MirrorV3

open Config Effect Results

/-- A damaged chain, which stays what it is. -/
def Corrupt : BlobError → Prop
  | .corruptChain _ => True
  | _ => False

section Listings

variable {format : Format}

/-- A name is refused for what it is. -/
theorem chainEntry_corrupt (name : String) : FailsWith Corrupt (chainEntry format name) := by
  unfold chainEntry
  dsimp only
  split
  · exact .error trivial
  · split
    · exact .error trivial
    · split
      · exact .error trivial
      · exact .ok _

/-- Ranges that do not adjoin are refused for what they are. -/
theorem contiguous_corrupt (entries : List ChainEntry) (start : Nat) :
    FailsWith Corrupt (contiguous start entries) := by
  induction entries generalizing start with
  | nil => exact .ok start
  | cons entry entries ih =>
    unfold contiguous
    split
    · exact .error trivial
    · exact ih _

/-- And so are ranges that overlap. -/
theorem disjoint_corrupt (entries : List ChainEntry) (prior : Option Nat) :
    FailsWith Corrupt (disjoint prior entries) := by
  induction entries generalizing prior with
  | nil => exact .ok prior
  | cons entry entries ih =>
    unfold disjoint
    split
    · exact .error trivial
    · exact ih _

/-- A listing is refused for what it is. -/
theorem validateChain_corrupt (names : List String) (compaction : Option CompactionMode) :
    FailsWith Corrupt (validateChain names format compaction) := by
  unfold validateChain chainEntries
  refine .bind (.bind (.mapM chainEntry_corrupt names) fun _ => .ok _) fun entries => ?_
  cases compaction with
  | none => exact .bind (contiguous_corrupt entries 0) fun _ => .ok _
  | some mode => exact .bind (disjoint_corrupt entries none) fun _ => .ok _

end Listings

section Opening

variable [EnvelopeLibraries]

/-- An object whose key is held is refused for what is in it. -/
theorem decodeBlob_corrupt {name location : String} {bytes : Bytes} {format : Format}
    {keyring : Option Keyring}
    (held : ∀ id ∈ (parseBlobName name format.extension).bind (·.keyId),
      holdsKey keyring id = true) :
    FailsWith Corrupt (decodeBlob name location bytes format keyring) := by
  -- Whether a name has a key id decides which keyring is asked, and an id that it has is held.
  unfold decodeBlob
  dsimp only
  cases key : (parseBlobName name format.extension).bind (·.keyId) with
  | none =>
    dsimp only
    split
    · exact .ok _
    · exact .error trivial
  | some id =>
    have holds := held id key
    cases keyring with
    | none => exact absurd holds Bool.false_ne_true
    | some ring =>
      have found : (ring.get id).isOk = true := holds
      dsimp only
      cases got : ring.get id with
      | error message =>
        rw [got] at found
        exact absurd found Bool.false_ne_true
      | ok key =>
        dsimp only
        split
        · exact .ok _
        · exact .error trivial

/-- And so is a snapshot. -/
theorem decodeView_corrupt {name location : String} {bytes : Bytes} {format : Format}
    {encryption : Option BlobEncryption}
    (held : ∀ id ∈ (parseBlobName name format.extension).bind (·.keyId),
      holdsKey (encryption.map (·.keyring)) id = true) :
    FailsWith Corrupt (decodeView name location bytes format encryption) := by
  unfold decodeView
  refine .bind (decodeBlob_corrupt held) fun records => .foldlM (fun view r => ?_) records _
  split
  · exact .error trivial
  · split
    · exact .error trivial
    · exact .ok _

variable {σ β κ : Type} [BlobStore σ]

omit [EnvelopeLibraries] [BlobStore σ] in
/-- What is refused for what it is is not opened again. -/
theorem isTransient_of_corrupt {e : BlobError} (corrupt : Corrupt e) :
    (RunError.blob e).isTransient = false := by
  cases e with
  | corruptChain => rfl
  | store => exact corrupt.elim
  | alreadyExists => rfl

/-- A sink whose encryption setting and snapshot suit is refused for what it is built from. -/
theorem new_corrupt {store : σ} {spec : BlobSpec} {chain : Chain} {snapshot : Option Bytes}
    {clocks : Clocks} (usable : spec.checkEncryption = .ok ())
    (read : ∀ name ∈ chain.latest, snapshot.isSome = true
      ∧ ∀ id ∈ (parseBlobName name spec.format.extension).bind (·.keyId),
        holdsKey (spec.encryption.map (·.keyring)) id = true) :
    FailsWith Corrupt (BlobSink.new store spec chain snapshot clocks) := by
  unfold BlobSink.new
  split
  · rename_i e unusable
    rw [usable] at unusable
    cases unusable
  · cases spec.compaction with
    | none => exact .bind (.ok none) fun _ => .ok _
    | some mode =>
      cases mode
      cases latest : chain.latest with
      | none => exact .bind (.ok _) fun _ => .ok _
      | some name =>
        obtain ⟨some_, held⟩ := read name latest
        cases snapshot with
        | none => exact absurd some_ Bool.false_ne_true
        | some bytes =>
          exact .bind (.bind (decodeView_corrupt held) fun _ => .ok _) fun _ => .ok _

/-- A directory that is opened with a key that is held explains why it could not be. -/
theorem openStore_explained {spec : BlobSpec} (clocks : Clocks) (store : Noted StoreReply σ)
    (active : ∀ enc ∈ spec.encryption, ∃ key, enc.keyring.get enc.keyId = .ok key) :
    wp (BlobSink.openStore spec clocks) (fun _ _ => True)
      (fun e store' => Explained (RunError.blob e).isTransient
        (.blob spec clocks store' : Party σ β)) store := by
  -- Each step that calls the store fails as the store does, and the others for what they read.
  have failed : ∀ {retried : Bool} {reply : StoreReply} {store' : Noted StoreReply σ},
      reply ∈ store'.notes → reply.fails = true →
      Explained retried (.blob spec clocks store' : Party σ β) := by
    intro retried reply store' mem fails _ reached
    rw [reached reply mem] at fails
    cases fails
  simp only [BlobSink.openStore, wp_bind, wp_ofExcept]
  refine wp_noted (fun names party _ => ?_) (fun e party noted => failed noted rfl)
  cases chained : validateChain names spec.format spec.compaction with
  | error e =>
    show Explained (RunError.blob e).isTransient _
    rw [isTransient_of_corrupt (validateChain_corrupt names spec.compaction e chained)]
    exact .final
  | ok chain =>
    -- A sink that is built over a snapshot that was read fails for what is in the snapshot.
    have built : ∀ (store' : Noted StoreReply σ) (snapshot : Option Bytes),
        (∀ name ∈ chain.latest, ∃ bytes, snapshot = some bytes
          ∧ .read name (.ok bytes) ∈ store'.notes) →
        wp (MonadExcept.ofExcept (BlobSink.new store' spec chain snapshot clocks) :
            Program BlobError (Noted StoreReply σ) _) (fun _ _ => True)
          (fun e store'' => Explained (RunError.blob e).isTransient
            (.blob spec clocks store'' : Party σ β)) store' := by
      intro store' snapshot read
      rw [wp_ofExcept]
      cases outcome : BlobSink.new store' spec chain snapshot clocks with
      | ok sink => trivial
      | error e =>
        intro retried _ suits
        have corrupt : Corrupt e := by
          refine new_corrupt (checkEncryption_ok suits.1 active) ?_ e outcome
          intro name latest
          obtain ⟨bytes, same, noted⟩ := read name latest
          exact ⟨by rw [same]; rfl, suits.2 name bytes noted⟩
        rw [isTransient_of_corrupt corrupt] at retried
        cases retried
    dsimp only
    cases latest : chain.latest with
    | none =>
      simp only [wp_bind, wp_pure, wp_get]
      refine built _ none ?_
      intro name never
      rw [latest] at never
      cases never
    | some name =>
      simp only [wp_bind, wp_map, wp_get]
      refine wp_noted (fun bytes party' noted => ?_) (fun e party' noted => failed noted rfl)
      refine built _ (some bytes) ?_
      intro name' same
      rw [latest] at same
      cases same
      exact ⟨bytes, rfl, noted⟩

variable [ConfigLibraries] [Broker β]

/-- What a mirror finds in its environment when it opens its destinations. -/
structure Environment where
  /-- Build the client of a bucket for one identity, or say why it cannot be built. -/
  s3Store : S3Destination → S3Key → Except String Unit
  load : LoadKeyring

/-- What a destination is opened over: its clocks, and the store or the broker behind it. -/
structure Place (σ β : Type) where
  clocks : Clocks
  store : σ
  broker : β

/-- How the sink of a topic is opened. -/
def Config.KafkaDestination.sinkConfig (k : KafkaDestination) (mirror : Config.Mirror) :
    KafkaSinkConfig where
  bootstrapServers := k.bootstrapServers
  topic := k.topic.getD mirror.topic
  partition := mirror.partitionAsI32
  timestampMode := mirror.timestampMode.getD .source
  keys := mirror.keys.getD .utf8
  values := mirror.values.getD .utf8

/-- How the sink of a directory is opened. -/
def filesystemSinkConfig (mirror : Config.Mirror) : Except ResolveError BlobSpec := do
  let params ← resolveBlobParams mirror
  return params.spec mirror none

/-- How the sink of a bucket is opened: its settings, both of its clients and then its keys. -/
def s3SinkConfig (env : Environment) (s3 : S3Destination) (mirror : Config.Mirror) :
    Except String BlobSpec := do
  let params ← (resolveBlobParams mirror).mapError ResolveError.display
  env.s3Store s3 s3.credentials.read
  env.s3Store s3 s3.credentials.write
  let encryption ← (s3Encryption env.load s3).mapError ResolveError.display
  return params.spec mirror encryption

/-- How a sink ended up that was to be opened, and what that left behind. -/
abbrev SinkOpening (σ β : Type) : Type := Except (RunError × List (Party σ β)) (NotedSink σ β)

/-- Open the sink of a directory or a bucket once its settings are resolved. -/
def openBlobSink (place : Place σ β) : Except String BlobSpec → SinkOpening σ β
  | .error message => .error (.other message, [])
  | .ok spec =>
    match BlobSink.openStore spec place.clocks ⟨place.store, []⟩ with
    | .ok sink _ => .ok (.inl (FlushingSink.setFlushObserver sink))
    | .error e store => .error (.blob e, [.blob spec place.clocks store])

/-- Open the sink of a destination, and have it report what it made durable. -/
def openInnerSink (env : Environment) (mirror : Config.Mirror) (place : Place σ β) :
    Destination → SinkOpening σ β
  | .kafka k =>
    match KafkaSink.openSink (k.sinkConfig mirror) ⟨place.broker, []⟩ with
    | .ok sink _ => .ok (.inr ⟨sink.setWriteObserver, 0, [], []⟩)
    | .error e broker => .error (.kafka e, [.kafka (k.sinkConfig mirror) [] broker])
  | .filesystem _ => openBlobSink place ((filesystemSinkConfig mirror).mapError ResolveError.display)
  | .s3 s3 => openBlobSink place (s3SinkConfig env s3 mirror)

/-- Open the sinks of all destinations, one after the other, each in its own place. -/
def openInners (env : Environment) (mirror : Config.Mirror) (places : Nat → Place σ β) :
    List (Destination × Nat) →
      Except (RunError × List (Party σ β)) (List (String × NotedSink σ β))
  | [] => .ok []
  | (dest, i) :: rest =>
    match openInnerSink env mirror (places i) dest with
    | .error (e, parties) => .error (e, parties)
    | .ok sink =>
      match openInners env mirror places rest with
      | .error (e, parties) => .error (e, .ofSink sink :: parties)
      | .ok sinks => .ok ((dest.effectiveName mirror.name, sink) :: sinks)

/-- The source of a mirror. -/
def Config.Mirror.sourceConfig (mirror : Config.Mirror) : KafkaSourceConfig :=
  .new mirror.source.bootstrapServers mirror.effectiveGroupId mirror.topic mirror.partitionAsI32

variable [StreamConsumer κ]

/-- How a mirror ended, and what it leaves behind. -/
structure Ended (κ σ β : Type) where
  outcome : Except RunError Progress
  source : Noted BrokerReply κ
  parties : List (Party σ β)

/-- What a mirror leaves behind whose loop ran. -/
def NotedMirror.ended (m : NotedMirror κ σ β) (outcome : Except RunError Progress) : Ended κ σ β :=
  ⟨outcome, m.source.consumer, m.sink.inners.map (.ofSink ·.sink)⟩

/-- Open a mirror that has destinations and nobody to notify, and run it. -/
def runMirror (env : Environment) (mirror : Config.Mirror) (consumer : κ)
    (places : Nat → Place σ β) (cache : Option CacheBinding) (events : List LoopEvent) :
    Ended κ σ β :=
  match KafkaSource.openSource mirror.sourceConfig ⟨consumer, []⟩ with
  | .error e consumer => ⟨.error (.kafka e), consumer, []⟩
  | .ok source _ =>
    match openInners env mirror places mirror.destinations.zipIdx with
    | .error (e, parties) => ⟨.error e, source.consumer, parties⟩
    | .ok sinks =>
      match TeeSink.openTee cache (TeeSink.slots sinks) with
      | .error e inners => ⟨.error (.sink e), source.consumer, inners.map (.ofSink ·.sink)⟩
      | .ok tee _ =>
        match Mirror.runMirrorWithNotifier events (⟨source, tee, {}⟩ : NotedMirror κ σ β) with
        | .ok progress m => NotedMirror.ended m (.ok progress)
        | .error (.failed e) m => NotedMirror.ended m (.error (.mirror e))
        | .error (.panicked message) m => NotedMirror.ended m (.error (.other message))

/-- An error that can be retried has its reason in one of the destinations. -/
def Blames (e : RunError) (parties : List (Party σ β)) : Prop :=
  e.isTransient = true → ∃ party ∈ parties, party.Reached → ¬ party.Suits

omit [EnvelopeLibraries] in
/-- The active key of a bucket is held once its settings are resolved. -/
theorem active_of_s3SinkConfig {env : Environment} {s3 : S3Destination} {mirror : Config.Mirror}
    {spec : BlobSpec} (resolved : s3SinkConfig env s3 mirror = .ok spec) :
    ∀ enc ∈ spec.encryption, ∃ key, enc.keyring.get enc.keyId = .ok key := by
  obtain ⟨params, -, resolved⟩ := of_bind_ok resolved
  obtain ⟨⟨⟩, -, resolved⟩ := of_bind_ok resolved
  obtain ⟨⟨⟩, -, resolved⟩ := of_bind_ok resolved
  obtain ⟨encryption, keys, resolved⟩ := of_bind_ok resolved
  obtain rfl := Except.ok.inj resolved
  cases read : s3Encryption env.load s3 with
  | error e =>
    rw [read] at keys
    cases keys
  | ok encryption' =>
    rw [read] at keys
    cases keys
    exact (of_s3Encryption read).1

omit [ConfigLibraries] [Broker β] in
/-- A directory or a bucket explains why it could not be opened. -/
theorem openBlobSink_blames {place : Place σ β} {resolved : Except String BlobSpec} {e : RunError}
    {parties : List (Party σ β)}
    (active : ∀ spec, resolved = .ok spec →
      ∀ enc ∈ spec.encryption, ∃ key, enc.keyring.get enc.keyId = .ok key)
    (failed : openBlobSink place resolved = .error (e, parties)) : Blames e parties := by
  cases resolved with
  | error message =>
    -- Settings that cannot be resolved are no error that is retried.
    cases failed
    intro retried
    cases retried
  | ok spec =>
    unfold openBlobSink at failed
    dsimp only at failed
    cases opened : BlobSink.openStore spec place.clocks (⟨place.store, []⟩ : Noted StoreReply σ) with
    | ok sink store =>
      rw [opened] at failed
      cases failed
    | error e' store =>
      rw [opened] at failed
      cases failed
      have explained := wp_of_error
        (@openStore_explained _ σ β _ spec place.clocks ⟨place.store, []⟩ (active spec rfl)) opened
      exact fun retried => ⟨_, List.mem_cons_self, explained retried⟩

/-- A destination explains why it could not be opened. -/
theorem openInnerSink_blames {env : Environment} {mirror : Config.Mirror} {place : Place σ β}
    {dest : Destination} {e : RunError} {parties : List (Party σ β)}
    (failed : openInnerSink env mirror place dest = .error (e, parties)) : Blames e parties := by
  cases dest with
  | kafka k =>
    unfold openInnerSink at failed
    dsimp only at failed
    cases opened : KafkaSink.openSink (k.sinkConfig mirror)
        (⟨place.broker, []⟩ : Noted BrokerReply β) with
    | ok sink broker =>
      rw [opened] at failed
      cases failed
    | error e' broker =>
      rw [opened] at failed
      cases failed
      intro retried
      cases retried
  | filesystem fs =>
    refine openBlobSink_blames (fun spec resolved enc encrypts => ?_) failed
    -- A directory is never encrypted.
    unfold filesystemSinkConfig at resolved
    cases params : resolveBlobParams mirror with
    | error e =>
      rw [params] at resolved
      cases resolved
    | ok params =>
      rw [params] at resolved
      cases resolved
      cases encrypts
  | s3 s3 => exact openBlobSink_blames (fun _ resolved => active_of_s3SinkConfig resolved) failed

/-- Of destinations that could not all be opened, one explains why. -/
theorem openInners_blames {env : Environment} {mirror : Config.Mirror} {places : Nat → Place σ β}
    {destinations : List (Destination × Nat)} {e : RunError} {parties : List (Party σ β)}
    (failed : openInners env mirror places destinations = .error (e, parties)) :
    Blames e parties := by
  -- The first destination that cannot be opened is the one to blame.
  induction destinations generalizing parties with
  | nil => cases failed
  | cons destination rest ih =>
    obtain ⟨dest, i⟩ := destination
    unfold openInners at failed
    cases opened : openInnerSink env mirror (places i) dest with
    | error failure =>
      obtain ⟨e', parties'⟩ := failure
      rw [opened] at failed
      cases failed
      exact openInnerSink_blames opened
    | ok sink =>
      rw [opened] at failed
      dsimp only at failed
      cases others : openInners env mirror places rest with
      | error failure =>
        obtain ⟨e', parties'⟩ := failure
        rw [others] at failed
        cases failed
        intro retried
        obtain ⟨party, mem, explained⟩ := ih others retried
        exact ⟨party, List.mem_cons_of_mem _ mem, explained⟩
      | ok sinks =>
        rw [others] at failed
        cases failed

/-- Destinations that are all opened are as many sinks. -/
theorem openInners_ne_nil {env : Environment} {mirror : Config.Mirror} {places : Nat → Place σ β}
    {destinations : List (Destination × Nat)} {sinks : List (String × NotedSink σ β)}
    (some_ : destinations ≠ []) (opened : openInners env mirror places destinations = .ok sinks) :
    sinks ≠ [] := by
  cases destinations with
  | nil => exact absurd rfl some_
  | cons destination rest =>
    obtain ⟨dest, i⟩ := destination
    unfold openInners at opened
    cases first : openInnerSink env mirror (places i) dest with
    | error failure =>
      rw [first] at opened
      cases opened
    | ok sink =>
      rw [first] at opened
      dsimp only at opened
      cases others : openInners env mirror places rest with
      | error failure =>
        rw [others] at opened
        cases opened
      | ok sinks' =>
        rw [others] at opened
        cases opened
        exact List.cons_ne_nil _ _

omit [ConfigLibraries] in
/-- A tee over some sinks fails with what one of them explains. -/
theorem openTee_explained {sinks : List (String × NotedSink σ β)} {cache : Option CacheBinding}
    (some_ : sinks ≠ []) :
    wp (TeeSink.openTee cache) (fun _ _ => True)
      (fun e inners => ∃ inner ∈ inners, Explained e.isTransient (.ofSink inner.sink))
      (TeeSink.slots sinks) := by
  simp only [TeeSink.openTee, wp_bind, wp_get, wp_ensure, wp_pure]
  rw [if_pos (by simpa [TeeSink.slots] using some_)]
  refine wp_mono (wp_forEach_failed ?_ _) (fun _ _ _ => trivial) (fun _ _ failed => failed)
  exact InnerSink.explained nextExpectedOffset_explained (fun _ => rfl) _ fun _ _ => trivial

end Opening

namespace OutageSample

open scoped Sample

/-- A source partition whose broker answers every request. -/
structure Feed where
  messages : List BorrowedMessage
  position : Int64
  low : Int64
  high : Int64

/-- The first message from the position on, after which the next one is asked for. -/
def Feed.recv : Program RecvError Feed (Option BorrowedMessage) := do
  let s ← get
  match s.messages.find? (s.position ≤ ·.offset) with
  | none => pure none
  | some msg =>
    set { s with position := msg.offset + 1 }
    pure (some msg)

instance : StreamConsumer Feed where
  create _ := pure ()
  fetchWatermarks _ _ := do return ((← get).low, (← get).high)
  send _ _ := throw "nothing is produced here"
  addPartitionOffset _ _ _ := pure ()
  assign _ _ offset := modify fun s => { s with position := offset }
  seek _ _ offset := modify fun s => { s with position := offset }
  recv _ := Feed.recv

/-- A source of one record, whose key is no text. -/
def notText (high : Int64) : Feed :=
  ⟨[⟨"t", 0, 0, .notAvailable, some [255], none, none⟩], 0, 0, high⟩

/-- A mirror to another topic, with text columns, that serves and notifies nobody. -/
def textCopy : Config.Mirror :=
  { FlushSample.kafkaOnly with name := "copy", httpAccess := none, notify := none, partition := 0 }

/-- Nothing in the environment, and nothing in it is asked for. -/
def nowhere : Environment := ⟨fun _ _ => .error "not set", fun _ => .error "no keys"⟩

/-- A destination partition whose broker answers every request. -/
def onto (records : List FutureRecord) (_ : Nat) : Place ObjectStore Partition :=
  ⟨.still 0 0, .answering [], .answering records⟩

/-- A run of the mirror, up to its first poll. -/
def run (high : Int64) (records : List FutureRecord) : Ended Feed ObjectStore Partition :=
  runMirror nowhere textCopy (notText high) (onto records) none [.poll]

end OutageSample

end MirrorV3
