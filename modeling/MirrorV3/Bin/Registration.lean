import MirrorV3.Config.Validate
import MirrorV3.Core.Cache

/-! Every enabled mirror is registered at startup, with what its notifier is to suppress. -/

namespace MirrorV3

open Config Results

/-- Whether the mirror holds the latest value of every key to serve it. -/
def servesCache (mirror : Config.Mirror) : Bool := mirror.hasHttp

/-- What the brokers answer about the partition and the group of a mirror at startup. -/
structure StartupReads where
  fetchHwmForMirror : Config.Mirror → Except String Nat
  fetchCommittedOffsetForMirror : Config.Mirror → Except String (Option Nat)

namespace StartupReads

variable (reads : StartupReads)

/-- Register one mirror with what was read for it. -/
def register (state : CacheState) (m : Config.Mirror) : Except String CacheState := do
  let hwm ← reads.fetchHwmForMirror m
  let lastCommitted ← reads.fetchCommittedOffsetForMirror m
  let isMain := m.httpAccess.any (·.cacheV1Main.isSome)
  return if servesCache m then
      state.registerMirrorWithTopic m.name hwm lastCommitted isMain m.topic m.partition
    else state.registerProgressOnly m.name hwm m.topic m.partition

/-- Register every enabled mirror of a configuration, of which there must be one. -/
def registerEnabled (tolerance : Nat) (cfg : Config) : Except String CacheState :=
  let enabled := cfg.mirrors.filter Config.Mirror.isEnabled
  if enabled = [] then
    .error (s!"all {cfg.mirrors.length} mirror(s) are disabled (enabled: false); nothing to do - "
      ++ "enable at least one mirror or scale this deployment to zero replicas")
  else enabled.foldlM reads.register (.new tolerance)

variable {reads} {state state' : CacheState} {m : Config.Mirror} {hwm : Nat}
  {committed : Option Nat}

/-- A registered mirror suppresses below its commit, or below its watermark if it serves no view. -/
theorem suppressed_of_register (registered : reads.register state m = .ok state')
    (hwmRead : reads.fetchHwmForMirror m = .ok hwm)
    (committedRead : reads.fetchCommittedOffsetForMirror m = .ok committed) (offset : Nat) :
    state'.isRecordSuppressed m.name offset
      = decide (offset < if servesCache m then committed.getD hwm else hwm) := by
  simp only [register, hwmRead, committedRead] at registered
  obtain rfl := Except.ok.inj registered
  cases serves : servesCache m with
  | false => exact CacheState.isRecordSuppressed_insertSlot
  | true =>
    -- Which mirror is the main one has no part in it.
    simp only [CacheState.registerMirrorWithTopic, if_true]
    split <;> exact CacheState.isRecordSuppressed_insertSlot

/-- Registering a mirror changes nothing of what another suppresses. -/
theorem suppressed_of_register_of_ne (registered : reads.register state m = .ok state')
    {other : String} (differs : other ≠ m.name) (offset : Nat) :
    state'.isRecordSuppressed other offset = state.isRecordSuppressed other offset := by
  obtain ⟨hwm, -, registered⟩ := of_bind_ok registered
  obtain ⟨committed, -, registered⟩ := of_bind_ok registered
  obtain rfl := Except.ok.inj registered
  split
  · simp only [CacheState.registerMirrorWithTopic]
    split <;> exact CacheState.isRecordSuppressed_insertSlot_of_ne differs
  · exact CacheState.isRecordSuppressed_insertSlot_of_ne differs

/-- Mirrors that are registered later change nothing of what one with another name suppresses. -/
theorem suppressed_of_foldlM_of_notMem {mirrors : List Config.Mirror}
    (registered : mirrors.foldlM reads.register state = .ok state') {other : String}
    (apart : other ∉ mirrors.map (·.name)) (offset : Nat) :
    state'.isRecordSuppressed other offset = state.isRecordSuppressed other offset := by
  induction mirrors generalizing state with
  | nil =>
    obtain rfl := Except.ok.inj registered
    rfl
  | cons first rest ih =>
    rw [List.foldlM_cons] at registered
    obtain ⟨next, here, later⟩ := of_bind_ok registered
    simp only [List.map_cons, List.mem_cons, not_or] at apart
    rw [ih later apart.2, suppressed_of_register_of_ne here apart.1]

/-- What a mirror suppresses after all of them were registered is settled by its own registration. -/
theorem suppressed_of_foldlM {mirrors : List Config.Mirror} (mem : m ∈ mirrors)
    (apart : (mirrors.map (·.name)).Nodup)
    (registered : mirrors.foldlM reads.register state = .ok state')
    (hwmRead : reads.fetchHwmForMirror m = .ok hwm)
    (committedRead : reads.fetchCommittedOffsetForMirror m = .ok committed) (offset : Nat) :
    state'.isRecordSuppressed m.name offset
      = decide (offset < if servesCache m then committed.getD hwm else hwm) := by
  induction mirrors generalizing state with
  | nil => exact absurd mem List.not_mem_nil
  | cons first rest ih =>
    rw [List.foldlM_cons] at registered
    obtain ⟨next, here, later⟩ := of_bind_ok registered
    rw [List.map_cons, List.nodup_cons] at apart
    rcases List.mem_cons.mp mem with rfl | mem
    · rw [suppressed_of_foldlM_of_notMem later apart.1,
        suppressed_of_register here hwmRead committedRead]
    · exact ih mem apart.2 later

end StartupReads

/-- The documented threshold: the commit of a returning group, the watermark for a fresh one. -/
def suppressionThreshold (bootstrapHwm : Nat) : Option Nat → Nat
  | some committed => committed
  | none => bootstrapHwm

/--
When the records that are suppressed for a mirror are those below the documented threshold.

A mirror that serves a view always has that threshold. One that only notifies has it when its group
has committed nothing, or exactly the watermark.
-/
theorem documented_threshold_iff [ConfigLibraries] {env : String → Option String} {yaml : String}
    {cfg : Config} (loaded : loadFromStr env yaml = .ok cfg) {m : Config.Mirror}
    (mem : m ∈ cfg.mirrors) (enabled : m.isEnabled = true) {reads : StartupReads} {tolerance : Nat}
    {state : CacheState} (registered : reads.registerEnabled tolerance cfg = .ok state)
    {hwm : Nat} {committed : Option Nat} (hwmRead : reads.fetchHwmForMirror m = .ok hwm)
    (committedRead : reads.fetchCommittedOffsetForMirror m = .ok committed) :
    (∀ offset, state.isRecordSuppressed m.name offset = true
        ↔ offset < suppressionThreshold hwm committed)
      ↔ servesCache m = true ∨ committed = none ∨ committed = some hwm := by
  have apart : ((cfg.mirrors.filter Config.Mirror.isEnabled).map (·.name)).Nodup :=
    (nodup_names_of_loadFromStr loaded).sublist (List.filter_sublist.map _)
  have listed : m ∈ cfg.mirrors.filter Config.Mirror.isEnabled := List.mem_filter.mpr ⟨mem, enabled⟩
  unfold StartupReads.registerEnabled at registered
  simp only [List.ne_nil_of_mem listed, if_false] at registered
  have suppressed := StartupReads.suppressed_of_foldlM listed apart registered hwmRead committedRead
  simp only [suppressed, decide_eq_true_eq]
  constructor
  · intro documented
    cases serves : servesCache m with
    | true => exact .inl rfl
    | false =>
      cases committed with
      | none => exact .inr (.inl rfl)
      | some committed =>
        -- Two thresholds that admit the same offsets are one.
        simp only [serves, Bool.false_eq_true, if_false, suppressionThreshold] at documented
        have low := documented hwm
        have high := documented committed
        obtain rfl : committed = hwm := by omega
        exact .inr (.inr rfl)
  · rintro (serves | rfl | rfl) offset
    · rw [if_pos serves]
      cases committed <;> rfl
    · simp [suppressionThreshold]
    · simp [suppressionThreshold]

namespace Sample

/-- A mirror that only notifies, of a group that has committed. -/
def notifyOnly : Config.Mirror where
  name := "feed"
  source := ⟨"broker:9092", none⟩
  topic := "t"
  partition := 0
  destinations := []
  format := none
  compression := none
  keys := none
  values := none
  compaction := none
  flush := none
  timestampMode := none
  httpAccess := none
  enabled := none
  notify := some {
    api := .kkvV1
    targets := [⟨"http://hook", .none⟩]
    trigger := ⟨.sourceConsume, some ⟨100, 250⟩⟩
    timeoutMs := 5000
    retry := ⟨5, 100⟩
    outcomes := ⟨⟨true, .fail⟩, ⟨true, .fail⟩, ⟨false, .accept⟩, ⟨false, .fail⟩, ⟨false, .fail⟩,
      ⟨true, .fail⟩⟩ }

/-- The same with a view to read the notified keys from. -/
def notifyAndServe : Config.Mirror :=
  { notifyOnly with
    name := "served"
    source := ⟨"broker:9092", some "served"⟩
    httpAccess := some ⟨some (), some ()⟩ }

/-- Libraries that read the one text there is. -/
scoped instance configLibraries : ConfigLibraries where
  fromStr text := if text = "both" then .ok ⟨[notifyOnly, notifyAndServe]⟩ else .error "not a sample"
  parseUrl text :=
    if text = "http://hook" then .ok ⟨"http", some "hook"⟩ else .error "not a sample"
  debug := String.quote

/-- The text read with them is accepted. -/
theorem loadFromStr_both :
    loadFromStr (fun _ => none) "both" = .ok ⟨[notifyOnly, notifyAndServe]⟩ := by
  decide +kernel

/-- Brokers that have ten records, of which every group has committed the first four. -/
def fourCommitted : StartupReads := ⟨fun _ => .ok 10, fun _ => .ok (some 4)⟩

/-- What they are registered as. -/
def bothRegistered : CacheState :=
  (fourCommitted.registerEnabled 0 ⟨[notifyOnly, notifyAndServe]⟩).toOption.getD (.new 0)

/-- Both mirrors are registered. -/
theorem registerEnabled_both :
    fourCommitted.registerEnabled 0 ⟨[notifyOnly, notifyAndServe]⟩ = .ok bothRegistered := rfl

/-- The mirror that serves a view notifies again from the commit on. -/
theorem documented_threshold_iff_sample :
    bothRegistered.isRecordSuppressed "served" 3 = true
      ∧ ¬ bothRegistered.isRecordSuppressed "served" 4 = true := by
  have documented := (documented_threshold_iff loadFromStr_both
    (List.mem_cons_of_mem _ List.mem_cons_self) rfl registerEnabled_both rfl rfl).mpr (.inl rfl)
  refine ⟨(documented 3).mpr ?_, mt (documented 4).mp ?_⟩
  · show 3 < 4
    omega
  · show ¬ 4 < 4
    omega

/-- The mirror that only notifies drops record 4, which was never notified. -/
theorem uncommitted_suppressed :
    loadFromStr (fun _ => none) "both" = .ok ⟨[notifyOnly, notifyAndServe]⟩
      ∧ fourCommitted.registerEnabled 0 ⟨[notifyOnly, notifyAndServe]⟩ = .ok bothRegistered
      ∧ fourCommitted.fetchHwmForMirror notifyOnly = .ok 10
      ∧ fourCommitted.fetchCommittedOffsetForMirror notifyOnly = .ok (some 4)
      ∧ bothRegistered.isRecordSuppressed "feed" 4 = true
      ∧ ¬ 4 < suppressionThreshold 10 (some 4) :=
  ⟨loadFromStr_both, registerEnabled_both, rfl, rfl, by decide, by decide⟩

end Sample

end MirrorV3
