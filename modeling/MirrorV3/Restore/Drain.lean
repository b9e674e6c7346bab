import MirrorV3.Restore.Restored

/-! When a restore that fails has waited for every record it queued. -/

namespace MirrorV3

open Effect

/--
A broker whose every answer is known beforehand.

A record is in flight from when the queue takes it until its delivery report is received.
-/
structure Foretold where
  /-- Whether each record that is offered is refused. -/
  admissions : Stream' (Option QueueError)
  /-- What is reported of each record that was queued. -/
  reports : Nat → Except DeliveryError Delivery
  /-- What every other request is answered. -/
  answers : Stream' (Except String (Int64 × Int64))
  queued : Nat
  /-- The records that were reported on, the last one first. -/
  resolved : List Nat

namespace Foretold

/-- Ask for something that is not a delivery. -/
def request : Program String Foretold (Int64 × Int64) := do
  let s ← get
  set { s with answers := s.answers.tail }
  MonadExcept.ofExcept s.answers.head

/-- Offer a record to the queue. -/
def sendResult : Program QueueError Foretold Nat := do
  let s ← get
  match s.admissions.head with
  | some error =>
    set { s with admissions := s.admissions.tail }
    throw error
  | none =>
    set { s with admissions := s.admissions.tail, queued := s.queued + 1 }
    pure s.queued

/-- Wait for the report on one record, after which it is no longer in flight. -/
def delivery (ticket : Nat) : Program DeliveryError Foretold Delivery := do
  modify fun s => { s with resolved := ticket :: s.resolved }
  MonadExcept.ofExcept ((← get).reports ticket)

instance : QueueingBroker Foretold where
  create _ := do
    let _ ← request
  fetchWatermarks _ _ := request
  send _ _ := do
    let ticket ← focus ⟨id, fun s _ => s⟩ QueueError.display sendResult
    let delivered ← focus ⟨id, fun s _ => s⟩ (RestoreProducer.notDelivered ticket) (delivery ticket)
    pure delivered.offset
  sendResult _ _ := sendResult
  delivery := delivery
  flush := do
    let _ ← request

/-- No record that was queued is in flight. -/
def AllResolved (s : Foretold) : Prop := ∀ ticket < s.queued, ticket ∈ s.resolved

end Foretold

/-- A record in flight will be reported delivered to the partition and offset it was sent for. -/
def Lands (s : RestoreProducer Foretold) (entry : Nat × Nat) : Prop :=
  ∃ delivered, s.broker.reports entry.2 = .ok delivered
    ∧ delivered.partition = s.partition ∧ delivered.offset = Int64.ofNat entry.1

/-- Every record in flight will land where it was sent for, except possibly the last of them. -/
def AllButLastLand (s : RestoreProducer Foretold) : Prop :=
  ∀ entry ∈ s.inFlight.dropLast, Lands s entry

section Target

variable {s s' : RestoreProducer Foretold}

/-- Every record that was queued was reported on or is in the window, and not both. -/
structure Tracked (s : RestoreProducer Foretold) : Prop where
  covered : ∀ ticket < s.broker.queued, ticket ∈ s.broker.resolved ∨ ticket ∈ s.inFlight.map (·.2)
  unresolved : ∀ ticket ∈ s.inFlight.map (·.2), ticket < s.broker.queued
    ∧ ticket ∉ s.broker.resolved
  distinct : (s.inFlight.map (·.2)).Nodup
  known : ∀ ticket ∈ s.broker.resolved, ticket < s.broker.queued

/-- A step leaves what will be reported as it was, and where the records are sent. -/
def SameReports (s s' : RestoreProducer Foretold) : Prop :=
  s'.broker.reports = s.broker.reports ∧ s'.partition = s.partition

/-- With an empty window nothing is in flight. -/
theorem Tracked.allResolved (tracked : Tracked s) (empty : s.inFlight = []) :
    s.broker.AllResolved := by
  intro ticket below
  rcases tracked.covered ticket below with reported | waiting
  · exact reported
  · rw [empty] at waiting
    cases waiting

/-- With a record in the window something is. -/
theorem Tracked.inFlight_eq_nil (tracked : Tracked s) (all : s.broker.AllResolved) :
    s.inFlight = [] := by
  cases window : s.inFlight with
  | nil => rfl
  | cons entry rest =>
    have open_ := tracked.unresolved entry.2 (by simp [window])
    exact absurd (all entry.2 open_.1) open_.2

/-- Whether a record lands depends on nothing that a step changes. -/
theorem SameReports.lands {entry : Nat × Nat} (same : SameReports s s') :
    Lands s' entry ↔ Lands s entry := by
  simp only [Lands, same.1, same.2]

/-- The oldest record leaves the window with its report, which is good exactly when it lands. -/
theorem ackOldest_tracked {entry : Nat × Nat} {rest : List (Nat × Nat)} (tracked : Tracked s)
    (window : s.inFlight = entry :: rest) :
    wp RestoreProducer.ackOldest
      (fun _ s' => Lands s entry ∧ Tracked s' ∧ s'.inFlight = rest ∧ SameReports s s')
      (fun _ s' => ¬ Lands s entry ∧ Tracked s' ∧ s'.inFlight = rest ∧ SameReports s s') s := by
  obtain ⟨offset, ticket⟩ := entry
  have distinct := tracked.distinct
  rw [window, List.map_cons, List.nodup_cons] at distinct
  -- Once the oldest ticket is resolved, the rest of the window is tracked as before.
  have reported : Tracked { s with
      broker := { s.broker with resolved := ticket :: s.broker.resolved }
      inFlight := rest } := by
    refine ⟨?_, ?_, distinct.2, ?_⟩
    · intro other below
      rcases tracked.covered other below with before | waiting
      · exact .inl (List.mem_cons_of_mem _ before)
      · rw [window, List.map_cons] at waiting
        rcases List.mem_cons.mp waiting with here | later
        · exact .inl (List.mem_cons.mpr (.inl here))
        · exact .inr later
    · intro other waiting
      have open_ := tracked.unresolved other (by
        rw [window, List.map_cons]
        exact List.mem_cons_of_mem _ waiting)
      refine ⟨open_.1, ?_⟩
      intro resolved
      rcases List.mem_cons.mp resolved with here | before
      · -- No other record in flight has this one's ticket.
        rw [here] at waiting
        exact distinct.1 waiting
      · exact open_.2 before
    · intro other resolved
      rcases List.mem_cons.mp resolved with here | before
      · rw [here]
        exact (tracked.unresolved ticket (by simp [window])).1
      · exact tracked.known other before
  simp only [RestoreProducer.ackOldest, wp_bind, wp_get, window, wp_set, wp_focus, wp_ensure,
    RestoreProducer.brokerPart, QueueingBroker.delivery, Foretold.delivery, wp_modify, wp_ofExcept]
  -- Whether the report was a failure or told of another offset, the ticket is resolved.
  cases outcome : s.broker.reports ticket with
  | error e =>
    refine ⟨?_, reported, trivial, rfl, rfl⟩
    rintro ⟨delivered, report, _⟩
    rw [outcome] at report
    cases report
  | ok delivered =>
    dsimp only
    split
    · rename_i placed
      exact ⟨⟨delivered, outcome, placed⟩, reported, trivial, rfl, rfl⟩
    · rename_i misplaced
      refine ⟨?_, reported, trivial, rfl, rfl⟩
      rintro ⟨delivered', report, placed⟩
      rw [outcome] at report
      cases report
      exact misplaced placed

/-- Of a window that starts with a record all but the last land when it does, or is the last. -/
theorem allButLastLand_cons {entry : Nat × Nat} {rest : List (Nat × Nat)}
    (window : s.inFlight = entry :: rest) :
    AllButLastLand s ↔ rest = [] ∨ Lands s entry ∧ ∀ later ∈ rest.dropLast, Lands s later := by
  cases rest with
  | nil => simp [AllButLastLand, window]
  | cons next rest => simp [AllButLastLand, window]

/-- Waiting for the window empties it, unless a record that is not its last one goes bad. -/
theorem drain_tracked {window : List (Nat × Nat)} (tracked : Tracked s)
    (here : s.inFlight = window) :
    wp (RestoreProducer.drain window.length)
      (fun _ s' => Tracked s' ∧ s'.inFlight = [] ∧ AllButLastLand s)
      (fun _ s' => Tracked s' ∧ (s'.inFlight = [] ↔ AllButLastLand s)) s := by
  induction window generalizing s with
  | nil => exact ⟨tracked, here, by simp [AllButLastLand, here]⟩
  | cons entry rest ih =>
    simp only [List.length_cons, RestoreProducer.drain, wp_bind]
    have split := allButLastLand_cons here
    apply wp_mono (ackOldest_tracked tracked here)
    · rintro _ s' ⟨lands, tracked', here', same⟩
      -- The reports on the records behind this one are the same as before.
      have later : AllButLastLand s' → AllButLastLand s := by
        intro land
        refine split.mpr (.inr ⟨lands, ?_⟩)
        intro other mem
        exact same.lands.mp (land other (by rw [here']; exact mem))
      have earlier : AllButLastLand s → AllButLastLand s' := by
        intro land other mem
        rw [here'] at mem
        rcases split.mp land with last | ⟨_, rest⟩
        · rw [last] at mem
          cases mem
        · exact same.lands.mpr (rest other mem)
      apply wp_mono (ih tracked' here')
      · rintro _ s'' ⟨tracked'', empty, land⟩
        exact ⟨tracked'', empty, later land⟩
      · rintro _ s'' ⟨tracked'', iff⟩
        exact ⟨tracked'', fun empty => later (iff.mp empty), fun land => iff.mpr (earlier land)⟩
    · rintro _ s' ⟨bad, tracked', here', _⟩
      refine ⟨tracked', ?_, ?_⟩
      · intro empty
        exact split.mpr (.inl (here'.symm.trans empty))
      · intro land
        rcases split.mp land with last | ⟨lands, _⟩
        · exact here'.trans last
        · exact absurd lands bad

/-- A request that is not about a delivery leaves everything in flight as it was. -/
theorem request_tracked (s : Foretold) :
    wp Foretold.request (fun _ s' => s'.queued = s.queued ∧ s'.resolved = s.resolved)
      (fun _ s' => s'.queued = s.queued ∧ s'.resolved = s.resolved) s := by
  simp only [Foretold.request, wp_bind, wp_get, wp_set, wp_ofExcept]
  cases s.answers.head <;> trivial

/-- After a wait no record is in flight, unless one that was not the last went bad. -/
theorem finish_tracked (tracked : Tracked s) :
    wp RestoreProducer.finish (fun _ s' => s'.broker.AllResolved ∧ AllButLastLand s)
      (fun _ s' => s'.broker.AllResolved ↔ AllButLastLand s) s := by
  simp only [RestoreProducer.finish, wp_bind, wp_get, wp_focus, RestoreProducer.brokerPart,
    QueueingBroker.flush, wp_pure]
  apply wp_mono (drain_tracked tracked rfl)
  · rintro _ s' ⟨tracked', empty, land⟩
    have all := tracked'.allResolved empty
    -- The flush waits for nothing that was not waited for.
    have kept : ∀ broker : Foretold, broker.queued = s'.broker.queued
        ∧ broker.resolved = s'.broker.resolved → broker.AllResolved := by
      rintro broker ⟨count, resolved⟩ ticket below
      rw [resolved]
      exact all ticket (by omega)
    apply wp_mono (request_tracked s'.broker)
    · intro _ broker same
      exact ⟨kept broker same, land⟩
    · intro _ broker same
      exact iff_of_true (kept broker same) land
  · rintro _ s' ⟨tracked', iff⟩
    exact ⟨fun all => iff.mp (tracked'.inFlight_eq_nil all),
      fun land => tracked'.allResolved (iff.mpr land)⟩

/-- A step that fails leaves an empty window empty. -/
def FailsWithout (s s' : RestoreProducer Foretold) : Prop :=
  Tracked s' ∧ (s.inFlight = [] → s'.inFlight = [])

/-- Making room in the window keeps track of every record. -/
theorem makeRoom_tracked (tracked : Tracked s) :
    wp RestoreProducer.ackOldest (fun _ => FailsWithout s) (fun _ => FailsWithout s) s := by
  cases window : s.inFlight with
  | nil =>
    simp only [RestoreProducer.ackOldest, wp_bind, wp_get, window, wp_pure]
    exact ⟨tracked, id⟩
  | cons entry rest =>
    have never : s.inFlight ≠ [] := by
      rw [window]
      exact List.cons_ne_nil _ _
    apply wp_mono (ackOldest_tracked tracked window)
    · rintro _ s' ⟨_, tracked', _⟩
      exact ⟨tracked', fun empty => absurd empty never⟩
    · rintro _ s' ⟨_, tracked', _⟩
      exact ⟨tracked', fun empty => absurd empty never⟩

/-- A record that is taken is tracked, and one that is refused changes nothing in flight. -/
theorem trySend_tracked (record : FutureRecord) (offset : Nat) (tracked : Tracked s) :
    wp (RestoreProducer.trySend record)
      (fun answer s' => match answer with
        | .ok ticket => Tracked (RestoreProducer.push offset ticket s')
        | .error _ => FailsWithout s s') (fun _ _ => False) s := by
  simp only [RestoreProducer.trySend, wp_bind, wp_get, wp_focus, wp_attempt,
    RestoreProducer.brokerPart, QueueingBroker.sendResult, Foretold.sendResult]
  cases s.broker.admissions.head with
  | some error =>
    exact ⟨⟨tracked.covered, tracked.unresolved, tracked.distinct, tracked.known⟩, id⟩
  | none =>
    -- The ticket is one that no record had before.
    refine ⟨?_, ?_, ?_, ?_⟩
    · intro ticket below
      show _ ∨ ticket ∈ (s.inFlight ++ [(offset, s.broker.queued)]).map (·.2)
      rw [List.map_append, List.mem_append]
      have bound : ticket < s.broker.queued + 1 := below
      by_cases new : ticket = s.broker.queued
      · exact .inr (.inr (by simp [new]))
      · rcases tracked.covered ticket (by omega) with reported | waiting
        · exact .inl reported
        · exact .inr (.inl waiting)
    · intro ticket waiting
      have waiting : ticket ∈ (s.inFlight ++ [(offset, s.broker.queued)]).map (·.2) := waiting
      show ticket < s.broker.queued + 1 ∧ ticket ∉ s.broker.resolved
      rw [List.map_append, List.mem_append] at waiting
      rcases waiting with before | new
      · have open_ := tracked.unresolved ticket before
        exact ⟨by omega, open_.2⟩
      · have here : ticket = s.broker.queued := by simpa using new
        refine ⟨by omega, ?_⟩
        intro resolved
        have := tracked.known ticket resolved
        omega
    · show ((s.inFlight ++ [(offset, s.broker.queued)]).map (·.2)).Nodup
      rw [List.map_append, List.nodup_append]
      refine ⟨tracked.distinct, by simp, ?_⟩
      intro ticket before new mem same
      have open_ := tracked.unresolved ticket before
      have here : new = s.broker.queued := by simpa using mem
      omega
    · intro ticket resolved
      have := tracked.known ticket resolved
      show ticket < s.broker.queued + 1
      omega

/-- However often the queue is full, every record that was queued is tracked. -/
theorem enqueue_tracked (record : FutureRecord) (offset : Nat) {count : Nat} (tracked : Tracked s) :
    wp (RestoreProducer.enqueue record offset count) (fun _ => Tracked) (fun _ => FailsWithout s)
      s := by
  -- By induction on the tries: a queue that is full is tried again after one report came in.
  induction count generalizing s with
  | zero =>
    simp only [RestoreProducer.enqueue, wp_bind]
    apply wp_mono (trySend_tracked record offset tracked)
    · intro answer s' told
      cases answer with
      | ok ticket => exact told
      | error e => exact told
    · intro _ _ never
      exact never.elim
  | succ count ih =>
    simp only [RestoreProducer.enqueue, wp_bind]
    apply wp_mono (trySend_tracked record offset tracked)
    · intro answer s' told
      cases answer with
      | ok ticket => exact told
      | error e =>
        cases e with
        | queueFull =>
          simp only [wp_bind]
          apply wp_mono (makeRoom_tracked told.1)
          · intro _ s'' room
            apply wp_mono (ih room.1)
            · intro _ _ tracked'
              exact tracked'
            · intro _ _ failed
              exact ⟨failed.1, fun empty => failed.2 (room.2 (told.2 empty))⟩
          · intro _ s'' room
            exact ⟨room.1, fun empty => room.2 (told.2 empty)⟩
        | other message => exact told
    · intro _ _ never
      exact never.elim

/-- A record that is sent is tracked, and one that is not changes nothing in an empty window. -/
theorem send_tracked [PayloadParsers] (record : Record) (offset : Nat) (tracked : Tracked s) :
    wp (RestoreProducer.send record offset) (fun _ => Tracked) (fun _ => FailsWithout s) s := by
  simp only [RestoreProducer.send, wp_bind, wp_get, wp_ofExcept, wp_ensure, wp_ite]
  cases s.keys.validate "key" offset record.key with
  | error message => exact ⟨tracked, id⟩
  | ok valid =>
    cases s.values.validate "value" offset record.value with
    | error message => exact ⟨tracked, id⟩
    | ok valid =>
      dsimp only
      split
      · split
        · apply wp_mono (makeRoom_tracked tracked)
          · intro _ s' room
            apply wp_mono (enqueue_tracked _ offset room.1)
            · intro _ _ tracked'
              exact tracked'
            · intro _ _ failed
              exact ⟨failed.1, fun empty => failed.2 (room.2 empty)⟩
          · intro _ _ room
            exact room
        · exact enqueue_tracked _ offset tracked
      · exact ⟨tracked, id⟩

end Target

section Restore

variable [EnvelopeLibraries] [ByteDigest] {σ : Type} [BlobStore σ] {reader : Reader}
  {mode : OffsetMode} {s : Restoring σ (RestoreProducer Foretold)}

/-- A restore that knows what is in flight, which is nothing before it has sent anything. -/
structure InTouch (s : Restoring σ (RestoreProducer Foretold)) : Prop where
  tracked : Tracked s.target
  untouched : s.next = 0 → s.target.inFlight = []

omit [ByteDigest] [BlobStore σ] in
/-- Sending a record, or failing to, keeps in touch. -/
theorem sendRecord_inTouch (record : Record) (inTouch : InTouch s) :
    wp (Restoring.sendRecord mode record) (fun _ => InTouch) (fun _ => InTouch) s := by
  have sends : ∀ record : Record,
      wp (RestoreTarget.send record s.next : Program String (RestoreProducer Foretold) Unit)
        (fun _ target => InTouch { s with target, next := s.next + 1 })
        (fun _ target => InTouch { s with target }) s.target := by
    intro record
    apply wp_mono (send_tracked record s.next inTouch.tracked)
    · intro _ target tracked
      exact ⟨tracked, fun zero => absurd zero (Nat.succ_ne_zero _)⟩
    · intro _ target failed
      exact ⟨failed.1, fun zero => failed.2 (inTouch.untouched zero)⟩
  simp only [Restoring.sendRecord, wp_bind, wp_get]
  cases mode with
  | preserve =>
    simp only [wp_ensure, wp_bind, wp_focus, Restoring.targetPart, wp_modify]
    split
    · exact sends record
    · exact inTouch
  | renumber =>
    simp only [wp_bind, wp_focus, Restoring.targetPart, wp_modify]
    exact sends _

omit [ByteDigest] [BlobStore σ] in
/-- So do all records of an object. -/
theorem sendRecords_inTouch (records : List Record) (inTouch : InTouch s) :
    wp (records.forM (Restoring.sendRecord mode)) (fun _ => InTouch) (fun _ => InTouch) s := by
  induction records generalizing s with
  | nil => exact inTouch
  | cons record records ih =>
    show wp (Restoring.sendRecord mode record >>= fun _ => records.forM _) _ _ s
    rw [wp_bind]
    apply wp_mono (sendRecord_inTouch record inTouch)
    · intro _ s' inTouch'
      exact ih inTouch'
    · intro _ _ inTouch'
      exact inTouch'

/-- So do all objects of a chain, whatever is read of them. -/
theorem sendAll_inTouch (chain : List ChainObject) (objects : List ObjectSummary)
    (inTouch : InTouch s) :
    wp (Restoring.sendAll reader mode chain objects) (fun _ => InTouch) (fun _ => InTouch) s := by
  induction chain generalizing objects s with
  | nil => exact inTouch
  | cons object chain ih =>
    cases objects with
    | nil => exact inTouch
    | cons verified objects =>
      -- The store is no part of what is in flight.
      have other : ∀ store : σ, InTouch { s with store } := fun store =>
        ⟨inTouch.tracked, inTouch.untouched⟩
      simp only [Restoring.sendAll, Restoring.sendObject, wp_bind, wp_focus, wp_get, wp_ensure,
        Restoring.storePart]
      apply wp_any
      · intro read store
        split
        · apply wp_mono (sendRecords_inTouch read.1 (other store))
          · intro _ s' inTouch'
            exact ih objects inTouch'
          · intro _ _ inTouch'
            exact inTouch'
        · exact other store
      · intro _ store
        exact other store

omit [EnvelopeLibraries] [ByteDigest] in
/-- Asking for watermarks is no delivery. -/
theorem asked_tracked [PayloadParsers] (target : RestoreProducer Foretold) :
    wp (RestoreTarget.highWatermark : Program String (RestoreProducer Foretold) Nat)
      (fun _ target' => target'.inFlight = target.inFlight
        ∧ target'.broker.queued = target.broker.queued
        ∧ target'.broker.resolved = target.broker.resolved)
      (fun _ target' => target'.inFlight = target.inFlight
        ∧ target'.broker.queued = target.broker.queued
        ∧ target'.broker.resolved = target.broker.resolved) target := by
  simp only [RestoreTarget.highWatermark, wp_bind, wp_get, wp_focus, RestoreProducer.brokerPart,
    fetchHighWatermark, fetchWatermarks, Broker.create, Broker.fetchWatermarks, id, wp_pure,
    wp_ofExcept]
  apply wp_mono (request_tracked target.broker)
  · rintro _ broker ⟨count, resolved⟩
    apply wp_mono (request_tracked broker)
    · rintro marks broker' ⟨count', resolved'⟩
      have same := And.intro (count'.trans count) (resolved'.trans resolved)
      split
      · split
        · exact ⟨trivial, same⟩
        · exact ⟨trivial, same⟩
      · exact ⟨trivial, same⟩
    · rintro _ broker' ⟨count', resolved'⟩
      exact ⟨trivial, count'.trans count, resolved'.trans resolved⟩
  · intro _ broker same
    exact ⟨trivial, same⟩

/-- A restore that has only begun has queued nothing, and keeps in touch while it sends. -/
theorem untilDrain_inTouch (chain : List ChainObject) (summary : BackupSummary)
    (tracked : Tracked s.target) (idle : s.target.inFlight = []) :
    wp (Restoring.untilDrain reader chain summary mode) (fun _ => InTouch)
      (fun _ s' => s'.target.broker.AllResolved) s := by
  have all := tracked.allResolved idle
  -- Asking the target for its end leaves what is in flight as it is.
  have kept : ∀ target : RestoreProducer Foretold, target.inFlight = s.target.inFlight
      ∧ target.broker.queued = s.target.broker.queued
      ∧ target.broker.resolved = s.target.broker.resolved →
      Tracked target ∧ target.inFlight = [] := by
    rintro target ⟨window, count, resolved⟩
    refine ⟨⟨?_, ?_, ?_, ?_⟩, window.trans idle⟩
    · rw [window, count, resolved]
      exact tracked.covered
    · rw [window, count, resolved]
      exact tracked.unresolved
    · rw [window]
      exact tracked.distinct
    · rw [count, resolved]
      exact tracked.known
  simp only [Restoring.untilDrain, wp_bind, wp_ofExcept, wp_ensure, wp_focus, wp_modify,
    wp_attempt, Restoring.targetPart]
  cases mode.check summary with
  | error e => exact all
  | ok _ =>
    dsimp only
    split
    · apply wp_mono (asked_tracked s.target)
      · intro start target same
        obtain ⟨tracked', idle'⟩ := kept target same
        split
        · apply wp_mono (sendAll_inTouch chain summary.objects ⟨tracked', fun _ => idle'⟩)
          · intro _ _ inTouch
            exact inTouch
          · intro _ _ inTouch
            exact inTouch
        · exact tracked'.allResolved idle'
      · intro _ target same
        obtain ⟨tracked', idle'⟩ := kept target same
        exact tracked'.allResolved idle'
    · exact all

omit [ByteDigest] [BlobStore σ] in
/-- From the moment it waits, a restore fails with nothing in flight unless a record went bad. -/
theorem fromDrain_allResolved (summary : BackupSummary) (outcome : Except RestoreError Unit)
    (inTouch : InTouch s) :
    wp (Restoring.fromDrain summary outcome) (fun _ _ => AllButLastLand s.target)
      (fun _ s' => s'.target.broker.AllResolved ↔ AllButLastLand s.target) s := by
  -- An outcome that is an error already is kept, and the drain still waits for what is in flight.
  cases outcome with
  | error e =>
    simp only [Restoring.fromDrain, Restoring.drained, wp_bind, wp_get, wp_ite, wp_throw, wp_focus,
      wp_attempt, Restoring.targetPart]
    split
    · rename_i zero
      have empty := inTouch.untouched zero
      exact iff_of_true (inTouch.tracked.allResolved empty) (by simp [AllButLastLand, empty])
    · apply wp_mono (finish_tracked inTouch.tracked)
      · rintro _ _ ⟨all, land⟩
        exact iff_of_true all land
      · intro _ _ iff
        exact iff
  | ok _ =>
    simp only [Restoring.fromDrain, wp_bind, wp_focus, wp_get, wp_ensure, wp_pure,
      Restoring.targetPart]
    apply wp_mono (finish_tracked inTouch.tracked)
    · rintro _ target ⟨all, land⟩
      have kept : ∀ target' : RestoreProducer Foretold, target'.inFlight = target.inFlight
          ∧ target'.broker.queued = target.broker.queued
          ∧ target'.broker.resolved = target.broker.resolved →
          target'.broker.AllResolved := by
        rintro target' ⟨_, count, resolved⟩ ticket below
        rw [resolved]
        exact all ticket (by omega)
      apply wp_mono (asked_tracked target)
      · intro _ target' same
        split
        · exact land
        · exact iff_of_true (kept target' same) land
      · intro _ target' same
        exact iff_of_true (kept target' same) land
    · intro _ _ iff
      exact iff

/--
A failed restore has waited for every record it queued exactly when no record but the last goes bad.

What counts are the records in flight when it starts to wait for them, for whatever reason.
-/
theorem allResolved_iff (reader : Reader) (chain : List ChainObject) (summary : BackupSummary)
    (mode : OffsetMode) (idle : s.target.inFlight = [])
    (unused : s.target.broker.queued = 0 ∧ s.target.broker.resolved = []) :
    (∀ e s', Restoring.produce reader chain summary mode s = .error e s' →
        s'.target.broker.AllResolved)
      ↔ ∀ outcome s₁, Restoring.untilDrain reader chain summary mode s = .ok outcome s₁ →
          AllButLastLand s₁.target := by
  have tracked : Tracked s.target := by
    refine ⟨?_, ?_, ?_, ?_⟩
    · intro ticket below
      omega
    · simp [idle]
    · simp [idle]
    · simp [unused.2]
  have begins : wp (Restoring.untilDrain reader chain summary mode) (fun _ => InTouch)
      (fun _ s' => s'.target.broker.AllResolved) s :=
    untilDrain_inTouch chain summary tracked idle
  cases run : Restoring.untilDrain reader chain summary mode s with
  | error e s' =>
    -- A restore that never waits has nothing to wait for.
    have failed : Restoring.produce reader chain summary mode s = .error e s' := by
      simp only [Restoring.produce, bind, EStateM.bind, run]
    constructor
    · intro _ _ _ never
      cases never
    · intro _ e' s'' failed'
      rw [failed] at failed'
      cases failed'
      exact wp_of_error begins run
  | ok outcome s₁ =>
    have rest : Restoring.produce reader chain summary mode s
        = Restoring.fromDrain summary outcome s₁ := by
      simp only [Restoring.produce, bind, EStateM.bind, run]
    have ends := fromDrain_allResolved summary outcome (wp_of_ok begins run)
    rw [rest]
    constructor
    · intro all outcome' s₁' begun
      cases begun
      cases final : Restoring.fromDrain summary outcome s₁ with
      | ok report s' => exact wp_of_ok ends final
      | error e s' => exact (wp_of_error ends final).mp (all e s' final)
    · intro land e s' final
      exact (wp_of_error ends final).mpr (land outcome s₁ rfl)

end Restore

namespace Sample

/-- A restore whose broker takes every record, and reports on them in this way. -/
def reporting (reports : Nat → Except DeliveryError Delivery) :
    Restoring ObjectStore (RestoreProducer Foretold) where
  store := backup
  target :=
    { broker := ⟨Stream'.const none, reports, Stream'.const (.ok (0, 0)), 0, []⟩
      producer := []
      bootstrapServers := ""
      topic := "t"
      partition := 0
      keys := .bytes
      values := .bytes
      maxMessageBytes := 1000000
      window := defaultWindow
      inFlight := [] }
  next := 0

/-- Every record is delivered but one. -/
def oneLost (lost ticket : Nat) : Except DeliveryError Delivery :=
  if ticket = lost then .error (.failed "timed out") else .ok ⟨0, Int64.ofNat ticket⟩

/-- When the last of three records is lost, the other two were waited for as well. -/
theorem allResolved_of_last_lost :
    ∃ e s', Restoring.produce reader backedUp backupSummary .preserve (reporting (oneLost 2))
      = .error e s' ∧ s'.target.broker.AllResolved := by
  have failed : value? (Restoring.produce reader backedUp backupSummary .preserve
      (reporting (oneLost 2))) = none := by decide +kernel
  have waiting : (after (Restoring.untilDrain reader backedUp backupSummary .preserve)
        (reporting (oneLost 2))).target.inFlight = [(0, 0), (1, 1), (2, 2)]
      ∧ (after (Restoring.untilDrain reader backedUp backupSummary .preserve)
        (reporting (oneLost 2))).target.partition = 0
      ∧ (after (Restoring.untilDrain reader backedUp backupSummary .preserve)
        (reporting (oneLost 2))).target.broker.reports 0 = .ok ⟨0, 0⟩
      ∧ (after (Restoring.untilDrain reader backedUp backupSummary .preserve)
        (reporting (oneLost 2))).target.broker.reports 1 = .ok ⟨0, 1⟩ := by decide +kernel
  have all := (allResolved_iff reader backedUp backupSummary .preserve
    (s := reporting (oneLost 2)) rfl ⟨rfl, rfl⟩).mpr (by
      intro outcome s₁ begun
      simp only [after, begun] at waiting
      obtain ⟨window, partition, first, second⟩ := waiting
      intro entry mem
      rw [window] at mem
      -- The two records before the lost one land where they were sent for.
      rcases List.mem_cons.mp mem with rfl | mem
      · exact ⟨_, first, partition.symm, rfl⟩
      · rw [List.mem_singleton.mp mem]
        exact ⟨_, second, partition.symm, rfl⟩)
  cases run : Restoring.produce reader backedUp backupSummary .preserve
      (reporting (oneLost 2)) with
  | ok report s' =>
    rw [run] at failed
    cases failed
  | error e s' => exact ⟨e, s', rfl, all e s' run⟩

/-- When the first of three records is lost, the other two are in flight after the error. -/
theorem not_allResolved_of_first_lost :
    value? (reader.verify backedUp backup) = some backupSummary
      ∧ ∃ e s', Restoring.produce reader backedUp backupSummary .preserve (reporting (oneLost 0))
          = .error e s' ∧ ¬ s'.target.broker.AllResolved := by
  refine ⟨backupSummary_verified, ?_⟩
  have left : value? (Restoring.produce reader backedUp backupSummary .preserve
        (reporting (oneLost 0))) = none
      ∧ (after (Restoring.produce reader backedUp backupSummary .preserve)
        (reporting (oneLost 0))).target.broker.queued = 3
      ∧ (after (Restoring.produce reader backedUp backupSummary .preserve)
        (reporting (oneLost 0))).target.broker.resolved = [0] := by decide +kernel
  cases run : Restoring.produce reader backedUp backupSummary .preserve
      (reporting (oneLost 0)) with
  | ok report s' =>
    rw [run] at left
    cases left.1
  | error e s' =>
    simp only [after, run] at left
    obtain ⟨-, queued, resolved⟩ := left
    refine ⟨e, s', rfl, ?_⟩
    intro all
    have second := all 1 (by omega)
    rw [resolved] at second
    exact absurd second (by decide)

end Sample

end MirrorV3
