import MirrorV3.Lib.Fanout
import MirrorV3.Flush.Acts

/-! What an operation of a watched tee keeps: slots that tell of adjoining ranges, and nothing untrue. -/

namespace MirrorV3

open Effect Interleave

variable {K : Type} [Sink K] [LawfulSink K] [FlushingSink K] [HoldingSink K] [TriggeredSink K]
  [LawfulFlushing K]

/-- What a slot that was handed some records has been handed once a record it is due for came. -/
def fedAfter (record : Option Record) (head : Nat) (fed : List Record) : List Record :=
  fed ++ (record.filter (head ≤ ·.sourceOffset)).toList

/-- What a slot tells while the tee does something, perhaps hand over a record. -/
structure SlotTold (record : Option Record) (fed : List Record) (before after : InnerSink K)
    (added : List NotedCall) : Prop where
  supports : FlushingSink.supportsFlushObserver after.sink
    = FlushingSink.supportsFlushObserver before.sink
  calls : HoldingSink.calls after.sink = HoldingSink.calls before.sink ++ added
  chained : Ranges.Chained (LawfulFlushing.durable before.sink) (added.map (·.range))
  below : ∀ r ∈ record, TriggeredSink.flushesWith r before.sink = false →
    ∀ call ∈ added, call.range.2 < r.sourceOffset
  idle : ∀ r ∈ record, r.sourceOffset < before.head → added = []
  held : ∀ call ∈ added, ∀ r ∈ fedAfter record before.head fed, r.sourceOffset ≤ call.range.2 →
    HoldingSink.Holds before.sink call.found (fedAfter record before.head fed) r
  grown : (HoldingSink.found before.sink :: added.map (·.found)
    ++ [HoldingSink.found after.sink]).Pairwise Content.Within

/-- Where a slot's head is after an operation, which only a record it is due for moves. -/
def headAfter (record : Option Record) (head : Nat) : Nat :=
  match record with
  | none => head
  | some r => if head ≤ r.sourceOffset then r.sourceOffset + 1 else head

/-- How a slot is left that has told of some ranges and goes on. -/
structure SlotKept (record : Option Record) (fed : List Record) (before after : InnerSink K)
    (added : List NotedCall) : Prop where
  owned : LawfulSink.owned after.sink
  watched : LawfulFlushing.watched after.sink
  head : after.head = LawfulSink.position after.sink
  moved : after.head = headAfter record before.head
  durable : LawfulFlushing.durable after.sink
    = Ranges.reached (LawfulFlushing.durable before.sink) (added.map (·.range))
  backs : LawfulFlushing.backs (fedAfter record before.head fed) after.sink
  rules : (HoldingSink.Holds after.sink : Content → List Record → Record → Prop)
    = HoldingSink.Holds before.sink

/-- The records delivered from a position on. -/
def deliveredFrom (base : Nat) (acts : List Act) : List Record :=
  (delivered acts).filter (base ≤ ·.sourceOffset)

/-- What was delivered from a position on was delivered. -/
theorem deliveredFrom_subset {base : Nat} {acts : List Act} :
    deliveredFrom base acts ⊆ delivered acts :=
  fun _ mem => (List.mem_filter.mp mem).1

/-- One slot of an opened tee, in step with the loop and with what happened so far. -/
structure SlotTelling (opened : InnerSink K) (base : Nat) (acts : List Act) (i expected : Nat)
    (inner : InnerSink K) : Prop where
  owned : LawfulSink.owned inner.sink
  watched : LawfulFlushing.watched inner.sink
  head : inner.head = LawfulSink.position inner.sink
  based : base ≤ inner.head
  /-- Only a record the loop has passed moves the head from where it was opened or aligned. -/
  synced : inner.head = base ∨ inner.head ≤ expected
  since : base = opened.head ∨ base ≤ expected ∧ ∀ r ∈ delivered acts, base ≤ r.sourceOffset
  rules : (HoldingSink.Holds inner.sink : Content → List Record → Record → Prop)
    = HoldingSink.Holds opened.sink
  calls : HoldingSink.calls inner.sink = callsBy i acts
  durable : FlushingSink.supportsFlushObserver inner.sink = true →
    LawfulFlushing.durable inner.sink = Ranges.reached base (toldBy i acts)
  backs : LawfulFlushing.backs (deliveredFrom base acts) inner.sink
  /-- At each call the store held what was delivered up to the end of its range. -/
  held : ∀ call ∈ callsBy i acts, ∀ r ∈ deliveredFrom base acts, r.sourceOffset ≤ call.range.2 →
    HoldingSink.Holds opened.sink call.found (deliveredFrom base acts) r
  grown : (foundBy i acts ++ [HoldingSink.found inner.sink]).Pairwise Content.Within
  stored : FlushingSink.supportsFlushObserver inner.sink = false →
    ∀ r ∈ deliveredFrom base acts, DurablyHolds opened.sink acts i r

/-- A watched tee between two operations. -/
structure Watching (opened : TeeSink K) (base : Nat → Nat) (expected : Nat) (w : WatchedTee K) :
    Prop where
  length : w.tee.inners.length = opened.inners.length
  slots : ∀ i slot inner, opened.inners[i]? = some slot → w.tee.inners[i]? = some inner →
    SlotTelling slot (base i) w.acts i expected inner
  capable : ∀ i inner, w.tee.inners[i]? = some inner →
    (i ∈ opened.supporting ↔ FlushingSink.supportsFlushObserver inner.sink = true)
  chained : ∀ i, Ranges.Chained (base i) (toldBy i w.acts)
  quiet : ∀ i ∉ opened.supporting, toldBy i w.acts = []
  passed : ∀ r ∈ delivered w.acts, r.sourceOffset < expected
  truth : Harmless w.acts → TellsTruth opened w.acts

/-- What is left of it when an operation fails. -/
def StillTrue (opened : TeeSink K) (w : WatchedTee K) : Prop :=
  Harmless w.acts → TellsTruth opened w.acts

section Segments

variable {before after : List (InnerSink K)} {i : Nat} {slot slot' : InnerSink K}

omit [Sink K] [LawfulSink K] [FlushingSink K] [TriggeredSink K] [LawfulFlushing K] in
/-- The acts of an inner sink are found at its index. -/
theorem segments_getD (here : before[i]? = some slot) (there : after[i]? = some slot') :
    (segments before after)[i]?.getD [] = segment i slot slot' := by
  have pair : (before.zip after)[i]? = some (slot, slot') :=
    List.getElem?_zip_eq_some.mpr ⟨here, there⟩
  simp [segments, List.getElem?_mapIdx, pair]

omit [Sink K] [LawfulSink K] [FlushingSink K] [TriggeredSink K] [LawfulFlushing K] in
/-- An act of a segment is of its inner sink, and delivers nothing. -/
theorem of_mem_segment {act : Act} (mem : act ∈ segment i slot slot') :
    act.inner = i ∧ ∀ record risky, act ≠ .delivered record risky := by
  rcases List.mem_append.mp mem with told | rested
  · obtain ⟨call, -, rfl⟩ := List.mem_map.mp told
    exact ⟨rfl, fun _ _ => Act.noConfusion⟩
  · rw [List.mem_singleton.mp rested]
    exact ⟨rfl, fun _ _ => Act.noConfusion⟩

omit [Sink K] [LawfulSink K] [FlushingSink K] [TriggeredSink K] [LawfulFlushing K] in
/-- The acts of a segment that has one are those of the slots at its index. -/
theorem of_mem_segments {act : Act} (mem : act ∈ (segments before after)[i]?.getD []) :
    act.inner = i ∧ ∀ record risky, act ≠ .delivered record risky := by
  simp only [segments, List.getElem?_mapIdx] at mem
  cases pair : (before.zip after)[i]? with
  | none => simp [pair] at mem
  | some slots =>
    rw [pair] at mem
    exact of_mem_segment mem

omit [Sink K] [LawfulSink K] [FlushingSink K] [TriggeredSink K] [LawfulFlushing K] in
/-- Each segment holds acts of its inner sink only. -/
theorem segments_tagged : Tagged Act.inner (segments before after) :=
  fun _ _ mem => (of_mem_segments mem).1

omit [Sink K] [LawfulSink K] [FlushingSink K] [TriggeredSink K] [LawfulFlushing K] in
/-- No slot delivers a record while the tee does something. -/
theorem delivered_merge (schedule : Schedule Act.inner) :
    delivered (schedule.merge (segments before after)) = [] := by
  -- A delivery would stand in the segment of some inner sink.
  refine List.eq_nil_iff_forall_not_mem.mpr fun record mem => ?_
  obtain ⟨risky, mem⟩ := mem_delivered.mp mem
  have own : Act.delivered record risky
      ∈ (schedule.merge (segments before after)).filter (·.inner = 0) :=
    List.mem_filter.mpr ⟨mem, by simp [Act.inner]⟩
  rw [schedule.interleaves _ segments_tagged 0] at own
  exact (of_mem_segments own).2 record risky rfl

omit [Sink K] [LawfulSink K] [FlushingSink K] [TriggeredSink K] [LawfulFlushing K] in
/-- A segment has the calls the slot added, and shows what was found by each and at its end. -/
theorem of_segment {added : List NotedCall}
    (calls : HoldingSink.calls slot'.sink = HoldingSink.calls slot.sink ++ added) :
    callsBy i (segment i slot slot') = added
      ∧ foundBy i (segment i slot slot')
        = added.map (·.found) ++ [HoldingSink.found slot'.sink] := by
  have each : ∀ added : List NotedCall,
      callsBy i (added.map fun call => .flushed ⟨i, call.range.1, call.range.2⟩ call.found) = added
        ∧ foundBy i (added.map fun call => .flushed ⟨i, call.range.1, call.range.2⟩ call.found)
          = added.map (·.found) := by
    intro added
    induction added with
    | nil => exact ⟨rfl, rfl⟩
    | cons call added ih =>
      simp only [callsBy, foundBy, List.map_cons, List.filterMap_cons, Act.callBy?, Act.foundBy?,
        if_true] at ih ⊢
      rw [ih.1, ih.2]
      exact ⟨rfl, rfl⟩
  unfold segment
  rw [calls, List.drop_left]
  simp only [callsBy, foundBy, List.filterMap_append] at each ⊢
  rw [(each added).1, (each added).2]
  simp [Act.callBy?, Act.foundBy?]

end Segments

section Moments

omit [Sink K] [LawfulSink K] [HoldingSink K] [TriggeredSink K] [LawfulFlushing K] in
/-- A flush-capable inner sink has a slot. -/
theorem lt_of_mem_supporting {tee : TeeSink K} {inner : Nat} (capable : inner ∈ tee.supporting) :
    inner < tee.inners.length := by
  obtain ⟨⟨slot, i⟩, mem, gives⟩ := List.mem_filterMap.mp capable
  simp only [Option.ite_none_right_eq_some, Option.some.injEq] at gives
  obtain ⟨-, rfl⟩ := gives
  exact (List.getElem?_eq_some_iff.mp (List.mk_mem_zipIdx_iff_getElem?.mp mem)).1

omit [Sink K] [LawfulSink K] [HoldingSink K] [TriggeredSink K] [LawfulFlushing K] in
/-- What an observer is told of, every inner sink that flushes has told of as well. -/
theorem supporting_of_announced {tee : TeeSink K} {base : Nat → Nat} {events : List FlushEvent}
    (chained : Chained tee.supporting base events) {range : Nat × Nat}
    (told : range ∈ tee.flushWiring.announced events) :
    ∀ inner ∈ tee.supporting, ∃ own ∈ rangesOf inner events, range.2 ≤ own.2 := by
  intro inner capable
  have nodup : tee.supporting.Nodup := TeeSink.nodup_supporting
  unfold TeeSink.flushWiring at told
  match listed : tee.supporting, capable with
  | [only], capable =>
    rw [listed] at told
    rw [FlushWiring.direct_announced.1] at told
    rw [List.mem_singleton.mp capable]
    exact ⟨range, told, Nat.le_refl _⟩
  | first :: next :: rest, capable =>
    rw [listed] at told nodup chained
    obtain ⟨-, -, bounded, -⟩ :=
      relayed_announced nodup (fun _ _ => Nat.zero_le _) chained
    obtain ⟨positive, -, least⟩ := bounded range told
    -- The coordinator waits for the slowest relay, so each of them is at least as far.
    have far : range.2 ≤ flushedTo events inner :=
      Nat.le_trans least (leastOf_le (List.mem_map_of_mem capable))
    cases last : (rangesOf inner events).getLast? with
    | none =>
      simp only [flushedTo, last, Option.map_none, Option.getD_none] at far
      omega
    | some own =>
      simp only [flushedTo, last, Option.map_some, Option.getD_some] at far
      exact ⟨own, List.mem_of_getLast? last, far⟩

end Moments

/-- A slot that backs what it was handed told of some ranges while the tee did something. -/
def SlotTells (record : Option Record) (slot slot' : InnerSink K) : Prop :=
  ∀ fed, LawfulFlushing.backs fed slot.sink → ∃ added, SlotTold record fed slot slot' added

/-- Such a slot told of some ranges, and goes on. -/
def SlotKeeps (record : Option Record) (slot slot' : InnerSink K) : Prop :=
  ∀ fed, LawfulFlushing.backs fed slot.sink →
    ∃ added, SlotTold record fed slot slot' added ∧ SlotKept record fed slot slot' added

/-- A slot that goes on has told of what it has told of. -/
theorem SlotKeeps.tells {record : Option Record} {slot slot' : InnerSink K}
    (keeps : SlotKeeps record slot slot') : SlotTells record slot slot' :=
  fun fed backs => (keeps fed backs).imp fun _ both => both.1

/-- Every slot told of some ranges while the tee did something. -/
def Tells (record : Option Record) (before after : List (InnerSink K)) : Prop :=
  List.Forall₂ (SlotTells record) before after

/-- Every slot told of some ranges while the tee did something, and goes on. -/
def Keeps (record : Option Record) (before after : List (InnerSink K)) : Prop :=
  List.Forall₂ (SlotKeeps record) before after

/-- Slots that go on have told of what they have told of. -/
theorem Keeps.tells {record : Option Record} {before after : List (InnerSink K)}
    (keeps : Keeps record before after) : Tells record before after :=
  keeps.imp fun _ _ kept => kept.tells

section Slot

variable {opened slot slot' : InnerSink K} {base i expected : Nat} {w : WatchedTee K}
  {record : Option Record} {tee : TeeSink K} {added : List NotedCall} {acts : List Act}

omit [Sink K] [LawfulSink K] [LawfulFlushing K] in
/-- An operation delivers the record it hands over, and nothing else. -/
theorem delivered_watch :
    delivered (w.watch record tee).acts = delivered w.acts ++ record.toList := by
  have new : delivered (handed record w.tee) = record.toList := by
    cases record <;> rfl
  simp only [WatchedTee.watch, delivered_append, delivered_merge, new, List.append_nil]

omit [Sink K] [LawfulSink K] [HoldingSink K] [LawfulFlushing K] in
/-- What is told of in an operation, up to some moment, comes after what was told of before it. -/
theorem toldBy_sofar (moment : List Act) :
    toldBy i (w.acts ++ handed record w.tee ++ moment) = toldBy i w.acts ++ toldBy i moment := by
  have none : toldBy i (handed record w.tee) = [] := by
    cases record <;> rfl
  rw [toldBy_append, toldBy_append, none, List.append_nil]

omit [Sink K] [LawfulSink K] [LawfulFlushing K] in
/-- And so it does when the operation is over. -/
theorem toldBy_watch : toldBy i (w.watch record tee).acts
    = toldBy i w.acts ++ toldBy i (w.schedules.head.merge (segments w.tee.inners tee.inners)) :=
  toldBy_sofar _

omit [Sink K] [LawfulSink K] [LawfulFlushing K] in
/-- The slots deliver nothing while they are at work. -/
theorem delivered_sofar {moment : List Act}
    (sofar : moment <+: w.schedules.head.merge (segments w.tee.inners tee.inners)) :
    delivered (w.acts ++ handed record w.tee ++ moment) = delivered (w.watch record tee).acts := by
  have none := delivered_isPrefix sofar
  rw [delivered_merge] at none
  simp only [WatchedTee.watch, delivered_append, delivered_merge, List.prefix_nil.mp none]

omit [Sink K] [LawfulSink K] [LawfulFlushing K] in
/-- The calls of a slot in an operation come after those before, and so does what is found. -/
theorem of_watch (here : w.tee.inners[i]? = some slot) (there : tee.inners[i]? = some slot')
    (calls : HoldingSink.calls slot'.sink = HoldingSink.calls slot.sink ++ added) :
    callsBy i (w.watch record tee).acts = callsBy i w.acts ++ added
      ∧ foundBy i (w.watch record tee).acts
        = foundBy i w.acts ++ (added.map (·.found) ++ [HoldingSink.found slot'.sink]) := by
  -- Of what the slots did side by side, the slot's own part is its segment.
  have own := w.schedules.head.interleaves (segments w.tee.inners tee.inners) segments_tagged i
  rw [segments_getD here there] at own
  have parts := @of_segment K _ i slot slot' added calls
  rw [← own, callsBy_filter, foundBy_filter] at parts
  have none : callsBy i (handed record w.tee) = [] ∧ foundBy i (handed record w.tee) = [] := by
    cases record <;> exact ⟨rfl, rfl⟩
  constructor
  · rw [← parts.1]
    show callsBy i (w.acts ++ handed record w.tee ++ _) = _
    simp only [callsBy, List.filterMap_append] at none ⊢
    rw [none.1, List.append_nil]
  · rw [← parts.2]
    show foundBy i (w.acts ++ handed record w.tee ++ _) = _
    simp only [foundBy, List.filterMap_append] at none ⊢
    rw [none.2, List.append_nil]

/-- A slot that is past a record that comes next has not moved since it was opened. -/
theorem SlotTelling.unmoved {r : Record} (telling : SlotTelling opened base acts i expected slot)
    (above : expected ≤ r.sourceOffset) (past : r.sourceOffset < slot.head) : slot.head = base := by
  have synced := telling.synced
  omega

/-- What a slot told of before an operation ends below where it stands. -/
theorem SlotTelling.told_lt (telling : SlotTelling opened base acts i expected slot)
    (supports : FlushingSink.supportsFlushObserver slot.sink = true)
    (chained : Ranges.Chained base (toldBy i acts)) :
    ∀ own ∈ toldBy i acts, own.2 < slot.head := by
  intro own mem
  have ends := Ranges.lt_reached chained mem
  have durable := LawfulFlushing.durable_le slot.sink telling.watched supports
  rw [telling.durable supports] at durable
  rw [telling.head]
  omega

/-- What counts as delivered to a slot is what the slot was handed. -/
theorem SlotTelling.deliveredFrom_watch (telling : SlotTelling opened base w.acts i expected slot)
    (above : ∀ r ∈ record, expected ≤ r.sourceOffset) :
    deliveredFrom base (w.watch record tee).acts
      = fedAfter record slot.head (deliveredFrom base w.acts) := by
  rw [deliveredFrom, delivered_watch, List.filter_append]
  cases record with
  | none => simp [deliveredFrom, fedAfter]
  | some r =>
    -- A slot is due for the record unless it was opened above it and has not moved since.
    have based := telling.based
    have due : base ≤ r.sourceOffset ↔ slot.head ≤ r.sourceOffset := by
      constructor
      · intro above_base
        by_contra past
        have unmoved := telling.unmoved (above r rfl) (by omega)
        omega
      · omega
    by_cases taken : slot.head ≤ r.sourceOffset
    · simp [deliveredFrom, fedAfter, Option.filter, taken, due.mpr taken]
    · simp [deliveredFrom, fedAfter, Option.filter, taken, mt due.mp taken]

/-- At each call of an operation the store holds all that was delivered up to its range's end. -/
theorem SlotTelling.held_watch (telling : SlotTelling opened base w.acts i expected slot)
    (above : ∀ r ∈ record, expected ≤ r.sourceOffset)
    (chained : Ranges.Chained base (toldBy i w.acts)) (here : w.tee.inners[i]? = some slot)
    (there : tee.inners[i]? = some slot')
    (told : SlotTold record (deliveredFrom base w.acts) slot slot' added) :
    ∀ call ∈ callsBy i (w.watch record tee).acts,
      ∀ r ∈ deliveredFrom base (w.watch record tee).acts, r.sourceOffset ≤ call.range.2 →
        HoldingSink.Holds opened.sink call.found
          (deliveredFrom base (w.watch record tee).acts) r := by
  rw [(of_watch here there told.calls).1, telling.deliveredFrom_watch above, ← telling.rules]
  intro call mem r given upTo
  -- A call was made before the operation, where it is known, or in it, where the slot says so.
  rcases List.mem_append.mp mem with earlier | new
  · rcases List.mem_append.mp given with before | now
    · have holds := telling.held call earlier r before upTo
      rw [← telling.rules] at holds
      exact LawfulFlushing.holds_mono slot.sink holds (Content.within_refl _)
        (List.subset_append_left _ _)
    · -- No earlier call comes up to a record that the slot was still due for.
      obtain ⟨given, due⟩ := Option.filter_eq_some_iff.mp (Option.mem_toList.mp now)
      have supports : FlushingSink.supportsFlushObserver slot.sink = true := by
        by_contra incapable
        have silent := LawfulFlushing.silent slot.sink (by simpa using incapable)
        rw [telling.calls] at silent
        rw [silent] at earlier
        exact List.not_mem_nil earlier
      have low := telling.told_lt supports chained call.range
        (by rw [toldBy_eq]; exact List.mem_map_of_mem earlier)
      have reached : slot.head ≤ r.sourceOffset := by simpa using due
      omega
  · exact told.held call new r given upTo

/-- From moment to moment of an operation, what is stored behind a slot only grows. -/
theorem SlotTelling.grown_watch (telling : SlotTelling opened base w.acts i expected slot)
    (here : w.tee.inners[i]? = some slot) (there : tee.inners[i]? = some slot')
    (told : SlotTold record (deliveredFrom base w.acts) slot slot' added) :
    (foundBy i (w.watch record tee).acts ++ [HoldingSink.found slot'.sink]).Pairwise
      Content.Within := by
  have trans : ∀ a b c : Content, a.Within b → b.Within c → a.Within c :=
    fun _ _ _ => Content.Within.trans
  have same := (HoldingSink.found slot'.sink).within_refl
  -- The last moment of the operation shows what the slot is left with.
  have upTo : (foundBy i w.acts ++ (added.map (·.found)
      ++ [HoldingSink.found slot'.sink])).Pairwise Content.Within :=
    pairwise_through trans telling.grown told.grown
  rw [(of_watch here there told.calls).2]
  rw [← List.append_assoc] at upTo ⊢
  rw [List.append_assoc]
  exact pairwise_through trans upTo (by simp [same])

omit [Sink K] [LawfulSink K] [LawfulFlushing K] in
/-- What some earlier moment shows to be stored is still stored by the last of them. -/
theorem durablyHolds_of_found [Sink K] [LawfulSink K] [LawfulFlushing K] {fed : List Record}
    {found : Content} {r : Record} (grown : (foundBy i acts).Pairwise Content.Within)
    (mem : found ∈ foundBy i acts) (holds : HoldingSink.Holds opened.sink found fed r)
    (sub : fed ⊆ delivered acts) : DurablyHolds opened.sink acts i r := by
  obtain ⟨last, ends, within⟩ := getLast?_of_pairwise Content.within_refl grown mem
  exact ⟨last, ends, LawfulFlushing.holds_mono opened.sink holds within sub⟩

end Slot

section Watch

variable {opened : TeeSink K} {base : Nat → Nat} {expected : Nat} {w : WatchedTee K}
  {record : Option Record} {tee : TeeSink K} {moment : List Act}

omit [Sink K] [LawfulSink K] [FlushingSink K] [TriggeredSink K] [LawfulFlushing K] in
/-- By any moment of an operation a slot has made the first of its calls. -/
theorem toldBy_isPrefix {i : Nat} {slot slot' : InnerSink K} {added : List NotedCall}
    (sofar : moment <+: w.schedules.head.merge (segments w.tee.inners tee.inners))
    (here : w.tee.inners[i]? = some slot) (there : tee.inners[i]? = some slot')
    (calls : HoldingSink.calls slot'.sink = HoldingSink.calls slot.sink ++ added) :
    toldBy i moment <+: added.map (·.range) := by
  have part := (w.schedules.head.interleaves _ segments_tagged).firstPart sofar i
  rw [segments_getD here there] at part
  have told := (part.filterMap (·.callBy? i)).map (·.range)
  have own := callsBy_filter i moment
  have whole := (@of_segment K _ i slot slot' added calls).1
  unfold callsBy at own whole
  rwa [own, whole, ← callsBy, ← toldBy_eq] at told

/-- A slot of a watched tee has its slot of the opened tee. -/
theorem Watching.slot (holds : Watching opened base expected w) {i : Nat} {slot : InnerSink K}
    (here : w.tee.inners[i]? = some slot) :
    ∃ first, opened.inners[i]? = some first
      ∧ SlotTelling first (base i) w.acts i expected slot := by
  have within : i < opened.inners.length := holds.length ▸ (List.getElem?_eq_some_iff.mp here).1
  have first := List.getElem?_eq_getElem within
  exact ⟨_, first, holds.slots i _ slot first here⟩

/-- A slot tells of some ranges while the tee does something. -/
theorem Watching.slotTold (holds : Watching opened base expected w)
    (tells : Tells record w.tee.inners tee.inners) {i : Nat} {slot : InnerSink K}
    (here : w.tee.inners[i]? = some slot) :
    ∃ slot' added, tee.inners[i]? = some slot'
      ∧ SlotTold record (deliveredFrom (base i) w.acts) slot slot' added := by
  obtain ⟨first, -, telling⟩ := holds.slot here
  obtain ⟨slot', there, told⟩ := getElem?_of_forall₂ tells here
  obtain ⟨added, told⟩ := told _ telling.backs
  exact ⟨slot', added, there, told⟩

/-- At any moment of an operation every inner sink has told of ranges that adjoin. -/
theorem Watching.toldBy_moment (holds : Watching opened base expected w)
    (tells : Tells record w.tee.inners tee.inners)
    (sofar : moment <+: w.schedules.head.merge (segments w.tee.inners tee.inners)) (i : Nat) :
    Ranges.Chained (base i) (toldBy i w.acts ++ toldBy i moment)
      ∧ (i ∉ opened.supporting → toldBy i moment = []) := by
  cases here : w.tee.inners[i]? with
  | none =>
    -- No slot has this index, so nothing is told of under it.
    have nothing : (segments w.tee.inners tee.inners)[i]?.getD [] = [] := by
      have past := List.getElem?_eq_none_iff.mp here
      rw [List.getElem?_eq_none (by simp [segments]; omega)]
      rfl
    have part := (w.schedules.head.interleaves _ segments_tagged).firstPart sofar i
    rw [nothing] at part
    have silent : toldBy i moment = [] := by
      rw [toldBy_eq, ← callsBy_filter, List.prefix_nil.mp part]
      rfl
    rw [silent, List.append_nil]
    exact ⟨holds.chained i, fun _ => rfl⟩
  | some slot =>
    obtain ⟨first, -, telling⟩ := holds.slot here
    obtain ⟨slot', added, there, told⟩ := holds.slotTold tells here
    have part := toldBy_isPrefix sofar here there told.calls
    by_cases supports : FlushingSink.supportsFlushObserver slot.sink = true
    · have chained : Ranges.Chained (base i) (toldBy i w.acts ++ added.map (·.range)) := by
        rw [Ranges.chained_append, ← telling.durable supports]
        exact ⟨holds.chained i, told.chained⟩
      refine ⟨chained.firstPart ((List.prefix_append_right_inj _).mpr part), fun incapable => ?_⟩
      exact absurd ((holds.capable i slot here).mpr supports) incapable
    · have silent : added = [] := by
        have after := told.calls
        rw [LawfulFlushing.silent slot'.sink (told.supports.trans (by simpa using supports))]
          at after
        exact (List.append_eq_nil_iff.mp after.symm).2
      rw [silent] at part
      rw [List.prefix_nil.mp part, List.append_nil]
      exact ⟨holds.chained i, fun _ => rfl⟩

omit [Sink K] [LawfulSink K] [HoldingSink K] [TriggeredSink K] [LawfulFlushing K] in
/-- Calls that end at some moment are calls of inner sinks that flush, and adjoin. -/
theorem chained_events {acts : List Act}
    (adjoin : ∀ i, Ranges.Chained (base i) (toldBy i acts)
      ∧ (i ∉ opened.supporting → toldBy i acts = [])) :
    Chained opened.supporting base (flushEvents acts) where
  capable event mem := by
    by_contra incapable
    have none := (adjoin event.inner).2 incapable
    have own : (event.from_, event.to_) ∈ toldBy event.inner acts :=
      List.mem_map.mpr ⟨event, List.mem_filter.mpr ⟨mem, by simp⟩, rfl⟩
    rw [none] at own
    exact List.not_mem_nil own
  chained i := (adjoin i).1

/--
A record is told of in its own fan-out only when that was at risk.

Otherwise some destination that flushes has not told of it yet.
-/
theorem Watching.atRisk_of_told {r : Record} (holds : Watching opened base expected w)
    (above : expected ≤ r.sourceOffset) (tells : Tells (some r) w.tee.inners tee.inners)
    (sofar : moment <+: w.schedules.head.merge (segments w.tee.inners tee.inners))
    (heard : ∀ j ∈ opened.supporting,
      ∃ own ∈ toldBy j w.acts ++ toldBy j moment, r.sourceOffset ≤ own.2)
    (capable : opened.supporting ≠ []) {i : Nat} {slot : InnerSink K}
    (here : w.tee.inners[i]? = some slot)
    (perRecord : FlushingSink.supportsFlushObserver slot.sink = false)
    (behind : slot.head ≤ r.sourceOffset) : w.tee.atRisk r = true := by
  simp only [TeeSink.atRisk, Bool.and_eq_true, List.any_eq_true, List.all_eq_true]
  refine ⟨⟨?_, slot, List.mem_of_getElem? here, ?_⟩, fun other mem => ?_⟩
  · obtain ⟨j, listed⟩ := List.exists_mem_of_ne_nil _ capable
    have inside : j < w.tee.inners.length := holds.length ▸ lt_of_mem_supporting listed
    exact ⟨_, List.getElem_mem inside,
      (holds.capable j _ (List.getElem?_eq_getElem inside)).mp listed⟩
  · simp [perRecord, behind]
  · obtain ⟨j, found⟩ := List.mem_iff_getElem?.mp mem
    by_cases supports : FlushingSink.supportsFlushObserver other.sink = true
    · obtain ⟨first, -, telling⟩ := holds.slot found
      obtain ⟨own, told, far⟩ := heard j ((holds.capable j other found).mpr supports)
      obtain ⟨other', added, there, here'⟩ := holds.slotTold tells found
      have part := toldBy_isPrefix sofar found there here'.calls
      have before := telling.told_lt supports (holds.chained j)
      have due : other.head ≤ r.sourceOffset := by
        by_contra past
        -- An inner sink that is past the record tells of nothing, and had told of nothing.
        have unmoved := telling.unmoved above (by omega)
        rw [here'.idle r rfl (by omega)] at part
        rw [List.prefix_nil.mp part, List.append_nil] at told
        have low := Ranges.le_of_mem (holds.chained j) told
        have := before own told
        omega
      have flushes : TriggeredSink.flushesWith r other.sink = true := by
        by_contra waits
        rcases List.mem_append.mp told with earlier | now
        · have := before own earlier
          omega
        · obtain ⟨call, new, rfl⟩ := List.mem_map.mp (part.subset now)
          have := here'.below r rfl (by simpa using waits) call new
          omega
      simp [due, flushes]
    · simp [supports]

/-- When the observer hears of a range, every inner sink that flushes has told of as much. -/
theorem Watching.heard (holds : Watching opened base expected w)
    (tells : Tells record w.tee.inners tee.inners) {event : FlushEvent} {found : Content}
    {range : Nat × Nat}
    (sofar : moment ++ [.flushed event found]
      <+: w.schedules.head.merge (segments w.tee.inners tee.inners))
    (told : range ∈ ((opened.flushWiring.after
      (flushEvents (w.acts ++ handed record w.tee ++ moment))).onFlushed event).2) :
    opened.supporting ≠ [] ∧ ∀ j ∈ opened.supporting,
      ∃ own ∈ toldBy j w.acts ++ toldBy j (moment ++ [.flushed event found]), range.2 ≤ own.2 := by
  have calls : flushEvents (w.acts ++ handed record w.tee ++ (moment ++ [.flushed event found]))
      = flushEvents (w.acts ++ handed record w.tee ++ moment) ++ [event] := by
    rw [← List.append_assoc]
    exact flushEvents_append
  -- The calls up to this one adjoin for each inner sink, so nothing beyond them is announced.
  have chained : Chained opened.supporting base
      (flushEvents (w.acts ++ handed record w.tee ++ (moment ++ [.flushed event found]))) :=
    chained_events fun i => by
      rw [toldBy_sofar]
      obtain ⟨adjoin, quiet⟩ := holds.toldBy_moment tells sofar i
      refine ⟨adjoin, fun incapable => ?_⟩
      rw [holds.quiet i incapable, quiet incapable]
      rfl
  refine ⟨?_, fun j capable => ?_⟩
  · apply List.ne_nil_of_mem (chained.capable event _)
    rw [calls]
    exact List.mem_append_right _ (List.mem_singleton_self event)
  · have announced : range ∈ opened.flushWiring.announced
        (flushEvents (w.acts ++ handed record w.tee ++ (moment ++ [.flushed event found]))) := by
      rw [calls, FlushWiring.announced_concat]
      exact List.mem_append_right _ (Option.mem_toList.mpr told)
    rw [← toldBy_sofar]
    exact supporting_of_announced chained announced j capable

/--
A record that every inner sink that flushes has told of is durably held by each inner sink.

That is at a moment of the operation that hands a record over, which may be this one.
-/
theorem Watching.durable_moment (holds : Watching opened base expected w)
    (above : ∀ r ∈ record, expected ≤ r.sourceOffset)
    (tells : Tells record w.tee.inners tee.inners) (harmless : Harmless (w.watch record tee).acts)
    (sofar : moment <+: w.schedules.head.merge (segments w.tee.inners tee.inners))
    (capable : opened.supporting ≠ []) {r : Record}
    (heard : ∀ j ∈ opened.supporting,
      ∃ own ∈ toldBy j w.acts ++ toldBy j moment, r.sourceOffset ≤ own.2)
    {i : Nat} {first : InnerSink K} (open_ : opened.inners[i]? = some first)
    (given : r ∈ delivered (w.watch record tee).acts) (from_ : first.head ≤ r.sourceOffset) :
    DurablyHolds first.sink (w.acts ++ handed record w.tee ++ moment) i r := by
  obtain ⟨slot, here⟩ : ∃ slot, w.tee.inners[i]? = some slot := by
    have inside := (List.getElem?_eq_some_iff.mp open_).1
    exact ⟨_, List.getElem?_eq_getElem (holds.length.symm ▸ inside)⟩
  have telling := holds.slots i first slot open_ here
  obtain ⟨slot', added, there, slotTold⟩ := holds.slotTold tells here
  have whole : w.acts ++ handed record w.tee ++ moment <+: (w.watch record tee).acts :=
    (List.prefix_append_right_inj _).mpr sofar
  have grown : (foundBy i (w.acts ++ handed record w.tee ++ moment)).Pairwise Content.Within :=
    (telling.grown_watch here there slotTold).sublist
      ((whole.filterMap _).sublist.trans (List.sublist_append_left _ _))
  -- No record is handed over below where a slot was opened or aligned.
  have based : base i ≤ r.sourceOffset := by
    rcases telling.since with same | ⟨low, passed⟩
    · exact same ▸ from_
    · rw [delivered_watch] at given
      rcases List.mem_append.mp given with done | new
      · exact passed r done
      · exact Nat.le_trans low (above r (Option.mem_toList.mp new))
  by_cases supports : FlushingSink.supportsFlushObserver slot.sink = true
  · -- The inner sink told of the record, and had it stored by then.
    obtain ⟨own, mem, far⟩ := heard i ((holds.capable i slot here).mpr supports)
    rw [← toldBy_sofar, toldBy_eq] at mem
    obtain ⟨call, made, rfl⟩ := List.mem_map.mp mem
    have held := telling.held_watch above (holds.chained i) here there slotTold call
      ((whole.filterMap _).subset made) r (List.mem_filter.mpr ⟨given, by simpa using based⟩) far
    refine durablyHolds_of_found grown (found_of_callsBy made) held ?_
    rw [delivered_sofar sofar]
    exact deliveredFrom_subset
  · have perRecord : FlushingSink.supportsFlushObserver slot.sink = false := by
      simpa using supports
    rw [delivered_watch] at given
    rcases List.mem_append.mp given with done | new
    · -- An earlier record was stored when its own fan-out was over.
      obtain ⟨content, last, kept⟩ :=
        telling.stored perRecord r (List.mem_filter.mpr ⟨done, by simpa using based⟩)
      refine durablyHolds_of_found grown ?_ kept ?_
      · have earlier : foundBy i w.acts
            <+: foundBy i (w.acts ++ handed record w.tee ++ moment) := by
          simp only [foundBy, List.filterMap_append, List.append_assoc]
          exact List.prefix_append _ _
        exact earlier.subset (List.mem_of_getLast? last)
      · rw [delivered_sofar sofar, delivered_watch]
        exact List.subset_append_left _ _
    · -- The record of this very fan-out, which was not at risk.
      obtain rfl : record = some r := Option.mem_toList.mp new
      have behind : slot.head ≤ r.sourceOffset := by
        by_contra past
        have unmoved := telling.unmoved (above r rfl) (by omega)
        omega
      have risky := holds.atRisk_of_told (above r rfl) tells sofar heard capable here perRecord
        behind
      have handedOver : .delivered r true ∈ (w.watch (some r) tee).acts :=
        List.mem_append_left _ (List.mem_append_right _
          (mem_handed.mpr ⟨r, rfl, by rw [risky]⟩))
      exact absurd handedOver (harmless r)

/--
An operation tells the observer of nothing that an inner sink does not durably hold.

A record that is handed over is only announced with it when its fan-out was at risk.
-/
theorem Watching.watch_truth (holds : Watching opened base expected w)
    (above : ∀ r ∈ record, expected ≤ r.sourceOffset)
    (tells : Tells record w.tee.inners tee.inners) : StillTrue opened (w.watch record tee) := by
  intro harmless before event found whole range told i first open_ r given upTo from_
  have old : Harmless w.acts := fun r mem =>
    harmless r (List.mem_append_left _ (List.mem_append_left _ mem))
  -- What the observer hears before the operation is known to be true.
  rcases concat_prefix_append whole with early | ⟨moment, rfl, sofar⟩
  · rcases concat_prefix_append early with earlier | ⟨rest, -, last⟩
    · exact holds.truth old before event found earlier range told i first open_ r given upTo from_
    · have mem := last.subset (List.mem_append_right _ (List.mem_singleton_self _))
      obtain ⟨r, -, same⟩ := mem_handed.mp mem
      cases same
  · obtain ⟨capable, heard⟩ := holds.heard tells sofar told
    have delivered : r ∈ delivered (w.watch record tee).acts := by
      rw [← delivered_sofar ((List.prefix_append _ _).trans sofar)]
      exact given
    rw [List.append_assoc _ moment]
    exact holds.durable_moment above tells harmless sofar capable
      (fun j mem => (heard j mem).imp fun own reached => ⟨reached.1, Nat.le_trans upTo reached.2⟩)
      open_ delivered from_

/-- No record moves a head, or the loop, back. -/
theorem le_headAfter (head : Nat) : head ≤ headAfter record head := by
  unfold headAfter
  split
  · exact Nat.le_refl head
  · split <;> omega

/-- The slot at an index, after an operation, has told of what happened up to then. -/
theorem Watching.slot_watch (holds : Watching opened base expected w)
    (above : ∀ r ∈ record, expected ≤ r.sourceOffset) {i : Nat}
    {first slot slot' : InnerSink K} {added : List NotedCall}
    (telling : SlotTelling first (base i) w.acts i expected slot)
    (here : w.tee.inners[i]? = some slot) (there : tee.inners[i]? = some slot')
    (told : SlotTold record (deliveredFrom (base i) w.acts) slot slot' added)
    (kept : SlotKept record (deliveredFrom (base i) w.acts) slot slot' added) :
    SlotTelling first (base i) (w.watch record tee).acts i (headAfter record expected) slot' := by
  have synced := telling.synced
  have based := telling.based
  have whole : callsBy i (w.watch record tee).acts = callsBy i w.acts ++ added
      ∧ foundBy i (w.watch record tee).acts
        = foundBy i w.acts ++ (added.map (·.found) ++ [HoldingSink.found slot'.sink]) :=
    of_watch here there told.calls
  have fed : deliveredFrom (base i) (w.watch record tee).acts
      = fedAfter record slot.head (deliveredFrom (base i) w.acts) :=
    telling.deliveredFrom_watch above
  have rules := kept.rules.trans telling.rules
  have backs := kept.backs
  rw [← fed] at backs
  have shown : HoldingSink.found slot'.sink ∈ (foundBy i (w.watch record tee).acts).getLast? := by
    rw [whole.2, ← List.append_assoc]
    simp
  refine ⟨kept.owned, kept.watched, kept.head, ?_, ?_, ?_, rules, ?_, ?_, backs,
    telling.held_watch above (holds.chained i) here there told,
    telling.grown_watch here there told, ?_⟩
  · rw [kept.moved]
    exact Nat.le_trans based (le_headAfter slot.head)
  · rw [kept.moved]
    cases record with
    | none => exact synced
    | some r =>
      have passed := above r rfl
      simp only [headAfter]
      split <;> omega
  · refine telling.since.imp_right fun ⟨low, passed⟩ => ⟨Nat.le_trans low (le_headAfter expected),
      fun r given => ?_⟩
    rw [delivered_watch] at given
    rcases List.mem_append.mp given with done | new
    · exact passed r done
    · exact Nat.le_trans low (above r (Option.mem_toList.mp new))
  · rw [told.calls, telling.calls, whole.1]
  · intro supports
    rw [kept.durable, telling.durable (told.supports.symm.trans supports),
      toldBy_eq i (w.watch record tee).acts, whole.1, List.map_append, ← toldBy_eq,
      Ranges.reached_append]
  · intro perRecord r given
    -- What a slot that stores record by record backs is stored.
    have holds := LawfulFlushing.backs_holds _ _ backs perRecord r given
    rw [rules] at holds
    exact ⟨_, shown, LawfulFlushing.holds_mono first.sink holds (Content.within_refl _)
      deliveredFrom_subset⟩

/-- An operation that every slot comes through leaves a watched tee in step with the loop. -/
theorem Watching.watch (holds : Watching opened base expected w)
    (above : ∀ r ∈ record, expected ≤ r.sourceOffset)
    (keeps : Keeps record w.tee.inners tee.inners) :
    Watching opened base (headAfter record expected) (w.watch record tee) where
  length := keeps.length_eq.symm.trans holds.length
  slots i first slot' open_ there := by
    -- The slot alone decides, by what it told of in the operation.
    obtain ⟨slot, here, kept⟩ := getElem?_of_forall₂ keeps.flip there
    have telling := holds.slots i first slot open_ here
    obtain ⟨added, told, kept⟩ := kept _ telling.backs
    exact holds.slot_watch above telling here there told kept
  capable i slot' there := by
    obtain ⟨slot, here, kept⟩ := getElem?_of_forall₂ keeps.flip there
    obtain ⟨first, -, telling⟩ := holds.slot here
    obtain ⟨added, told, -⟩ := kept _ telling.backs
    rw [holds.capable i slot here, told.supports]
  chained i := by
    rw [toldBy_watch]
    exact (holds.toldBy_moment keeps.tells List.prefix_rfl i).1
  quiet i incapable := by
    rw [toldBy_watch, holds.quiet i incapable,
      (holds.toldBy_moment keeps.tells List.prefix_rfl i).2 incapable, List.append_nil]
  passed r given := by
    rw [delivered_watch] at given
    rcases List.mem_append.mp given with done | new
    · exact Nat.lt_of_lt_of_le (holds.passed r done) (le_headAfter expected)
    · obtain rfl : record = some r := Option.mem_toList.mp new
      simp only [headAfter, above r rfl, if_true]
      exact Nat.lt_succ_self _
  truth := holds.watch_truth above keeps.tells

end Watch

end MirrorV3
