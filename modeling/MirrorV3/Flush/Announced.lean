import Mathlib.Data.List.Induction
import Mathlib.Data.List.Nodup
import MirrorV3.Flush.Observer
import MirrorV3.Fs.Store

/-! When a tee tells its observer that every flush-capable destination went further. -/

namespace MirrorV3

section Least

variable {positions : List Nat} {position : Nat}

/-- Nothing is below the least. -/
theorem leastOf_le (mem : position ∈ positions) : leastOf positions ≤ position := by
  unfold leastOf
  cases least : positions.min? with
  | none => simp
  | some least' => exact (List.min?_eq_some_iff.mp least).2 position mem

/-- The least is one of the positions. -/
theorem leastOf_mem (nonempty : positions ≠ []) : leastOf positions ∈ positions := by
  unfold leastOf
  cases least : positions.min? with
  | none => exact absurd (List.min?_eq_none_iff.mp least) nonempty
  | some least' => exact (List.min?_eq_some_iff.mp least).1

/-- What is not above any position is not above the least. -/
theorem le_leastOf (nonempty : positions ≠ []) (each : ∀ p ∈ positions, position ≤ p) :
    position ≤ leastOf positions :=
  each _ (leastOf_mem nonempty)

/-- The least of positions that all moved by one moved by one. -/
theorem leastOf_map_add_one (nonempty : positions ≠ []) :
    leastOf (positions.map (· + 1)) = leastOf positions + 1 := by
  apply Nat.le_antisymm
  · exact leastOf_le (List.mem_map_of_mem (leastOf_mem nonempty))
  · refine le_leastOf (by simpa using nonempty) fun p mem => ?_
    obtain ⟨q, listed, rfl⟩ := List.mem_map.mp mem
    exact Nat.succ_le_succ (leastOf_le listed)

end Least

section Calls

variable {inner : Nat} {event : FlushEvent} {events more : List FlushEvent}

/-- The ranges one inner sink told of. -/
def rangesOf (inner : Nat) (events : List FlushEvent) : List (Nat × Nat) :=
  (events.filter (·.inner = inner)).map fun event => (event.from_, event.to_)

/-- How far an inner sink has told of, and 0 before it has told of anything. -/
def flushedTo (events : List FlushEvent) (inner : Nat) : Nat :=
  ((rangesOf inner events).getLast?.map (·.2)).getD 0

/-- Calls of a first part and of what follows it. -/
theorem rangesOf_append :
    rangesOf inner (events ++ more) = rangesOf inner events ++ rangesOf inner more := by
  simp [rangesOf]

/-- A call of the inner sink is its last one. -/
theorem rangesOf_concat_self :
    rangesOf event.inner (events ++ [event])
      = rangesOf event.inner events ++ [(event.from_, event.to_)] := by
  simp [rangesOf]

/-- A call of another inner sink is none of its own. -/
theorem rangesOf_concat_of_ne (other : event.inner ≠ inner) :
    rangesOf inner (events ++ [event]) = rangesOf inner events := by
  simp [rangesOf, other]

/-- A call moves the inner sink that made it. -/
theorem flushedTo_concat_self : flushedTo (events ++ [event]) event.inner = event.to_ := by
  simp [flushedTo, rangesOf_concat_self]

/-- A call moves no inner sink that did not make it. -/
theorem flushedTo_concat_of_ne (other : event.inner ≠ inner) :
    flushedTo (events ++ [event]) inner = flushedTo events inner := by
  simp [flushedTo, rangesOf_concat_of_ne other]

/-- Along a chain an inner sink told of everything below the position it reached. -/
theorem flushedTo_add_one (start : Nat) (told : rangesOf inner events ≠ []) :
    flushedTo events inner + 1 = Ranges.reached start (rangesOf inner events) := by
  unfold flushedTo Ranges.reached
  cases last : (rangesOf inner events).getLast? with
  | none => simp [told] at last
  | some range => rfl

/-- Along a chain an inner sink only ever tells of more. -/
theorem flushedTo_le_concat {start : Nat}
    (chained : Ranges.Chained start (rangesOf event.inner (events ++ [event]))) :
    flushedTo events event.inner ≤ event.to_ := by
  rw [rangesOf_concat_self, Ranges.chained_concat] at chained
  obtain ⟨-, follows, ordered⟩ := chained
  by_cases told : rangesOf event.inner events = []
  · simp [flushedTo, told]
  · have := flushedTo_add_one start told
    simp only at follows ordered
    omega

end Calls

namespace FlushWiring

variable {wiring : FlushWiring} {event : FlushEvent} {events : List FlushEvent}

/-- The last call meets the wiring that the calls before it left. -/
theorem after_concat :
    wiring.after (events ++ [event]) = ((wiring.after events).onFlushed event).1 := by
  simp [after]

/-- The last call announces what it does with the wiring that the calls before it left. -/
theorem announced_concat :
    wiring.announced (events ++ [event])
      = wiring.announced events ++ ((wiring.after events).onFlushed event).2.toList := by
  induction events generalizing wiring with
  | nil => simp [announced, after]
  | cons first rest ih =>
    simp only [List.cons_append, announced, ih, List.append_assoc]
    rfl

/-- A sink that has the observer itself announces each range it tells of. -/
theorem direct_announced {inner : Nat} :
    (direct inner).announced events = rangesOf inner events
      ∧ (direct inner).after events = direct inner := by
  induction events using List.reverseRecOn with
  | nil => exact ⟨rfl, rfl⟩
  | append_singleton events event ih =>
    rw [announced_concat, after_concat, ih.1, ih.2]
    refine ⟨?_, rfl⟩
    by_cases own : event.inner = inner
    · subst own
      simp [onFlushed, rangesOf_concat_self]
    · simp [onFlushed, own, rangesOf_concat_of_ne own]

end FlushWiring

/-- Calls of flush-capable inner sinks that each go on where their sink ended. -/
structure Chained (supporting : List Nat) (opening : Nat → Nat) (events : List FlushEvent) :
    Prop where
  capable : ∀ event ∈ events, event.inner ∈ supporting
  chained : ∀ inner, Ranges.Chained (opening inner) (rangesOf inner events)

namespace Chained

variable {supporting : List Nat} {opening : Nat → Nat} {event : FlushEvent}
  {events : List FlushEvent}

/-- Calls up to any moment are chained as well. -/
theorem before {more : List FlushEvent} (holds : Chained supporting opening (events ++ more)) :
    Chained supporting opening events where
  capable event mem := holds.capable event (List.mem_append_left _ mem)
  chained inner := (Ranges.chained_append.mp (rangesOf_append ▸ holds.chained inner)).1

/-- A call leaves no inner sink further back than it was. -/
theorem flushedTo_le (holds : Chained supporting opening (events ++ [event])) (inner : Nat) :
    flushedTo events inner ≤ flushedTo (events ++ [event]) inner := by
  by_cases own : event.inner = inner
  · subst own
    rw [flushedTo_concat_self]
    exact flushedTo_le_concat (holds.chained event.inner)
  · rw [flushedTo_concat_of_ne own]

/-- A call leaves the slowest inner sink no further back. -/
theorem leastOf_le (holds : Chained supporting opening (events ++ [event])) :
    leastOf (supporting.map (flushedTo events))
      ≤ leastOf (supporting.map (flushedTo (events ++ [event]))) := by
  cases supporting with
  | nil => exact Nat.le_refl _
  | cons first rest =>
    refine le_leastOf (by simp) fun p mem => ?_
    obtain ⟨inner, listed, rfl⟩ := List.mem_map.mp mem
    exact Nat.le_trans (MirrorV3.leastOf_le (List.mem_map_of_mem listed)) (holds.flushedTo_le inner)

end Chained

/-- A coordinator that has noted some calls. -/
def coordinated (supporting : List Nat) (events : List FlushEvent) : MinFlushCoordinator :=
  let least := leastOf (supporting.map (flushedTo events))
  ⟨supporting.map (flushedTo events), if 0 < least then some least else none⟩

section Relayed

variable {supporting : List Nat} {opening : Nat → Nat} {event : FlushEvent}
  {events : List FlushEvent}

/-- Noting a call moves the sink that made it. -/
theorem modify_flushedTo {sinkIndex : Nat} (nodup : supporting.Nodup)
    (relay : supporting.idxOf? event.inner = some sinkIndex)
    (further : flushedTo events event.inner ≤ event.to_) :
    (supporting.map (flushedTo events)).modify sinkIndex (max event.to_)
      = supporting.map (flushedTo (events ++ [event])) := by
  obtain ⟨inside, here, -⟩ := List.idxOf?_eq_some_iff.mp relay
  apply List.ext_getElem (by simp)
  intro i at_before at_after
  simp only [List.getElem_modify, List.getElem_map]
  by_cases same : sinkIndex = i
  · subst same
    simp only [here, if_true, flushedTo_concat_self]
    omega
  · -- A relay index belongs to one inner sink only.
    have within : i < supporting.length := by simpa using at_after
    have other : event.inner ≠ supporting[i] := by
      intro equal
      exact same ((nodup.getElem_inj_iff).mp (here.trans equal))
    rw [if_neg same, flushedTo_concat_of_ne other]

/-- Noting a call fires exactly when the slowest sink is further than before. -/
theorem note_coordinated {sinkIndex : Nat} (nodup : supporting.Nodup)
    (relay : supporting.idxOf? event.inner = some sinkIndex)
    (holds : Chained supporting opening (events ++ [event])) :
    (coordinated supporting events).note sinkIndex event.to_
      = (coordinated supporting (events ++ [event]),
          if leastOf (supporting.map (flushedTo events))
              < leastOf (supporting.map (flushedTo (events ++ [event]))) then
            some (leastOf (supporting.map (flushedTo events)),
              leastOf (supporting.map (flushedTo (events ++ [event]))))
          else none) := by
  -- The call moves one slot of the coordinator, whose least then decides.
  have moved := modify_flushedTo nodup relay (flushedTo_le_concat (holds.chained event.inner))
  have least := holds.leastOf_le
  simp only [coordinated, MinFlushCoordinator.note, moved]
  by_cases fired : 0 < leastOf (supporting.map (flushedTo events))
  · have : 0 < leastOf (supporting.map (flushedTo (events ++ [event]))) := by omega
    simp only [fired, this, if_true]
    split
    · rfl
    · -- The least stayed where it was.
      congr 3
      omega
  · have zero : leastOf (supporting.map (flushedTo events)) = 0 := by omega
    simp only [zero, Nat.lt_irrefl, if_false]
    split <;> simp_all

/-- Where every sink has told of something, the least of that is not below where they started. -/
theorem floor_le_leastOf {floor : Nat} (holds : Chained supporting opening events)
    (lowest : ∀ inner ∈ supporting, floor ≤ opening inner)
    (told : 0 < leastOf (supporting.map (flushedTo events))) :
    floor ≤ leastOf (supporting.map (flushedTo events)) := by
  cases supporting with
  | nil => exact absurd told (by simp [leastOf])
  | cons first rest =>
    refine le_leastOf (by simp) fun p mem => ?_
    have positive := Nat.lt_of_lt_of_le told (leastOf_le mem)
    obtain ⟨inner, listed, rfl⟩ := List.mem_map.mp mem
    have ranges : rangesOf inner events ≠ [] := by
      intro none
      simp [flushedTo, none] at positive
    obtain ⟨last, ends⟩ : ∃ last, (rangesOf inner events).getLast? = some last :=
      Option.isSome_iff_exists.mp (by simpa using ranges)
    have above := Ranges.le_of_mem (holds.chained inner) (List.mem_of_getLast? ends)
    simp only [flushedTo, ends, Option.map_some, Option.getD_some]
    exact Nat.le_trans (lowest inner listed) above

/-- What a coordinator that relays chained calls has announced. -/
theorem relayed_announced {floor : Nat} (nodup : supporting.Nodup)
    (lowest : ∀ inner ∈ supporting, floor ≤ opening inner)
    (holds : Chained supporting opening events) :
    let wiring := FlushWiring.relayed supporting (.new supporting.length)
    let least := leastOf (supporting.map (flushedTo events))
    wiring.after events = .relayed supporting (coordinated supporting events)
      ∧ ((wiring.announced events).map (·.2)).Pairwise (· < ·)
      ∧ (∀ range ∈ wiring.announced events, 0 < range.2 ∧ floor ≤ range.2 ∧ range.2 ≤ least)
      ∧ (0 < least → ∃ range ∈ wiring.announced events, range.2 = least) := by
  -- By induction on the calls, the last one as the step: it announces if the slowest went further.
  induction events using List.reverseRecOn with
  | nil =>
    have zero : supporting.map (flushedTo []) = List.replicate supporting.length 0 :=
      List.eq_replicate_iff.mpr ⟨by simp, by simp [flushedTo, rangesOf]⟩
    have least : leastOf (List.replicate supporting.length 0) = 0 := by
      cases supporting with
      | nil => rfl
      | cons first rest => simpa using @leastOf_mem (List.replicate (rest.length + 1) 0)
    simp [FlushWiring.after, FlushWiring.announced, MinFlushCoordinator.new, coordinated, zero,
      least]
  | append_singleton events event ih =>
    obtain ⟨after, increasing, bounded, reached⟩ := ih holds.before
    have least := holds.leastOf_le
    obtain ⟨sinkIndex, relay⟩ : ∃ sinkIndex, supporting.idxOf? event.inner = some sinkIndex :=
      Option.isSome_iff_exists.mp (List.isSome_idxOf?.mpr (holds.capable event (by simp)))
    simp only [FlushWiring.announced_concat, FlushWiring.after_concat, after,
      FlushWiring.onFlushed, relay, note_coordinated nodup relay holds]
    refine ⟨trivial, ?_⟩
    split
    · rename_i further
      refine ⟨?_, ?_, fun _ => ⟨_, List.mem_append_right _ (List.mem_singleton_self _), rfl⟩⟩
      · -- The new range ends above every range announced before.
        simp only [Option.toList_some, List.map_append, List.map_cons, List.map_nil,
          List.pairwise_append, List.pairwise_singleton, List.mem_map, List.mem_singleton]
        refine ⟨increasing, trivial, ?_⟩
        rintro _ ⟨range, mem, rfl⟩ _ rfl
        have := bounded range mem
        omega
      · intro range mem
        rcases List.mem_append.mp mem with earlier | new
        · have := bounded range earlier
          omega
        · simp only [Option.toList_some, List.mem_singleton] at new
          subst new
          have positive := Nat.lt_of_le_of_lt (Nat.zero_le _) further
          exact ⟨positive, floor_le_leastOf holds lowest positive, Nat.le_refl _⟩
    · rename_i unmoved
      have same : leastOf (supporting.map (flushedTo (events ++ [event])))
          = leastOf (supporting.map (flushedTo events)) := by omega
      simp only [same, Option.toList_none, List.append_nil]
      exact ⟨increasing, bounded, reached⟩

end Relayed

namespace TeeSink

variable {K : Type} [FlushingSink K] {tee : TeeSink K}

/-- No inner sink is wired twice. -/
theorem nodup_supporting : tee.supporting.Nodup := by
  have indices : (tee.inners.zipIdx.map (·.2)).Nodup := by
    rw [List.zipIdx_map_snd]
    exact List.nodup_range'
  rw [List.Nodup, List.pairwise_map] at indices
  refine List.Pairwise.filterMap _ (fun one other apart => ?_) indices
  -- Two slots with different indices give different indices, if they give any.
  simp only [Option.ite_none_right_eq_some, Option.some.injEq]
  rintro _ ⟨-, rfl⟩ _ ⟨-, rfl⟩
  exact apart

/-- No flush-capable inner sink is opened below the slowest inner sink. -/
theorem minHead_le_opening {inner : Nat} (capable : inner ∈ tee.supporting) :
    tee.minHead ≤ tee.opening inner := by
  obtain ⟨⟨slot, i⟩, mem, gives⟩ := List.mem_filterMap.mp capable
  simp only [Option.ite_none_right_eq_some, Option.some.injEq] at gives
  obtain ⟨-, rfl⟩ := gives
  have found := List.mk_mem_zipIdx_iff_getElem?.mp mem
  simp only [opening, found, Option.map_some, Option.getD_some]
  exact minHead_le (List.mem_of_getElem? found)

omit [FlushingSink K] in
/-- The catch-up event, if there is one, ends below the slowest inner sink. -/
theorem syntheticFlush_below (tee : TeeSink K) (committed : Option Nat) :
    (∀ range ∈ tee.syntheticFlush committed, range.2 < tee.minHead)
      ∧ ((tee.syntheticFlush committed).map (·.2)).Pairwise (· < ·) := by
  cases committed with
  | none => simp [syntheticFlush]
  | some committed =>
    simp only [syntheticFlush]
    split
    · refine ⟨fun range mem => ?_, by simp⟩
      rw [List.mem_singleton] at mem
      subst mem
      simp only
      omega
    · simp

end TeeSink

/-- What an opened tee's destinations told the observer it was given, in any order between them. -/
structure FlushHistory {K : Type} [FlushingSink K] (tee : TeeSink K) where
  /-- The committed offset the mirror was started with. -/
  committed : Option Nat
  /-- Where each destination began, as it was opened or as the source's low watermark moved it up. -/
  base : Nat → Nat
  raised : ∀ inner, tee.opening inner ≤ base inner
  events : List FlushEvent
  chained : Chained tee.supporting base events

namespace FlushHistory

variable {K : Type} [FlushingSink K] {tee : TeeSink K} (history : FlushHistory tee)

/-- Where a flush-capable destination is durable after the calls. -/
def durable (inner : Nat) : Nat :=
  Ranges.reached (history.base inner) (rangesOf inner history.events)

/-- Where all flush-capable destinations were durable before the calls. -/
def minOpening : Nat := leastOf (tee.supporting.map history.base)

/-- Where all flush-capable destinations are durable after the calls. -/
def minDurable : Nat := leastOf (tee.supporting.map history.durable)

/-- The ranges the calls made the observer hear of. -/
def wired : List (Nat × Nat) := tee.flushWiring.announced history.events

/-- The ranges the observer was told of, beginning with what it has to catch up on. -/
def announced : List (Nat × Nat) := tee.syntheticFlush history.committed ++ history.wired

/-- These ranges tell of the common advance, and of each position only once. -/
def ToldBy (ranges : List (Nat × Nat)) : Prop :=
  (history.minOpening < history.minDurable → ∃ range ∈ ranges, history.minDurable - 1 ≤ range.2)
    ∧ (ranges.map (·.2)).Pairwise (· < ·)

/-- The observer knows of the common advance, and is told of each position only once. -/
def Announces : Prop := history.ToldBy history.announced

/-- A flush-capable destination that told of something since the tee was opened. -/
def HasFlushed (inner : Nat) : Prop := ∃ event ∈ history.events, event.inner = inner

/-- A destination has told of something when it has told of a range. -/
theorem hasFlushed_iff (inner : Nat) :
    history.HasFlushed inner ↔ rangesOf inner history.events ≠ [] := by
  simp [HasFlushed, rangesOf]

/-- No flush-capable destination begins below the slowest inner sink. -/
theorem minHead_le_base {inner : Nat} (capable : inner ∈ tee.supporting) :
    tee.minHead ≤ history.base inner :=
  Nat.le_trans (TeeSink.minHead_le_opening capable) (history.raised inner)

/-- A single flush-capable destination has the observer itself. -/
theorem wired_single {inner : Nat} (single : tee.supporting = [inner]) :
    history.wired = rangesOf inner history.events := by
  simp only [wired, TeeSink.flushWiring, single]
  exact FlushWiring.direct_announced.1

/-- Several flush-capable destinations share a coordinator. -/
theorem flushWiring_several (several : 1 < tee.supporting.length) :
    tee.flushWiring = .relayed tee.supporting (.new tee.supporting.length) := by
  unfold TeeSink.flushWiring
  match listed : tee.supporting, several with
  | _ :: _ :: _, _ => rfl

/-- The observer hears of one position after the other, and of none below the slowest inner sink. -/
theorem rising :
    (history.wired.map (·.2)).Pairwise (· < ·) ∧ ∀ range ∈ history.wired, tee.minHead ≤ range.2 := by
  rcases Nat.lt_trichotomy 1 tee.supporting.length with several | single | empty
  · obtain ⟨-, increasing, bounded, -⟩ := relayed_announced TeeSink.nodup_supporting
      (fun _ => history.minHead_le_base) history.chained
    rw [← flushWiring_several several] at increasing bounded
    exact ⟨increasing, fun range mem => (bounded range mem).2.1⟩
  · obtain ⟨inner, single⟩ := List.length_eq_one_iff.mp single.symm
    have chained := history.chained.chained inner
    have floor : tee.minHead ≤ history.base inner :=
      history.minHead_le_base (by rw [single]; exact List.mem_singleton_self inner)
    rw [history.wired_single single]
    exact ⟨chained.increasing, fun range mem => Nat.le_trans floor (Ranges.le_of_mem chained mem)⟩
  · -- Without a flush-capable destination there are no calls.
    have silent : history.events = [] := List.eq_nil_iff_forall_not_mem.mpr fun event mem => by
      have capable := history.chained.capable event mem
      rw [List.length_eq_zero_iff.mp (by omega : tee.supporting.length = 0)] at capable
      cases capable
    simp [wired, silent, FlushWiring.announced]

/-- The catch-up event comes first, so the observer is told of one position after the other. -/
theorem announced_increasing : (history.announced.map (·.2)).Pairwise (· < ·) := by
  obtain ⟨below, single⟩ := TeeSink.syntheticFlush_below tee history.committed
  obtain ⟨increasing, above⟩ := history.rising
  rw [announced, List.map_append, List.pairwise_append]
  refine ⟨single, increasing, ?_⟩
  rintro _ early _ late
  obtain ⟨range, mem, rfl⟩ := List.mem_map.mp early
  obtain ⟨range', mem', rfl⟩ := List.mem_map.mp late
  exact Nat.lt_of_lt_of_le (below range mem) (above range' mem')

/-- A single flush-capable destination announces every advance of its own. -/
theorem told_single {inner : Nat} (single : tee.supporting = [inner]) :
    history.ToldBy history.wired := by
  have announced := history.wired_single single
  have least : history.minDurable = history.durable inner := by simp [minDurable, single, leastOf]
  have opened : history.minOpening = history.base inner := by simp [minOpening, single, leastOf]
  refine ⟨fun advanced => ?_, history.rising.1⟩
  rw [least, opened, durable] at advanced
  have told : rangesOf inner history.events ≠ [] := by
    intro none
    simp [none] at advanced
  obtain ⟨last, ends⟩ : ∃ last, (rangesOf inner history.events).getLast? = some last :=
    Option.isSome_iff_exists.mp (by simpa using told)
  refine ⟨last, announced ▸ List.mem_of_getLast? ends, ?_⟩
  simp [least, durable, Ranges.reached, ends]

/--
Several flush-capable destinations announce a common advance once each of them has flushed, and
then unless all they have is offset 0.
-/
theorem told_several (several : 1 < tee.supporting.length) :
    history.ToldBy history.wired ↔ history.minDurable ≤ history.minOpening
      ∨ 2 ≤ history.minDurable ∧ ∀ inner ∈ tee.supporting, history.HasFlushed inner := by
  -- What the relays announce ends at the last offset of the slowest inner sink.
  obtain ⟨-, increasing, bounded, reached⟩ := relayed_announced TeeSink.nodup_supporting
    (fun _ => history.minHead_le_base) history.chained
  rw [← flushWiring_several several] at increasing bounded reached
  have nonempty : tee.supporting ≠ [] := List.ne_nil_of_length_pos (by omega)
  by_cases flushed : ∀ inner ∈ tee.supporting, history.HasFlushed inner
  · -- Every destination is durable one past what it told of last.
    have each : tee.supporting.map history.durable
        = (tee.supporting.map (flushedTo history.events)).map (· + 1) := by
      rw [List.map_map]
      exact List.map_congr_left fun inner mem =>
        (flushedTo_add_one _ ((history.hasFlushed_iff inner).mp (flushed inner mem))).symm
    have least : history.minDurable
        = leastOf (tee.supporting.map (flushedTo history.events)) + 1 := by
      rw [minDurable, each, leastOf_map_add_one (by simpa using nonempty)]
    constructor
    · rintro ⟨known, -⟩
      rcases Nat.lt_or_ge history.minOpening history.minDurable with advanced | unmoved
      · obtain ⟨range, mem, -⟩ := known advanced
        have := bounded range mem
        exact .inr ⟨by omega, flushed⟩
      · exact .inl unmoved
    · rintro (unmoved | ⟨beyond, -⟩)
      · exact ⟨fun advanced => absurd advanced (Nat.not_lt.mpr unmoved), increasing⟩
      · obtain ⟨range, mem, last⟩ := reached (by omega)
        exact ⟨fun _ => ⟨range, mem, by omega⟩, increasing⟩
  · -- A destination that has not flushed holds the coordinator at 0.
    have least : leastOf (tee.supporting.map (flushedTo history.events)) = 0 := by
      obtain ⟨inner, mem, silent⟩ : ∃ inner ∈ tee.supporting, ¬ history.HasFlushed inner := by
        simpa using flushed
      rw [hasFlushed_iff, not_not] at silent
      have zero : flushedTo history.events inner = 0 := by simp [flushedTo, silent]
      have := leastOf_le (List.mem_map_of_mem (f := flushedTo history.events) mem)
      omega
    constructor
    · rintro ⟨known, -⟩
      rcases Nat.lt_or_ge history.minOpening history.minDurable with advanced | unmoved
      · obtain ⟨range, mem, -⟩ := known advanced
        have := bounded range mem
        omega
      · exact .inl unmoved
    · rintro (unmoved | ⟨-, all⟩)
      · exact ⟨fun advanced => absurd advanced (Nat.not_lt.mpr unmoved), increasing⟩
      · exact absurd all flushed

/-- The catch-up event is below everything the destinations tell of. -/
theorem announces_iff (capable : tee.supporting ≠ []) :
    history.Announces ↔ history.ToldBy history.wired := by
  obtain ⟨below, -⟩ := TeeSink.syntheticFlush_below tee history.committed
  have floor : tee.minHead ≤ history.minOpening :=
    le_leastOf (by simpa using capable) fun p mem => by
      obtain ⟨inner, listed, rfl⟩ := List.mem_map.mp mem
      exact history.minHead_le_base listed
  refine and_congr (imp_congr_right fun advanced => ?_)
    (iff_of_true history.announced_increasing history.rising.1)
  -- No catch-up event reaches as far as an advance does.
  constructor
  · rintro ⟨range, mem, far⟩
    rcases List.mem_append.mp mem with early | told
    · have := below range early
      omega
    · exact ⟨range, told, far⟩
  · rintro ⟨range, mem, far⟩
    exact ⟨range, List.mem_append_right _ mem, far⟩

end FlushHistory

/--
Whether the observer knows of the common advance, at every moment of every order of flushes.

A single flush-capable destination always announces it.
Several announce it once each has flushed since the tee was opened, unless all they have is
offset 0.
Where the source's low watermark moves a destination up at startup, it advances from there.
-/
theorem common_advance_announced_iff {K : Type} [FlushingSink K] {tee : TeeSink K}
    (capable : tee.supporting ≠ []) (history : FlushHistory tee) :
    history.Announces ↔ tee.supporting.length = 1 ∨ history.minDurable ≤ history.minOpening
      ∨ 2 ≤ history.minDurable ∧ ∀ inner ∈ tee.supporting, history.HasFlushed inner := by
  rw [history.announces_iff capable]
  rcases Nat.lt_or_ge 1 tee.supporting.length with several | single
  · rw [history.told_several several]
    constructor
    · exact .inr
    · rintro (one | holds)
      · omega
      · exact holds
  · have one : tee.supporting.length = 1 := by
      have := List.length_pos_iff.mpr capable
      omega
    obtain ⟨inner, only⟩ := List.length_eq_one_iff.mp one
    exact iff_of_true (history.told_single only) (.inl one)

namespace Sample

/-- Blob destinations opened at these positions. -/
def blobsAt (heads : List Nat) : TeeSink (BlobSink ObjectStore) :=
  ⟨heads.map fun head => ⟨"blob", blobAt none head, head⟩, none, none⟩

/-- Two destinations that each wrote an object with offset 0 and nothing else. -/
def firstObjects : FlushHistory (blobsAt [0, 0]) where
  committed := none
  base := (blobsAt [0, 0]).opening
  raised _ := Nat.le_refl _
  events := [⟨0, 0, 0⟩, ⟨1, 0, 0⟩]
  chained := by
    refine ⟨by decide, fun inner => ?_⟩
    match inner with
    | 0 => decide
    | 1 => decide
    | _ + 2 => simp [rangesOf, Ranges.Chained]

/-- A destination that was ahead when the tee was opened, and one that went on below it. -/
def catchingUp : FlushHistory (blobsAt [0, 5]) where
  committed := none
  base := (blobsAt [0, 5]).opening
  raised _ := Nat.le_refl _
  events := [⟨0, 0, 2⟩]
  chained := by
    refine ⟨by decide, fun inner => ?_⟩
    match inner with
    | 0 => decide
    | _ + 1 => simp [rangesOf, Ranges.Chained]

/-- The history with the first objects is decided by its condition. -/
theorem common_advance_announced_iff_sample :
    (firstObjects.Announces ↔ (blobsAt [0, 0]).supporting.length = 1
      ∨ firstObjects.minDurable ≤ firstObjects.minOpening
      ∨ 2 ≤ firstObjects.minDurable
        ∧ ∀ inner ∈ (blobsAt [0, 0]).supporting, firstObjects.HasFlushed inner) :=
  common_advance_announced_iff (by decide) firstObjects

/-- Offset 0 is durable at every destination, or offsets 0 to 2, and nobody is told. -/
theorem common_advance_unannounced :
    (firstObjects.minOpening < firstObjects.minDurable ∧ firstObjects.announced = []
      ∧ ¬ firstObjects.Announces)
    ∧ catchingUp.minOpening < catchingUp.minDurable ∧ catchingUp.announced = []
      ∧ ¬ catchingUp.Announces := by
  have silent : firstObjects.announced = [] ∧ catchingUp.announced = [] := by decide
  have advanced : firstObjects.minOpening < firstObjects.minDurable
      ∧ catchingUp.minOpening < catchingUp.minDurable := by decide
  refine ⟨⟨advanced.1, silent.1, ?_⟩, advanced.2, silent.2, ?_⟩
  · rintro ⟨known, -⟩
    obtain ⟨range, mem, -⟩ := known advanced.1
    simp [silent.1] at mem
  · rintro ⟨known, -⟩
    obtain ⟨range, mem, -⟩ := known advanced.2
    simp [silent.2] at mem

end Sample

end MirrorV3
