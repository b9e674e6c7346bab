import MirrorV3.Restore.Follow
import MirrorV3.Restore.Planned

/-! The arithmetic of chains is that of `u64`, which wraps behind its last position. -/

namespace MirrorV3

open Ranges

/-- What a mirror computes from a listing it accepts is what it would be without a bound. -/
structure ValidatedExactly (format : Format) (names : List String) (chain : Chain) : Prop where
  successor : ∀ name ∈ names, ∀ blob ∈ parseBlobName name format.extension,
    addOne blob.hi = blob.hi + 1
  /-- The mirror goes on above every object that is listed. -/
  durable : ∀ name ∈ names, ∀ blob ∈ parseBlobName name format.extension, blob.hi < chain.durable

/-- What a restore computes from the objects it planned is what it would be without a bound. -/
structure PlannedExactly (start : Nat) (objects : List ChainObject) : Prop where
  successor : ∀ object ∈ objects, addOne object.hi = object.hi + 1
  positions : ∀ object ∈ objects, Reader.positions object + object.lo = object.hi + 1
  /-- The positions of a source over these objects end behind the last of them. -/
  positionsEnd : ∀ {σ : Type} (source : ChainSource σ), source.chain = objects →
    source.cfg.chainStart = start → ∀ last ∈ objects.getLast?,
      source.positionsEnd + start = last.hi + 1 ∧ ∀ object ∈ objects, object.hi < last.hi + 1

variable {format : Format} {names : List String}

/-- A name of the last position there is leaves no exact successor. -/
theorem endBelowMax_of_successor
    (successor : ∀ name ∈ names, ∀ blob ∈ parseBlobName name format.extension,
      addOne blob.hi = blob.hi + 1) : EndBelowMax format names := by
  intro name listed blob parsed
  have exact_ := successor name listed blob parsed
  have wrapped : addOne blob.hi < 2 ^ 64 := Nat.mod_lt _ (by decide)
  omega

/-- Below the last position a mirror computes what it means to. -/
theorem validatedExactly {compaction : Option CompactionMode} {chain : Chain}
    (valid : validateChain names format compaction = .ok chain)
    (below : EndBelowMax format names) : ValidatedExactly format names chain := by
  obtain ⟨entries, reads, holds⟩ := (accepts_iff below chain).mp valid
  refine ⟨fun name listed blob parsed => ?_, fun name listed blob parsed => ?_⟩
  · have := below name listed blob parsed
    exact addOne_eq (by omega)
  · -- The entry that the name is read as ends where the name says.
    obtain ⟨entry, mem, readAs⟩ := Effect.exists_after_of_forall₂ reads listed
    obtain ⟨keyId, parsed'⟩ := readAs.parsed
    rw [Option.mem_def.mp parsed] at parsed'
    cases parsed'
    show entry.hi < chain.durable
    cases compaction with
    | none => exact (holds.tiling.inside entry.range (List.mem_map_of_mem mem)).2.2
    | some mode =>
      cases mode
      rcases holds.newest with ⟨rfl, -⟩ | ⟨last, -, highest, durable, -⟩
      · cases mem
      · have := highest entry mem
        omega

/-- Below the last position a restore computes what it means to. -/
theorem plannedExactly {start : Nat} {keyring : Option Keyring} {objects : List ChainObject}
    (planned : planChain names format start keyring = .ok objects)
    (below : EndBelowMax format names) : PlannedExactly start objects := by
  obtain ⟨read, reads, -, rfl, adjoins, -⟩ := planChain_ok_iff.mp planned
  have shuffled := List.mergeSort_perm read fun a b => a.entry.before b.entry
  generalize (read.mergeSort fun a b => a.entry.before b.entry) = objects at *
  have regular : ∀ object ∈ objects, object.lo ≤ object.hi ∧ object.hi + 1 < 2 ^ 64 := by
    intro object mem
    obtain ⟨name, listed, plannedAs⟩ := Effect.exists_after_of_forall₂ reads.flip
      (shuffled.mem_iff.mp mem)
    have := below name listed _ plannedAs.parsed
    simp only at this
    exact ⟨plannedAs.ordered, by omega⟩
  have gapless := contiguous_entries.mpr ⟨adjoins, rfl⟩
  rw [contiguous_eq_ok fun entry mem => by
    obtain ⟨object, listed, rfl⟩ := List.mem_map.mp mem
    exact regular object listed] at gapless
  obtain ⟨chained, -⟩ := gapless
  refine ⟨fun object mem => addOne_eq (regular object mem).2, fun object mem => ?_,
    fun source chain start_eq last at_end => ?_⟩
  · obtain ⟨ordered, inRange⟩ := regular object mem
    rw [Reader.positions, subtract_eq ordered (by omega), addOne_eq (by omega)]
    omega
  · have mem := List.mem_of_getLast? at_end
    obtain ⟨ordered, inRange⟩ := regular last mem
    have ranges : ∀ {object}, object ∈ objects →
        (object.lo, object.hi) ∈ (objects.map (·.entry)).map (·.range) := fun mem =>
      List.mem_map_of_mem (List.mem_map_of_mem mem)
    have starts : start ≤ last.hi := le_of_mem chained (ranges mem)
    -- The ranges end where the last of them does.
    have ends : reached start ((objects.map (·.entry)).map (·.range)) = last.hi + 1 := by
      rw [reached, List.getLast?_map, List.getLast?_map, at_end]
      rfl
    refine ⟨?_, fun object mem => ends ▸ lt_reached chained (ranges mem)⟩
    rw [ChainSource.positionsEnd, chain, at_end, start_eq, Option.map_some, Option.getD_some,
      addOne_eq inRange, subtract_eq (by omega) inRange]
    omega

/--
The successors, the positions and the ends computed from a listing that is accepted are exact, and
the mirror goes on above all that is listed, exactly when nothing listed ends at the last position.
-/
theorem computed_exactly_iff (names : List String) (format : Format) :
    (∀ compaction chain, validateChain names format compaction = .ok chain →
        (ValidatedExactly format names chain ↔ EndBelowMax format names))
      ∧ ∀ start keyring objects, planChain names format start keyring = .ok objects →
        (PlannedExactly start objects ↔ EndBelowMax format names) := by
  refine ⟨fun compaction chain valid => ⟨fun exactly => ?_, validatedExactly valid⟩,
    fun start keyring objects planned => ⟨fun exactly => ?_, plannedExactly planned⟩⟩
  · exact endBelowMax_of_successor exactly.successor
  · -- Every name is planned as some object.
    obtain ⟨read, reads, -, rfl, -, -⟩ := planChain_ok_iff.mp planned
    refine endBelowMax_of_successor fun name listed blob parsed => ?_
    obtain ⟨object, mem, plannedAs⟩ := Effect.exists_after_of_forall₂ reads listed
    have exact_ := exactly.successor object ((List.mergeSort_perm _ _).mem_iff.mpr mem)
    have parsed' := plannedAs.parsed
    rw [Option.mem_def.mp parsed] at parsed'
    cases parsed'
    exact exact_

namespace Sample

/-- Of names below the last position every end is exact. -/
theorem computed_exactly_straddled :
    ValidatedExactly .ndjson straddled ⟨10, none, ["3-7.ndjson", "8-9.ndjson"]⟩ := by
  have computed := (computed_exactly_iff straddled .ndjson).1 none _ validateChain_straddled
  refine computed.mpr ?_
  unfold EndBelowMax
  decide +kernel

/-- The name of an object of all positions there are. -/
def fullName : String := "00000000000000000000-18446744073709551615.ndjson"

/-- It is accepted both ways, and a mirror that goes on from it goes on at offset 0. -/
theorem not_computed_exactly :
    (validateChain [fullName] .ndjson none = .ok ⟨0, none, [fullName]⟩
        ∧ ¬ ValidatedExactly .ndjson [fullName] ⟨0, none, [fullName]⟩)
      ∧ planChain [fullName] .ndjson 0 none = .ok [⟨fullName, 0, 2 ^ 64 - 1, none⟩]
        ∧ ¬ PlannedExactly 0 [⟨fullName, 0, 2 ^ 64 - 1, none⟩] := by
  have parsed : parseBlobName fullName Format.ndjson.extension = some ⟨0, 2 ^ 64 - 1, none⟩ := by
    decide +kernel
  refine ⟨⟨?_, fun exactly => ?_⟩, ?_, fun exactly => ?_⟩
  · refine validateChain_append.mpr
      ⟨[⟨0, 2 ^ 64 - 1, fullName⟩], .cons ⟨rfl, by decide, none, parsed⟩ .nil, ?_⟩
    rw [List.mergeSort_singleton]
    decide
  · exact absurd (exactly.durable fullName List.mem_cons_self _ parsed) (by decide)
  · refine planChain_ok_iff.mpr ⟨[⟨fullName, 0, 2 ^ 64 - 1, none⟩],
      .cons ⟨rfl, by decide, parsed⟩ .nil, by simp, ?_, rfl, rfl⟩
    rw [List.mergeSort_singleton]
  · exact absurd (exactly.successor _ List.mem_cons_self) (by decide)

end Sample

end MirrorV3
