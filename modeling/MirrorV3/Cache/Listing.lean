import MirrorV3.Cache.Readiness

/-! The routes of a cache while records are applied: which answers come from one state. -/

namespace MirrorV3

/-- A partition's last-seen offset as the header spells it. -/
structure TopicPartitionOffsetJson where
  offset : Nat
  partition : UInt32
  topic : String
  deriving Repr, DecidableEq

/-- What a response carries after its headers. -/
inductive ResponseBody where
  | empty
  | bytes (content : Bytes)
  | readiness (content : MirrorReadiness)
  deriving Repr, DecidableEq

/-- A response of the cache routes. -/
structure Response where
  status : StatusCode
  /-- The last-seen offsets. -/
  lastSeenOffsets : Option (List TopicPartitionOffsetJson)
  /-- The offset of the record that wrote the value. -/
  keyOffset : Option Nat
  contentType : Option String
  body : ResponseBody
  deriving Repr, DecidableEq

/-- A response of a status alone. -/
def Response.ofStatus (status : StatusCode) : Response := ⟨status, none, none, none, .empty⟩

/-- The response to a request that is refused. -/
def Refusal.response : Refusal → Response
  | .notFound => .ofStatus .notFound
  | .serviceUnavailable body => ⟨.serviceUnavailable, none, none, none, .readiness body⟩

/-- The header of a snapshot of offsets. -/
def offsetsHeader (offsets : List TopicPartitionOffset) : List TopicPartitionOffsetJson :=
  offsets.map fun tpo => ⟨tpo.offset, tpo.partition, tpo.topic⟩

/-- The header of a mirror, if the mirror is known. -/
def offsetsHeaderFor (cache : CacheState) (mirror : String) :
    Option (List TopicPartitionOffsetJson) :=
  (cache.snapshotOffsetsFor mirror).map offsetsHeader

/-- The byte every line ends with. -/
def lineEnd : UInt8 := 10

/-- The two routes that list a whole mirror. -/
inductive Listing where
  | keys
  | values
  deriving Repr, DecidableEq

/-- The lines of a listing, each ended by a line end, from one read of the view. -/
def Listing.body (listing : Listing) (cache : CacheState) (mirror : String) : Option Bytes :=
  match listing with
  | .keys => (cache.snapshotKeysFor mirror).map (·.flatMap fun k => k.toUTF8.data.toList ++ [lineEnd])
  | .values => (cache.snapshotValuesFor mirror).map (·.flatMap fun v => v ++ [lineEnd])

/-- The content type of a listing. -/
def Listing.contentType : Listing → String
  | .keys => "application/octet-stream"
  | .values => "text/plain; charset=utf-8"

/-- A record on its way to the slot of a mirror. -/
abbrev Application := String × Record

/-- Apply records to the slots they are for, one after the other. -/
def CacheState.applyEach (s : CacheState) (applications : List Application) : CacheState :=
  applications.foldl (fun s application => s.applyRecord application.1 application.2) s

/-- The records that are applied around the reads of one request. -/
structure Interleaving where
  /-- Before the request looks the mirror up. -/
  beforeLookup : List Application
  /-- After that, before it lists the view. -/
  beforeListing : List Application
  /-- After that, before it reads the offsets. -/
  beforeOffsets : List Application
  /-- After its last read. -/
  afterwards : List Application

namespace Interleaving

/-- What was applied when the view was listed. -/
def atListing (i : Interleaving) : List Application := i.beforeLookup ++ i.beforeListing

/-- What was applied when the offsets were read. -/
def atOffsets (i : Interleaving) : List Application := i.atListing ++ i.beforeOffsets

/-- What was applied in the end. -/
def applied (i : Interleaving) : List Application := i.atOffsets ++ i.afterwards

end Interleaving

/-- Answer a request for a listing, reading the view and the offsets one after the other. -/
def Listing.respond (listing : Listing) (mirror : String) (cache : CacheState) (i : Interleaving) :
    Response :=
  -- A mirror never leaves the registry, so looking it up and its gate are one read.
  match resolveMirror (cache.applyEach i.beforeLookup) mirror with
  | .error refusal => refusal.response
  | .ok () =>
    match listing.body (cache.applyEach i.atListing) mirror with
    | none => .ofStatus .notFound
    | some body =>
      ⟨.ok, offsetsHeaderFor (cache.applyEach i.atOffsets) mirror, none,
        some listing.contentType, .bytes body⟩

/-- Answer a request for one value from a single read. -/
def rawByKey (cache : CacheState) (mirror key : String) : Response :=
  match resolveMirror cache mirror with
  | .error refusal => refusal.response
  | .ok () =>
    if key.isEmpty then .ofStatus .badRequest
    else
      match cache.readValue mirror key with
      | none => .ofStatus .notFound
      | some read =>
        match read.value with
        | none => .ofStatus .notFound
        | some (bytes, offset) =>
          ⟨.ok, some (offsetsHeader read.offsets), some offset, some "application/octet-stream",
            .bytes bytes⟩

/-- A listing whose body and header come from one state of the mirror. -/
def Consistent (listing : Listing) (mirror : String) (cache : CacheState)
    (applied : List Application) (response : Response) : Prop :=
  ∃ earlier, earlier <+: applied
    ∧ (listing.body (cache.applyEach earlier) mirror).map .bytes = some response.body
    ∧ offsetsHeaderFor (cache.applyEach earlier) mirror = response.lastSeenOffsets

/-- A value read at one moment carries the header of that moment's state. -/
theorem rawByKey_oneState {cache : CacheState} {mirror key : String}
    (answered : (rawByKey cache mirror key).status = .ok) :
    (rawByKey cache mirror key).lastSeenOffsets = offsetsHeaderFor cache mirror := by
  revert answered
  unfold rawByKey
  cases resolveMirror cache mirror with
  | error refusal => cases refusal <;> exact fun answered => nomatch answered
  | ok _ =>
    by_cases empty : key.isEmpty = true
    · simp [empty, Response.ofStatus]
    · simp only [empty, if_false, Bool.false_eq_true]
      unfold offsetsHeaderFor CacheState.snapshotOffsetsFor CacheState.readValue
      cases found : cache.mirrors.get? mirror with
      | none => exact fun answered => nomatch answered
      | some slot =>
        cases held : slot.data.view with
        | none => simp [held, Response.ofStatus]
        | some view => cases entry : view.get? key <;> simp [held, entry, Response.ofStatus]

section Data

variable {mirror : String}

/-- The data of a mirror, which is all that listings and headers are made of. -/
def CacheState.dataOf (s : CacheState) (mirror : String) : Option SlotData :=
  (s.mirrors.get? mirror).map (·.data)

/-- The lines of a listing from the data it is read from. -/
def Listing.render (listing : Listing) (data : SlotData) : Option Bytes :=
  data.view.map fun view =>
    match listing with
    | .keys => (view.map (·.1)).flatMap fun k => k.toUTF8.data.toList ++ [lineEnd]
    | .values => (view.map (·.2.value)).flatMap fun v => v ++ [lineEnd]

/-- A listing is a matter of the data alone. -/
theorem Listing.body_eq (listing : Listing) (s : CacheState) :
    listing.body s mirror = (s.dataOf mirror).bind listing.render := by
  unfold CacheState.dataOf
  cases listing <;>
    simp only [Listing.body, CacheState.snapshotKeysFor, CacheState.snapshotValuesFor] <;>
    cases s.mirrors.get? mirror with
    | none => rfl
    | some slot => cases held : slot.data.view <;> simp [render, held]

/-- A header is a matter of the data alone. -/
theorem offsetsHeaderFor_eq (s : CacheState) :
    offsetsHeaderFor s mirror
      = (s.dataOf mirror).map fun data => offsetsHeader (sortedOffsets data.offsets) := by
  unfold offsetsHeaderFor CacheState.snapshotOffsetsFor CacheState.dataOf
  cases s.mirrors.get? mirror <;> rfl

/-- The last-seen offsets added up, each counted one higher so that a first one counts. -/
def SlotData.weight (data : SlotData) : Nat := (data.offsets.map (·.2 + 1)).sum

/-- A key's new value replaces its old one in the sum. -/
theorem sum_insert (map : IndexMap TopicPartition Nat) (key : TopicPartition) (value : Nat) :
    ((map.insert key value).map (·.2 + 1)).sum + ((map.get? key).map (· + 1)).getD 0
      = (map.map (·.2 + 1)).sum + (value + 1) := by
  induction map with
  | nil => simp [IndexMap.insert, IndexMap.get?]
  | cons entry rest ih =>
    obtain ⟨first, held⟩ := entry
    by_cases same : first = key
    · subst same
      simp [IndexMap.insert, IndexMap.get?]
      omega
    · have passed : (key == first) = false := by simpa using Ne.symm same
      simp only [IndexMap.insert, if_neg same, IndexMap.get?, List.lookup_cons, passed, List.map_cons,
        List.sum_cons] at ih ⊢
      omega

/-- A record leaves the data as it was or adds to its weight. -/
theorem MirrorSlot.data_applyRecord (slot : MirrorSlot) (tolerance : Nat) (record : Record) :
    (slot.applyRecord tolerance record).data = slot.data
      ∨ slot.data.weight < (slot.applyRecord tolerance record).data.weight := by
  rw [applyRecord_eq]
  cases seen : slot.hasSeen record with
  | true => exact .inl rfl
  | false =>
    right
    obtain ⟨status, recomputed⟩ := recomputeStatus_eq
      { slot.see record with
        lastAppliedOffset := max (slot.see record).lastAppliedOffset (addOne record.sourceOffset) }
      tolerance
    rw [if_neg Bool.false_ne_true, count, recomputed]
    show slot.data.weight < (slot.see record).data.weight
    have replaced := sum_insert slot.data.offsets record.topicPartition record.sourceOffset
    -- What the record replaces is an offset below its own, or nothing.
    have below : ((slot.data.offsets.get? record.topicPartition).map (· + 1)).getD 0
        < record.sourceOffset + 1 := by
      unfold hasSeen at seen
      cases last : slot.data.offsets.get? record.topicPartition with
      | none => simp
      | some offset => simpa [last] using seen
    simp only [SlotData.weight, MirrorSlot.see]
    omega

/-- The data of a mirror before and after some records: the same, or of more weight. -/
def Grown (before after : Option SlotData) : Prop :=
  after = before ∨ (before.map (·.weight)).getD 0 < (after.map (·.weight)).getD 0

/-- One record, for this mirror or another, grows the data if it changes it. -/
theorem dataOf_applyRecord (mirror : String) (s : CacheState) (mirrorName : String) (record : Record) :
    Grown (s.dataOf mirror) ((s.applyRecord mirrorName record).dataOf mirror) := by
  by_cases same : mirror = mirrorName
  · subst same
    unfold CacheState.dataOf
    rw [CacheState.get?_applyRecord]
    cases s.mirrors.get? mirror with
    | none => exact .inl rfl
    | some slot =>
      rcases slot.data_applyRecord s.readinessLagTolerance record with unchanged | heavier
      · exact .inl (congrArg some unchanged)
      · exact .inr heavier
  · left
    unfold CacheState.dataOf CacheState.applyRecord
    cases s.mirrors.get? mirrorName with
    | none => rfl
    | some slot => simp [IndexMap.get?_insert_of_ne same]

/-- Records applied one after the other grow the data if they change it. -/
theorem dataOf_applyEach (mirror : String) (s : CacheState) (applications : List Application) :
    Grown (s.dataOf mirror) ((s.applyEach applications).dataOf mirror) := by
  induction applications generalizing s with
  | nil => exact .inl rfl
  | cons application applications ih =>
    have here := dataOf_applyRecord mirror s application.1 application.2
    have later := ih (s.applyRecord application.1 application.2)
    simp only [CacheState.applyEach, List.foldl_cons] at later ⊢
    rcases here with same | heavier <;> rcases later with same' | heavier'
    · exact .inl (same'.trans same)
    · exact .inr (by rw [same] at heavier'; exact heavier')
    · exact .inr (by rw [same']; exact heavier)
    · exact .inr (Nat.lt_trans heavier heavier')

/-- Equal headers weigh the same. -/
theorem weight_of_header {s s' : CacheState}
    (same : offsetsHeaderFor s mirror = offsetsHeaderFor s' mirror) :
    ((s.dataOf mirror).map (·.weight)).getD 0 = ((s'.dataOf mirror).map (·.weight)).getD 0 := by
  -- Sorting a header does not change what its offsets add up to.
  have total : ∀ s : CacheState, ((s.dataOf mirror).map (·.weight)).getD 0
      = ((offsetsHeaderFor s mirror).map fun header => (header.map (·.offset + 1)).sum).getD 0 := by
    intro s
    rw [offsetsHeaderFor_eq]
    cases s.dataOf mirror with
    | none => rfl
    | some data =>
      have sorted := (List.mergeSort_perm (data.offsets.map fun entry =>
        (⟨entry.1.topic, entry.1.partition, entry.2⟩ : TopicPartitionOffset))
        TopicPartitionOffset.before).map (·.offset + 1)
      have sums := sorted.sum_nat
      simp only [List.map_map] at sums
      simpa [SlotData.weight, offsetsHeader, sortedOffsets, Function.comp_def] using sums.symm
  rw [total, total, same]

/-- Of two moments with the same header the data is the same. -/
theorem dataOf_eq_of_header {s : CacheState} {earlier later : List Application}
    (ordered : earlier <+: later)
    (same : offsetsHeaderFor (s.applyEach earlier) mirror
      = offsetsHeaderFor (s.applyEach later) mirror) :
    (s.applyEach earlier).dataOf mirror = (s.applyEach later).dataOf mirror := by
  obtain ⟨between, rfl⟩ := ordered
  have weights := weight_of_header same
  have grown := dataOf_applyEach mirror (s.applyEach earlier) between
  have split : s.applyEach (earlier ++ between) = (s.applyEach earlier).applyEach between := by
    simp only [CacheState.applyEach, List.foldl_append]
  rw [split] at weights ⊢
  rcases grown with unchanged | heavier
  · exact unchanged.symm
  · omega

end Data

/--
A listing is one state's exactly when nothing it shows changed between the handler's two reads.

The body is of the moment the view was listed, the header of the later moment the offsets were
read, and the header of a moment tells the mirror's data at that moment.
-/
theorem listing_consistent_iff (listing : Listing) (mirror : String) (cache : CacheState)
    (i : Interleaving) (answered : (listing.respond mirror cache i).status = .ok) :
    Consistent listing mirror cache i.applied (listing.respond mirror cache i)
      ↔ listing.body (cache.applyEach i.atOffsets) mirror
        = listing.body (cache.applyEach i.atListing) mirror := by
  unfold Listing.respond at answered ⊢
  cases gate : resolveMirror (cache.applyEach i.beforeLookup) mirror with
  | error refusal =>
    rw [gate] at answered
    cases refusal <;> cases answered
  | ok _ =>
    rw [gate] at answered
    simp only at answered ⊢
    cases listed : listing.body (cache.applyEach i.atListing) mirror with
    | none =>
      rw [listed] at answered
      cases answered
    | some body =>
      simp only [Consistent]
      constructor
      · rintro ⟨earlier, before, sameBody, sameHeader⟩
        have lines : listing.body (cache.applyEach earlier) mirror = some body := by
          cases shown : listing.body (cache.applyEach earlier) mirror with
          | none => simp [shown] at sameBody
          | some bytes => simpa [shown] using sameBody
        -- That moment and the header's are both moments of the same run, in one order or the other.
        have atOffsets : i.atOffsets <+: i.applied := List.prefix_append _ _
        have same : (cache.applyEach earlier).dataOf mirror
            = (cache.applyEach i.atOffsets).dataOf mirror := by
          rcases List.prefix_or_prefix_of_prefix before atOffsets with ordered | ordered
          · exact dataOf_eq_of_header ordered sameHeader
          · exact (dataOf_eq_of_header ordered sameHeader.symm).symm
        rw [Listing.body_eq, ← same, ← Listing.body_eq, lines]
      · intro unchanged
        refine ⟨i.atOffsets, List.prefix_append _ _, ?_, rfl⟩
        rw [unchanged]
        rfl

namespace Sample

/-- A record that writes a value under a one-letter key. -/
def put (offset : Nat) (key : UInt8) : Record :=
  { record offset with key := some [key], value := some [48] }

/-- A cache that has caught up, with the key `a` in it. -/
def caughtUp : CacheState :=
  ((CacheState.new 0).registerMirrorWithTopic "m" 1 none false "t" 0).applyRecord "m" (put 0 97)

/-- A second key is written after the listing was read and before its header is. -/
def torn : Interleaving := ⟨[], [], [("m", put 1 98)], []⟩

/-- The same key is written once more between the two reads, which no listing of keys shows. -/
def unseen : Interleaving := ⟨[], [], [("m", put 1 97)], []⟩

/-- The keys are the same before and after the overwrite, so the listing is of one state. -/
theorem listing_consistent_iff_sample :
    Consistent .keys "m" caughtUp unseen.applied (Listing.keys.respond "m" caughtUp unseen)
      ↔ Listing.keys.body (caughtUp.applyEach unseen.atOffsets) "m"
        = Listing.keys.body (caughtUp.applyEach unseen.atListing) "m" :=
  listing_consistent_iff .keys "m" caughtUp unseen (by decide +kernel)

/-- The response to a torn request lists one key under a header that claims the second record. -/
theorem torn_listing :
    (Listing.keys.respond "m" caughtUp torn).status = .ok
    ∧ (Listing.keys.respond "m" caughtUp torn).body = .bytes [97, 10]
    ∧ (Listing.keys.respond "m" caughtUp torn).lastSeenOffsets = some [⟨1, 0, "t"⟩]
    ∧ ¬ Consistent .keys "m" caughtUp torn.applied (Listing.keys.respond "m" caughtUp torn) := by
  refine ⟨by decide +kernel, by decide +kernel, by decide +kernel, ?_⟩
  rintro ⟨earlier, before, body, header⟩
  -- Before the record the header is the earlier one, after it the body has both keys.
  match earlier with
  | [] => exact absurd header (by decide +kernel)
  | application :: rest =>
    obtain ⟨rfl, later⟩ := List.cons_prefix_cons.mp before
    obtain rfl := List.prefix_nil.mp later
    exact absurd body (by decide +kernel)

end Sample

end MirrorV3
