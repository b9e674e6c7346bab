import MirrorV3.Lib.Varint
import MirrorV3.Kafka.RestoreProducer

/-! A record as a batch of its own, byte for byte, and the size that a restore holds against a topic. -/

namespace MirrorV3

open Effect Varint

section Loop

/-- The loop that counts the groups of seven bits, given up after a number of turns. -/
def varintLoop : (turns : Nat) → (z : UInt64) → (n : Nat) → Option Nat
  | 0, z, n => if 0x80 ≤ z then none else some n
  | turns + 1, z, n => if 0x80 ≤ z then varintLoop turns (z >>> 7) (n + 1) else some n

/-- The number whose groups of seven bits are counted. -/
def zigzagBits (v : Int64) : UInt64 := ((v <<< 1) ^^^ (v >>> 63)).toUInt64

/-- Its bits are the zigzag of the signed number, the extreme ones included. -/
theorem toNat_zigzagBits (v : Int64) : (zigzagBits v).toNat = zigzag v.toInt := by
  -- A shift by 63 spreads the sign over every bit.
  show (v.toBitVec <<< (1#64).smod 64#64 ^^^ v.toBitVec.sshiftRight ((63#64).smod 64#64).toNat).toNat
    = _
  have one : (1#64).smod 64#64 = 1#64 := by decide
  have top : ((63#64).smod 64#64).toNat = 63 := by decide
  rw [one, top]
  exact toNat_zigzag

/-- Counting stops at the last group when there are turns enough for all. -/
theorem groupsOfSeven_eq (more : Nat) {z : Nat} (inRange : z < 128 ^ (more + 1)) :
    groupsOfSeven more z = (leb128 z).length := by
  induction more generalizing z with
  | zero => rw [groupsOfSeven, length_leb128_of_lt (by simpa using inRange)]
  | succ more ih =>
    rw [groupsOfSeven]
    by_cases large : 0x80 ≤ z
    · have less : z / 2 ^ 7 < 128 ^ (more + 1) := by
        rw [Nat.pow_succ] at inRange
        omega
      have seven : z / 2 ^ 7 = z / 128 := by omega
      rw [if_pos large, ih less, length_leb128_of_le large, seven]
    · rw [if_neg large, length_leb128_of_lt (by omega)]

/-- So does the loop, which has counted as many groups then. -/
theorem varintLoop_eq (turns : Nat) {z : UInt64} (n : Nat)
    (inRange : z.toNat < 128 ^ (turns + 1)) :
    varintLoop turns z (n + 1) = some (n + (leb128 z.toNat).length) := by
  induction turns generalizing z n with
  | zero =>
    have small : z.toNat < 128 := by simpa using inRange
    have ends : ¬ 0x80 ≤ z := by
      rw [UInt64.le_iff_toNat_le]
      exact Nat.not_le.mpr small
    rw [varintLoop, if_neg ends, length_leb128_of_lt small]
  | succ turns ih =>
    rw [varintLoop]
    have shifted : (z >>> 7).toNat = z.toNat / 128 := by
      rw [UInt64.toNat_shiftRight, Nat.shiftRight_eq_div_pow]
      rfl
    by_cases large : 128 ≤ z.toNat
    · have more : 0x80 ≤ z := UInt64.le_iff_toNat_le.mpr large
      have less : (z >>> 7).toNat < 128 ^ (turns + 1) := by
        rw [Nat.pow_succ] at inRange
        omega
      rw [if_pos more, ih (n + 1) less, shifted, length_leb128_of_le large]
      congr 1
      omega
    · have ends : ¬ 0x80 ≤ z := by
        rw [UInt64.le_iff_toNat_le]
        exact large
      rw [if_neg ends, length_leb128_of_lt (by omega)]

/-- The loop ends for every signed number, with the length that its encoding has. -/
theorem varintLen_spec (v : Int64) :
    varintLen v = (leb128 (zigzag v.toInt)).length
      ∧ ∀ turns ≥ 9, varintLoop turns (zigzagBits v) 1 = some (varintLen v) := by
  have inRange := (zigzagBits v).toNat_lt
  have length : varintLen v = (leb128 (zigzag v.toInt)).length := by
    rw [← toNat_zigzagBits]
    exact groupsOfSeven_eq 9 (Nat.lt_of_lt_of_le inRange (by decide))
  refine ⟨length, ?_⟩
  intro turns enough
  -- Ten groups of seven bits are more than 64.
  have room : (128 : Nat) ^ 10 ≤ 128 ^ (turns + 1) := Nat.pow_le_pow_right (by decide) (by omega)
  have groups : 2 ^ 64 ≤ 128 ^ 10 := by decide
  rw [varintLoop_eq turns 0 (by omega), Nat.zero_add, toNat_zigzagBits, length]

-- The least number takes ten bytes, and so does the greatest.
example : varintLen Int64.minValue = 10 ∧ varintLen Int64.maxValue = 10 := by decide +kernel

end Loop

section Encoding

/-- A number of so many bytes, the highest first. -/
def bigEndian (width n : Nat) : Bytes :=
  (List.range width).reverse.map fun place => UInt8.ofNat (n / 256 ^ place)

/-- It takes that many bytes. -/
@[simp] theorem length_bigEndian (width n : Nat) : (bigEndian width n).length = width := by
  simp [bigEndian]

/-- A signed number as a zigzag varint. -/
def varint (v : Int64) : Bytes := leb128 (zigzag v.toInt)

/-- A field after its length, which is -1 for a null. -/
def encodeField : Option Bytes → Bytes
  | none => varint (-1)
  | some b => varint (Int64.ofNat b.length) ++ b

/-- A header: its key and its value. -/
def encodeHeader (h : Header) : Bytes :=
  encodeField (some h.key.toUTF8.data.toList) ++ encodeField h.value

/-- The first record of a batch after its length, with no attributes and deltas of 0. -/
def encodeBody (record : Record) : Bytes :=
  [0] ++ varint 0 ++ varint 0 ++ encodeField record.key ++ encodeField record.value
    ++ varint (Int64.ofNat record.headers.length) ++ record.headers.flatMap encodeHeader

/-- A record after its length. -/
def encodeRecord (record : Record) : Bytes :=
  varint (Int64.ofNat (encodeBody record).length) ++ encodeBody record

/-- What a batch's header says that is not the same for every batch of one record. -/
structure BatchHeader where
  baseOffset : Int64
  partitionLeaderEpoch : Int32
  attributes : Int16
  baseTimestamp : Int64
  producerId : Int64
  producerEpoch : Int16
  baseSequence : Int32

/-- The part of a batch that its checksum is of. -/
def encodeChecked (header : BatchHeader) (record : Record) : Bytes :=
  bigEndian 2 header.attributes.toUInt16.toNat
    -- The last offset's delta: the batch has one record.
    ++ bigEndian 4 0
    -- The first and the last timestamp.
    ++ bigEndian 8 header.baseTimestamp.toUInt64.toNat
    ++ bigEndian 8 header.baseTimestamp.toUInt64.toNat
    ++ bigEndian 8 header.producerId.toUInt64.toNat
    ++ bigEndian 2 header.producerEpoch.toUInt16.toNat
    ++ bigEndian 4 header.baseSequence.toUInt32.toNat
    ++ bigEndian 4 1
    ++ encodeRecord record

/-- A batch of format version 2 that holds one record. -/
def encodeRecordBatch (checksum : Bytes → UInt32) (header : BatchHeader) (record : Record) : Bytes :=
  let checked := encodeChecked header record
  bigEndian 8 header.baseOffset.toUInt64.toNat
    -- The length of all that follows it.
    ++ bigEndian 4 (4 + 1 + 4 + checked.length)
    ++ bigEndian 4 header.partitionLeaderEpoch.toUInt32.toNat
    ++ [2]
    ++ bigEndian 4 (checksum checked).toNat
    ++ checked

/-- A varint is as long as it is counted to be. -/
@[simp] theorem length_varint (v : Int64) : (varint v).length = varintLen v :=
  (varintLen_spec v).1.symm

/-- A field is as long as it is counted to be, null or not. -/
@[simp] theorem length_encodeField (bytes : Option Bytes) :
    (encodeField bytes).length = fieldLen bytes := by
  cases bytes with
  | none => rw [encodeField, length_varint, fieldLen]
  | some b => rw [encodeField, List.length_append, length_varint, fieldLen]

/-- The headers are as long as each of them. -/
theorem length_headers (headers : List Header) :
    (headers.flatMap encodeHeader).length
      = (headers.map fun h => fieldLen (some h.key.toUTF8.data.toList) + fieldLen h.value).sum := by
  induction headers with
  | nil => rfl
  | cons h headers ih =>
    rw [List.flatMap_cons, List.length_append, ih, List.map_cons, List.sum_cons, encodeHeader,
      List.length_append, length_encodeField, length_encodeField]

/-- The size of a record alone is the length of the batch that holds it and nothing else. -/
theorem length_encodeRecordBatch (checksum : Bytes → UInt32) (header : BatchHeader) (record : Record) :
    (encodeRecordBatch checksum header record).length = singleRecordBatchBytes record := by
  -- The body comes first, since the record's own length is counted from it.
  have body : (encodeBody record).length = 1 + varintLen 0 + varintLen 0 + fieldLen record.key
      + fieldLen record.value + varintLen (Int64.ofNat record.headers.length)
      + (record.headers.map fun h =>
        fieldLen (some h.key.toUTF8.data.toList) + fieldLen h.value).sum := by
    simp only [encodeBody, List.length_append, length_varint, length_encodeField, length_headers,
      List.length_singleton]
  have whole : (encodeRecord record).length
      = varintLen (Int64.ofNat (encodeBody record).length) + (encodeBody record).length := by
    rw [encodeRecord, List.length_append, length_varint]
  have overhead : (encodeRecordBatch checksum header record).length
      = recordBatchOverhead + (encodeRecord record).length := by
    simp only [encodeRecordBatch, encodeChecked, List.length_append, length_bigEndian,
      List.length_singleton, recordBatchOverhead]
    omega
  rw [overhead, whole, body, ← Nat.add_assoc]
  rfl

end Encoding

namespace RestoreProducer

variable {β : Type} [QueueingBroker β] {s : RestoreProducer β}

/-- The message of a record that no batch of the topic can hold. -/
def tooLarge (s : RestoreProducer β) (record : Record) (offset : Nat) : String :=
  s!"the record for offset {offset} is a {singleRecordBatchBytes record}-byte batch on its own (key "
    ++ s!"{(record.key.map List.length).getD 0} bytes, value "
    ++ s!"{(record.value.map List.length).getD 0} bytes, {record.headers.length} headers), and "
    ++ s!"topic {s.topic}'s max.message.bytes is {s.maxMessageBytes}: the broker would refuse it"

/-- How a message begins. -/
def Opens (c : Char) (message : String) : Prop := message.toList.head? = some c

/-- What follows has no part in how a message begins. -/
theorem Opens.append {c : Char} {message : String} (opens : Opens c message) (rest : String) :
    Opens c (message ++ rest) := by
  unfold Opens at opens ⊢
  rw [String.toList_append, List.head?_append, opens]
  rfl

/-- Messages that begin differently are different. -/
theorem Opens.ne {c c' : Char} {message message' : String} (opens : Opens c message)
    (opens' : Opens c' message') (other : c ≠ c') : message ≠ message' := by
  intro same
  subst same
  exact other (Option.some.inj (opens.symm.trans opens'))

omit [QueueingBroker β] in
/-- A record that is too large is refused in words of its own. -/
theorem tooLarge_opens (record : Record) (offset : Nat) : Opens 't' (tooLarge s record offset) := by
  have literal : Opens 't' "the record for offset " := rfl
  unfold tooLarge
  repeat apply Opens.append
  exact literal

/-- A failed delivery has a message of its own. -/
theorem ackOldest_opens :
    wp ackOldest (fun _ _ => True) (fun message _ => Opens 'o' message ∨ Opens 's' message) s := by
  have offset_ : Opens 'o' "offset " := rfl
  have sent_ : Opens 's' "sent for offset " := rfl
  simp only [ackOldest, wp_bind, wp_get]
  cases s.inFlight with
  | nil => trivial
  | cons sent rest =>
    obtain ⟨offset, ticket⟩ := sent
    simp only [wp_bind, wp_set, wp_focus, wp_ensure]
    apply wp_any
    · intro delivered broker
      split
      · trivial
      · right
        repeat apply Opens.append
        exact sent_
    · intro e broker
      left
      cases e with
      | canceled => exact ((offset_.append _).append _)
      | failed message => exact (((offset_.append _).append _).append _)

/-- A record that the queue does not take has a message of its own, too. -/
theorem enqueue_opens (record : FutureRecord) (offset inFlight : Nat) {s : RestoreProducer β} :
    wp (enqueue record offset inFlight) (fun _ _ => True)
      (fun message _ => Opens 'o' message ∨ Opens 's' message ∨ Opens 'p' message) s := by
  have producing : Opens 'p' "producing offset " := rfl
  have untaken : ∀ e, Opens 'p' (notQueued offset e) := fun e =>
    ((producing.append _).append _).append _
  -- Each turn after the first follows a record that was acknowledged.
  induction inFlight generalizing s with
  | zero =>
    simp only [enqueue, trySend, wp_bind, wp_get, wp_focus, wp_attempt]
    apply wp_any
    · intro ticket broker
      trivial
    · intro e broker
      exact .inr (.inr (untaken e))
  | succ inFlight ih =>
    simp only [enqueue, trySend, wp_bind, wp_get, wp_focus, wp_attempt]
    apply wp_any
    · intro ticket broker
      trivial
    · intro e broker
      cases e with
      | queueFull =>
        simp only [wp_bind]
        apply wp_mono ackOldest_opens
        · intro _ s' _
          exact ih
        · intro message s' opens
          rcases opens with offset_ | sent_
          · exact .inl offset_
          · exact .inr (.inl sent_)
      | other message => exact .inr (.inr (untaken _))

variable [PayloadParsers]

omit [QueueingBroker β] in
/-- A payload that its column does not take is refused in the column's words. -/
theorem validate_opens {columnType : ColumnType} {column message : String} {c : Char}
    (opens : Opens c column) {offset : Nat} {payload : Option Bytes}
    (refused : columnType.validate column offset payload = .error message) : Opens c message := by
  cases payload with
  | none => cases refused
  | some data =>
    have utf8 : Opens c (s!"{column} at source offset {offset} is not valid UTF-8: "
        ++ PayloadParsers.utf8Error data) := by
      repeat apply Opens.append
      exact opens
    cases columnType with
    | bytes => cases refused
    | utf8 | json =>
      simp only [ColumnType.validate] at refused
      cases decoded : decodeUtf8 data with
      | some text =>
        rw [decoded] at refused
        cases refused
      | none =>
        rw [decoded] at refused
        cases refused
        exact utf8
    | jsonParseable =>
      simp only [ColumnType.validate] at refused
      cases decoded : decodeUtf8 data with
      | none =>
        rw [decoded] at refused
        cases refused
        exact utf8
      | some text =>
        rw [decoded] at refused
        dsimp only at refused
        cases parsed : PayloadParsers.jsonError text with
        | none =>
          rw [parsed] at refused
          cases refused
        | some error =>
          rw [parsed] at refused
          cases refused
          repeat apply Opens.append
          exact opens

/-- When a record is too large for its topic, after both columns took it. -/
def Exceeds (s : RestoreProducer β) (record : Record) (offset : Nat) : Prop :=
  s.keys.validate "key" offset record.key = .ok ()
    ∧ s.values.validate "value" offset record.value = .ok ()
    ∧ s.maxMessageBytes < singleRecordBatchBytes record

/-- A record that is too large is refused before anything is sent. -/
theorem send_of_exceeds {record : Record} {offset : Nat} (exceeds : Exceeds s record offset) :
    send record offset s = .error (tooLarge s record offset) s := by
  obtain ⟨keys, values, larger⟩ := exceeds
  have refused : ¬ singleRecordBatchBytes record ≤ s.maxMessageBytes := Nat.not_le.mpr larger
  have ends : wp (send record offset) (fun _ _ => False)
      (fun message s' => message = tooLarge s record offset ∧ s' = s) s := by
    simp only [send, wp_bind, wp_get, wp_ofExcept, wp_ensure, keys, values, if_neg refused]
    exact ⟨rfl, trivial⟩
  cases outcome : send record offset s with
  | ok _ s' => exact (wp_of_ok ends outcome).elim
  | error message s' =>
    obtain ⟨same, unchanged⟩ := wp_of_error ends outcome
    rw [same, unchanged]

/-- Any other record is taken, or is refused in other words. -/
theorem send_of_fits {record : Record} {offset : Nat} (fits : ¬ Exceeds s record offset) :
    wp (send record offset) (fun _ _ => True)
      (fun message _ => message ≠ tooLarge s record offset) s := by
  have other : ∀ {c message}, Opens c message → c ≠ 't' → message ≠ tooLarge s record offset :=
    fun opens differs => opens.ne (tooLarge_opens record offset) differs
  have key_ : Opens 'k' "key" := rfl
  have value_ : Opens 'v' "value" := rfl
  simp only [send, wp_bind, wp_get, wp_ofExcept, wp_ensure, wp_ite]
  cases keys : s.keys.validate "key" offset record.key with
  | error message => exact other (validate_opens key_ keys) (by decide)
  | ok valid =>
    cases values : s.values.validate "value" offset record.value with
    | error message => exact other (validate_opens value_ values) (by decide)
    | ok valid =>
      have within : singleRecordBatchBytes record ≤ s.maxMessageBytes := by
        by_contra larger
        exact fits ⟨keys, values, Nat.not_le.mp larger⟩
      dsimp only
      rw [if_pos within]
      -- Every failure from here on is one of a delivery or of the queue.
      have queued : ∀ s' : RestoreProducer β,
          wp (enqueue (s.futureRecord record) offset s'.inFlight.length) (fun _ _ => True)
            (fun message _ => message ≠ tooLarge s record offset) s' := by
        intro s'
        apply wp_mono (enqueue_opens _ offset _)
        · intro _ _ _
          trivial
        · intro message _ opens
          rcases opens with opens | opens | opens
          · exact other opens (by decide)
          · exact other opens (by decide)
          · exact other opens (by decide)
      split
      · apply wp_mono ackOldest_opens
        · intro _ s' _
          exact queued s'
        · intro message _ opens
          rcases opens with opens | opens
          · exact other opens (by decide)
          · exact other opens (by decide)
      · exact queued s

end RestoreProducer

/--
The size that a record is held to is that of the batch which holds it alone, byte for byte.

The loop that counts a length ends for every signed number, with the length of its encoding; and a
record whose columns are in order is refused as too large exactly when that batch is larger than the
topic takes, before anything is sent.
-/
theorem singleRecordBatch_exact {β : Type} [QueueingBroker β] [PayloadParsers] :
    (∀ (checksum : Bytes → UInt32) (header : BatchHeader) (record : Record),
        singleRecordBatchBytes record = (encodeRecordBatch checksum header record).length)
      ∧ (∀ v : Int64, varintLen v = (leb128 (zigzag v.toInt)).length
          ∧ ∀ turns ≥ 9, varintLoop turns (zigzagBits v) 1 = some (varintLen v))
      ∧ ∀ (checksum : Bytes → UInt32) (header : BatchHeader) (record : Record) (offset : Nat)
          (s : RestoreProducer β),
        (failure? (RestoreProducer.send record offset) s = some (s.tooLarge record offset)
          ↔ s.keys.validate "key" offset record.key = .ok ()
            ∧ s.values.validate "value" offset record.value = .ok ()
            ∧ s.maxMessageBytes < (encodeRecordBatch checksum header record).length)
        ∧ (failure? (RestoreProducer.send record offset) s = some (s.tooLarge record offset) →
          after (RestoreProducer.send record offset) s = s) := by
  refine ⟨fun checksum header record => (length_encodeRecordBatch checksum header record).symm,
    varintLen_spec, ?_⟩
  intro checksum header record offset s
  rw [length_encodeRecordBatch]
  -- A refusal for another reason is told apart by how its message begins.
  have exceeds_of : failure? (RestoreProducer.send record offset) s = some (s.tooLarge record offset) →
      RestoreProducer.Exceeds s record offset := by
    intro failed
    by_contra fits
    have ends := RestoreProducer.send_of_fits fits
    cases outcome : RestoreProducer.send record offset s with
    | ok _ s' =>
      rw [failure?, outcome] at failed
      cases failed
    | error message s' =>
      rw [failure?, outcome] at failed
      exact wp_of_error ends outcome (Option.some.inj failed)
  refine ⟨⟨exceeds_of, ?_⟩, ?_⟩
  · intro exceeds
    rw [failure?, RestoreProducer.send_of_exceeds exceeds]
  · intro failed
    rw [after, RestoreProducer.send_of_exceeds (exceeds_of failed)]

end MirrorV3
