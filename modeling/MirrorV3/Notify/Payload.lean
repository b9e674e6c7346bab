import MirrorV3.Envelope.JsonText
import MirrorV3.Lib.Utf8
import MirrorV3.Notify.Stopped

/-! The body that is posted for a batch, and what a consumer reads of the bodies of a run. -/

namespace MirrorV3

open Ndjson

/-- What is posted for a batch: the consumer reads the value of every key again. -/
structure KkvV1Payload where
  v : Nat
  topic : String
  offsets : IndexMap String Nat
  /-- The keys, whose values are all null. -/
  updates : List String
  deriving DecidableEq

namespace KkvV1Payload

/-- A body has a version, and there is one. -/
def new (topic : String) (offsets : IndexMap String Nat) (updates : List String) : KkvV1Payload :=
  ⟨1, topic, offsets, updates⟩

/-- The offsets by partition. -/
def offsetsJson (p : KkvV1Payload) : Json :=
  .obj (p.offsets.map fun entry => (entry.1, .int entry.2))

/-- The body as a document, its fields in the order they are declared in. -/
def toJson (p : KkvV1Payload) : Json :=
  .obj [("v", .int p.v), ("topic", .str p.topic), ("offsets", p.offsetsJson),
    ("updates", .obj (p.updates.map fun key => (key, .null)))]

/-- The payload of a drained batch. -/
def ofBatch (topic : String) (batch : DrainedBatch) : KkvV1Payload :=
  new topic batch.offsets batch.updates

end KkvV1Payload

/-- The JSON crate that writes what is posted, and the JSON that the consumer of it reads. -/
class PostedJson where
  toVec : Json → Except String Bytes
  toString : Json → Except String String
  /-- What a consumer reads of some bytes. -/
  parse : Bytes → Option Json

/-- A plain document is written, and whoever reads JSON reads what was written. -/
class LawfulPostedJson [PostedJson] : Prop where
  toVec_ok : ∀ json : Json, json.Plain 128 → ∃ body, PostedJson.toVec json = .ok body
  toString_ok : ∀ json : Json, json.Plain 128 → ∃ text, PostedJson.toString json = .ok text
  parse_toVec : ∀ (json : Json) body, json.Plain 128 → PostedJson.toVec json = .ok body →
    PostedJson.parse body = some json
  parse_toString : ∀ (json : Json) text, json.Plain 128 → PostedJson.toString json = .ok text →
    PostedJson.parse (Utf8.encode text.toList) = some json

namespace KkvV1Payload

/-- The offset of one partition is a plain document. -/
theorem plain_offsetsJson (depth : Nat) (topic partition : String) (highest : Nat)
    (keys : List String) :
    (new topic [(partition, highest)] keys).offsetsJson.Plain (depth + 2) := by
  refine .obj (by simp [new]) fun field mem => ?_
  obtain rfl := List.mem_singleton.mp mem
  exact .int depth _

/-- A payload whose keys are distinct is a plain document, whatever its texts hold. -/
theorem plain_toJson (depth : Nat) (topic partition : String) (highest : Nat) {keys : List String}
    (distinct : keys.Nodup) :
    (new topic [(partition, highest)] keys).toJson.Plain (depth + 3) := by
  -- A key names null, so the updates are nested no deeper than the offsets.
  have updates : Json.Plain (depth + 2) (.obj (keys.map fun key => (key, Json.null))) := by
    refine .obj ?_ fun field mem => ?_
    · rw [List.map_map]
      exact (List.map_id keys).symm ▸ distinct
    · obtain ⟨key, -, rfl⟩ := List.mem_map.mp mem
      exact .null depth
  refine .obj (by simp) fun field mem => ?_
  simp only [List.mem_cons, List.not_mem_nil, or_false] at mem
  rcases mem with rfl | rfl | rfl | rfl
  · exact .int (depth + 1) _
  · exact .str (depth + 1) _
  · exact plain_offsetsJson depth topic partition highest keys
  · exact updates

end KkvV1Payload

/-- The body of a POST and the value of its header, which repeats the offsets. -/
def KkvV1Payload.serialize [PostedJson] (p : KkvV1Payload) : Except NotifyError (Bytes × String) := do
  let body ← (PostedJson.toVec p.toJson).mapError fun e =>
    .transport ("payload serialization failed: " ++ e)
  let offsetsHeader ← (PostedJson.toString p.offsetsJson).mapError fun e =>
    .transport ("offsets header serialization failed: " ++ e)
  return (body, offsetsHeader)

/-- A consumer that is posted a payload reads a topic, the offset of a partition and some keys. -/
def KkvV1Payload.Reads [PostedJson] (p : KkvV1Payload) (topic partition : String) (highest : Nat)
    (keys : List String) : Prop :=
  ∃ body offsetsHeader, p.serialize = .ok (body, offsetsHeader)
    ∧ PostedJson.parse body = some (.obj [("v", .int 1), ("topic", .str topic),
        ("offsets", .obj [(partition, .int highest)]), ("updates", .obj (keys.map (·, .null)))])
    ∧ PostedJson.parse (Utf8.encode offsetsHeader.toList) = some (.obj [(partition, .int highest)])

/-- What is posted of distinct keys is what its consumer reads. -/
theorem KkvV1Payload.reads_new [PostedJson] [LawfulPostedJson] (topic partition : String)
    (highest : Nat) {keys : List String} (distinct : keys.Nodup) :
    (KkvV1Payload.new topic [(partition, highest)] keys).Reads topic partition highest keys := by
  have plain := plain_toJson 125 topic partition highest distinct
  have offsets := plain_offsetsJson 126 topic partition highest keys
  obtain ⟨body, written⟩ := LawfulPostedJson.toVec_ok _ plain
  obtain ⟨header, repeated⟩ := LawfulPostedJson.toString_ok _ offsets
  refine ⟨body, header, ?_, LawfulPostedJson.parse_toVec _ body plain written,
    LawfulPostedJson.parse_toString _ header offsets repeated⟩
  rw [KkvV1Payload.serialize, written, repeated]
  rfl

/-- What is left without repetitions has none. -/
theorem nodup_eraseDups {α : Type} [BEq α] [LawfulBEq α] (items : List α) :
    items.eraseDups.Nodup := by
  -- By induction on the length, as the first item is taken out of all that follow it.
  induction count : items.length using Nat.strongRecOn generalizing items with
  | _ count ih =>
    cases items with
    | nil => exact List.nodup_nil
    | cons first rest =>
      rw [List.eraseDups_cons, List.nodup_cons]
      refine ⟨by simp, ih _ ?_ _ rfl⟩
      have shorter := List.length_filter_le (fun item => !item == first) rest
      simp only [List.length_cons] at count
      omega

namespace Tasks

variable {settings : NotifySettings} {s s' : Tasks}

/-- Every batch that was taken has the offset of the one partition of its notifier. -/
def Placed (settings : NotifySettings) (s : Tasks) : Prop :=
  ∀ flight ∈ s.taken, ∃ highest, flight.batch.offsets = [(toString settings.partition, highest)]

/-- Every step that takes a batch takes one with that offset. -/
theorem Placed.move (placed : Placed settings s) (move : Move settings s s') :
    Placed settings s' := by
  have taking : ∀ {batch : DrainedBatch}, s.buffer.take settings.partition = (some batch, .empty) →
      ∀ flight ∈ s.taken ++ [⟨batch, s.pending⟩],
        ∃ highest, flight.batch.offsets = [(toString settings.partition, highest)] := by
    intro batch takes flight mem
    rcases List.mem_append.mp mem with earlier | new
    · exact placed flight earlier
    · obtain rfl := List.mem_singleton.mp new
      -- A buffer that has something is taken with the partition it is asked for.
      unfold Buffer.take at takes
      split at takes
      · cases takes
      · cases takes
        exact ⟨_, rfl⟩
  cases move with
  | append =>
    rename_i record key stands
    obtain ⟨loop, timer, newData, same, -, -⟩ := append_eq settings record key s
    rw [same]
    exact placed
  | shutdown =>
    rcases notifyOne_eq { s with shuttingDown := true, loop := .draining true .locking } with
      ⟨-, same⟩ | ⟨-, same⟩
    all_goals
      rw [same]
      exact placed
  | drainTake stands takes => exact taking takes
  | timerTake stands takes => exact taking takes
  | _ =>
    -- No other step takes a batch, and neither does the end of a drain.
    exact placed

/-- What is true of the bodies of a run. -/
structure Posts (settings : NotifySettings) (s : Tasks) : Prop where
  sound : Sound settings s
  orderly : Orderly settings s
  placed : Placed settings s
  emptied : Emptied settings s

/-- Every run keeps it. -/
theorem posts_of_run {watched : Bool} {now : Nat} {events : List NotifyEvent}
    (ran : Steps.run (Tasks.step settings) (start watched now) events = some s) :
    Posts settings s := by
  refine Steps.run_rule (Posts settings) ?_ ran
    ⟨sound_start watched now, orderly_start watched now, nofun, .of_not rfl⟩
  intro t event t' taken posts
  obtain ⟨sound, orderly, placed, emptied⟩ := posts
  exact ⟨sound.step taken, orderly.step sound taken, placed.move (move_of_step taken),
    emptied_step sound orderly emptied taken⟩

/-- A batch that was taken is posted with its highest offset and the distinct keys of its records. -/
theorem Posts.reads [PostedJson] [LawfulPostedJson] (posts : Posts settings s) (topic : String)
    {flight : Flight} (mem : flight ∈ s.taken) :
    ∃ highest, some highest = (flight.records.map (·.sourceOffset)).max?
      ∧ (KkvV1Payload.ofBatch topic flight.batch).Reads topic (toString settings.partition) highest
          (flight.records.filterMap (·.utf8Key)).eraseDups := by
  obtain ⟨updates, most⟩ := posts.orderly.drained flight mem
  obtain ⟨highest, offsets⟩ := posts.placed flight mem
  -- The one offset of the batch is its highest.
  have same : flight.batch.highOffset = highest := by
    simp [DrainedBatch.highOffset, offsets]
  rw [same] at most
  refine ⟨highest, most, ?_⟩
  rw [KkvV1Payload.ofBatch, offsets, updates]
  exact KkvV1Payload.reads_new topic _ highest (nodup_eraseDups _)

end Tasks

namespace NotifySample

open Tasks

/-- Documents that are written without spaces, and read by a reader of such documents. -/
scoped instance : PostedJson where
  toVec json := .ok (Utf8.encode (compact quoted json))
  toString json := .ok (String.ofList (compact quoted json))
  parse bytes := do
    let text ← decodeUtf8 bytes
    match ← readJson 128 text.toList with
    | (json, []) => some json
    | _ => none

/-- A plain document reads back from its bytes. -/
theorem parse_encode {json : Json} (plain : json.Plain 128) :
    PostedJson.parse (Utf8.encode (compact quoted json)) = some json := by
  have decoded : decodeUtf8 (Utf8.encode (compact quoted json))
      = some (String.ofList (compact quoted json)) := Utf8.fromUTF8?_encode _
  -- Nothing follows the text, so no digit does.
  have read := plain.readsBack [] (by simp)
  rw [List.append_nil] at read
  simp [PostedJson.parse, decoded, read]

scoped instance : LawfulPostedJson where
  toVec_ok _ _ := ⟨_, rfl⟩
  toString_ok _ _ := ⟨_, rfl⟩
  parse_toVec json body plain written := by
    cases written
    exact parse_encode plain
  parse_toString json text plain written := by
    cases written
    rw [String.toList_ofList]
    exact parse_encode plain

/-- Two records of one key wait for the timer when the stop comes, and are delivered by it. -/
def stoppedWithTwo : List NotifyEvent :=
  [.onRecord (keyed 3), .loop (.ok ()), .loop (.ok ()), .onRecord (keyed 5), .loop (.ok ()),
    .loop (.ok ()), .shutdown, .loop (.ok ()), .loop (.ok ()), .loop (.ok ()), .loop (.ok ()),
    .abort, .loop (.ok ())]

end NotifySample

end MirrorV3
