import MirrorV3.Lib.Keyed
import MirrorV3.Fs.BlobSink

/-! The view of a compacted destination: the last value of each key, and nothing of deleted keys. -/

namespace MirrorV3

/-- What a view keeps of a record: all of it, unless its value is null. -/
def Record.kept (record : Record) : Option Record :=
  if record.value = none then none else some record

/-- The last value of a key among some records, as last-writer-wins has it. -/
def lastRecord (records : List Record) (key : String) : Option Record :=
  Keyed.held Record.utf8Key Record.kept key records

/-- A view that answers for every key with its last value among some records. -/
def View.Holds (view : View) (records : List Record) : Prop :=
  ∀ key : String, view[key]? = lastRecord records key

section

variable {view : View} {records : List Record} {record : Record} {key : String}

/-- What is kept of a record is the record. -/
theorem Record.of_kept {other : Record} (kept : record.kept = some other) :
    other = record ∧ record.value ≠ none := by
  unfold Record.kept at kept
  split at kept
  · cases kept
  · exact ⟨(Option.some.inj kept).symm, ‹_›⟩

/-- The last value of a key comes from a record with that key. -/
theorem of_lastRecord (found : lastRecord records key = some record) :
    record ∈ records ∧ record.utf8Key = some key ∧ record.value ≠ none := by
  obtain ⟨last, latest, kept⟩ := Option.bind_eq_some_iff.mp found
  obtain ⟨rfl, written⟩ := Record.of_kept kept
  obtain ⟨mem, named⟩ := Keyed.of_latest latest
  exact ⟨mem, named, written⟩

/-- One record changes the answer for its own key and for no other. -/
theorem getElem?_applyView (view : View) (record : Record) :
    (BlobSink.applyView record view)[key]?
      = if record.utf8Key = some key then record.kept else view[key]? := by
  unfold BlobSink.applyView Record.kept
  cases named : record.utf8Key with
  | none => simp
  | some other =>
    by_cases same : other = key
    · subst same
      by_cases deleted : record.value = none
      · simp [deleted]
      · simp [deleted]
    · by_cases deleted : record.value = none
      · simp [deleted, same, Std.TreeMap.getElem?_erase]
      · simp [deleted, same, Std.TreeMap.getElem?_insert]

/-- A view that records are applied to answers with the last value of each key they have. -/
theorem getElem?_foldl_applyView (view : View) (records : List Record) :
    (records.foldl (fun view r => BlobSink.applyView r view) view)[key]?
      = (Keyed.latest Record.utf8Key key records).elim view[key]? Record.kept :=
  @Keyed.answer_foldl _ _ _ _ _ _ _ View (fun view => view[key]?) _
    (fun view record => getElem?_applyView view record) view records

/-- Applying one more record keeps a view up to date. -/
theorem View.Holds.concat (holds : view.Holds records) (record : Record) :
    (BlobSink.applyView record view).Holds (records ++ [record]) := by
  intro key
  rw [getElem?_applyView, lastRecord, Keyed.held]
  split
  · rename_i named
    rw [Keyed.latest_concat_self named]
    rfl
  · rename_i elsewhere
    rw [Keyed.latest_concat_of_ne elsewhere]
    exact holds key

/-- The empty view is that of no records. -/
theorem View.holds_nil : View.Holds {} [] := fun _ => by simp [lastRecord, Keyed.held, Keyed.latest]

/-- The records of a view in the order of its keys. -/
theorem View.values_eq (view : View) : view.values = view.toList.map (·.2) := by
  show view.foldr (fun _ record records => record :: records) [] = _
  rw [Std.TreeMap.foldr_eq_foldr_toList]
  induction view.toList with
  | nil => rfl
  | cons entry entries ih => simp [ih]

/-- The records of a view are those it answers with. -/
theorem View.mem_values : record ∈ view.values ↔ ∃ key : String, view[key]? = some record := by
  simp [View.values_eq, Std.TreeMap.mem_toList_iff_getElem?_eq_some]

/-- What a view answers with is keyed by the key it answers for, and has a value. -/
theorem View.Holds.named (holds : view.Holds records) (found : view[key]? = some record) :
    record ∈ records ∧ record.utf8Key = some key ∧ record.value ≠ none :=
  of_lastRecord ((holds key).symm.trans found)

/-- The records of a fold in the order of their keys, each key of it once. -/
def WrittenOut (fold : String → Option Record) (entries : List Record) : Prop :=
  ∃ keys : List String, keys.Pairwise (· < ·) ∧ (∀ key, key ∈ keys ↔ fold key ≠ none)
    ∧ entries.map some = keys.map fold

/-- The records of a view are what it answers with, in the order of its keys. -/
theorem View.writtenOut (view : View) : WrittenOut (fun key => view[key]?) view.values := by
  refine ⟨view.keys, ?_, fun key => ?_, ?_⟩
  · have ordered : view.keys.Pairwise fun a b => compare a b = .lt := Std.TreeMap.ordered_keys
    exact ordered.imp fun below => compareOfLessAndEq_eq_lt.mp below
  · rw [Std.TreeMap.mem_keys, ← Std.TreeMap.isSome_getElem?_iff_mem, Option.isSome_iff_ne_none]
  · rw [View.values_eq, ← Std.TreeMap.map_fst_toList_eq_keys, List.map_map, List.map_map]
    refine List.map_congr_left fun entry mem => ?_
    exact (Std.TreeMap.mem_toList_iff_getElem?_eq_some.mp mem).symm

/-- A view that holds what some records leave is written out as their fold. -/
theorem View.Holds.writtenOut (holds : view.Holds records) :
    WrittenOut (Keyed.folded Record.utf8Key Record.kept records) view.values := by
  have same : (fun key => view[key]?) = Keyed.folded Record.utf8Key Record.kept records := by
    funext key
    rw [Keyed.folded_eq_held]
    exact holds key
  exact same ▸ view.writtenOut

/-- A view whose records are filed under their own keys. -/
def View.Filed (view : View) : Prop :=
  ∀ (key : String) (record : Record), view[key]? = some record → record.utf8Key = some key

/-- A record that is entered under its own key is filed. -/
theorem View.Filed.insert {key : String} {record : Record} (filed : view.Filed)
    (named : record.utf8Key = some key) : View.Filed (view.insert key record) := by
  intro other found held
  rw [Std.TreeMap.getElem?_insert] at held
  split at held
  · rename_i same
    cases held
    rw [named, Std.compare_eq_iff_eq.mp same]
  · exact filed other found held

/-- Applying a record files it under its own key. -/
theorem View.Filed.applyView (filed : view.Filed) (record : Record) :
    (BlobSink.applyView record view).Filed := by
  -- Only the answer for the record's key may be new, and then it is the record.
  intro key other found
  rw [getElem?_applyView] at found
  split at found
  · rename_i named
    obtain ⟨rfl, -⟩ := Record.of_kept found
    exact named
  · exact filed key other found

/-- Written out as records, a view of filed records has for each key what it answers with. -/
theorem View.Filed.lastRecord_values (filed : view.Filed) (key : String) :
    lastRecord view.values key = view[key]?.bind Record.kept := by
  -- The records written out with a key are those the view answers with for it.
  have only : ∀ r ∈ view.values, r.utf8Key = some key → view[key]? = some r := by
    intro r mem here
    obtain ⟨other, found⟩ := View.mem_values.mp mem
    obtain rfl : other = key := Option.some.inj ((filed other r found).symm.trans here)
    exact found
  rw [lastRecord, Keyed.held]
  cases last : Keyed.latest Record.utf8Key key view.values with
  | none =>
    cases found : view[key]? with
    | none => rfl
    | some record =>
      -- A record the view answers with would have been there to be the last one.
      have absent := Keyed.latest_eq_none_iff.mp last record (View.mem_values.mpr ⟨key, found⟩)
      exact absurd (filed key record found) absent
  | some record =>
    obtain ⟨mem, here⟩ := Keyed.of_latest last
    rw [only record mem here]

/-- Written out as records, a view gives the same answers as before. -/
theorem View.Holds.lastRecord_values (holds : view.Holds records) (key : String) :
    lastRecord view.values key = view[key]? := by
  -- What a view of some records answers with is filed and has a value, so it is kept.
  have filed : view.Filed := fun _ _ found => (holds.named found).2.1
  rw [filed.lastRecord_values]
  cases found : view[key]? with
  | none => rfl
  | some record => simp [Record.kept, (holds.named found).2.2]

/-- Records that each have a text key and a value make a view one after the other. -/
theorem foldlM_decodeView {view : View} (location : String)
    (named : ∀ r ∈ records, ∃ key : String, r.utf8Key = some key ∧ r.value ≠ none) :
    records.foldlM (fun (view : View) r =>
      match r.key with
      | none =>
        (.error (.corruptChain s!"{location}: null key in compacted snapshot") :
          Except BlobError View)
      | some bytes =>
        match decodeUtf8 bytes with
        | none => .error (.corruptChain s!"{location}: non-UTF-8 key in compacted snapshot")
        | some key => .ok (view.insert key r)) view
      = .ok (records.foldl (fun view r => BlobSink.applyView r view) view) := by
  induction records generalizing view with
  | nil => rfl
  | cons r records ih =>
    obtain ⟨key, here, written⟩ := named r (by simp)
    obtain ⟨bytes, payload, text⟩ := Option.bind_eq_some_iff.mp here
    have rest := @ih (view.insert key r) fun r mem => named r (List.mem_cons_of_mem _ mem)
    have step : BlobSink.applyView r view = view.insert key r := by
      simp [BlobSink.applyView, here, written]
    rw [List.foldlM_cons, List.foldl_cons, step, ← rest]
    simp only [payload, text]
    rfl

variable [EnvelopeLibraries]

/-- A snapshot that decodes to the records of a view is read as a view with the same answers. -/
theorem decodeView_of_decodeBlob {name location : String} {bytes : Bytes} {format : Format}
    {encryption : Option BlobEncryption} (holds : view.Holds records)
    (decoded : decodeBlob name location bytes format (encryption.map (·.keyring))
      = .ok view.values) :
    ∃ read, decodeView name location bytes format encryption = .ok read ∧ read.Holds records := by
  have named : ∀ r ∈ view.values, ∃ key : String, r.utf8Key = some key ∧ r.value ≠ none := by
    intro r mem
    obtain ⟨key, found⟩ := View.mem_values.mp mem
    exact ⟨key, (holds.named found).2⟩
  refine ⟨view.values.foldl (fun view r => BlobSink.applyView r view) {}, ?_, fun key => ?_⟩
  · unfold decodeView
    rw [decoded]
    exact foldlM_decodeView location named
  · rw [getElem?_foldl_applyView, ← holds key, ← holds.lastRecord_values key, lastRecord,
      Keyed.held]
    cases Keyed.latest Record.utf8Key key view.values with
    | none => simp
    | some r => rfl

/-- A snapshot that is read as a view decodes to some records. -/
theorem decodeBlob_of_decodeView {name location : String} {bytes : Bytes} {format : Format}
    {encryption : Option BlobEncryption} {view : View}
    (read : decodeView name location bytes format encryption = .ok view) :
    ∃ records,
      decodeBlob name location bytes format (encryption.map (·.keyring)) = .ok records := by
  unfold decodeView at read
  cases decoded : decodeBlob name location bytes format (encryption.map (·.keyring)) with
  | error e =>
    rw [decoded] at read
    cases read
  | ok records => exact ⟨records, rfl⟩

/-- A view read from a snapshot has its records under their own keys. -/
theorem filed_of_decodeView {name location : String} {bytes : Bytes} {format : Format}
    {encryption : Option BlobEncryption} {view : View}
    (read : decodeView name location bytes format encryption = .ok view) : View.Filed view := by
  unfold decodeView at read
  obtain ⟨records, -, folded⟩ := Results.of_bind_ok read
  -- Every record is entered under the text of its key, over whatever was entered before.
  have entered : ∀ (records : List Record) (before : View), before.Filed →
      records.foldlM (fun (view : View) r =>
        match r.key with
        | none =>
          (.error (.corruptChain s!"{location}: null key in compacted snapshot") :
            Except BlobError View)
        | some bytes =>
          match decodeUtf8 bytes with
          | none => .error (.corruptChain s!"{location}: non-UTF-8 key in compacted snapshot")
          | some key => .ok (view.insert key r)) before = .ok view → View.Filed view := by
    intro records
    induction records with
    | nil =>
      rintro before filed ⟨⟩
      exact filed
    | cons r records ih =>
      intro before filed folded
      rw [List.foldlM_cons] at folded
      obtain ⟨next, stepped, rest⟩ := Results.of_bind_ok folded
      refine ih next (fun key other found => ?_) rest
      cases given : r.key with
      | none => simp [given] at stepped
      | some bytes =>
        cases decoded : decodeUtf8 bytes with
        | none => simp [given, decoded] at stepped
        | some own =>
          obtain rfl : before.insert own r = next := by simpa [given, decoded] using stepped
          exact filed.insert (by simp [Record.utf8Key, given, decoded]) key other found
  exact entered records {} (by simp [View.Filed]) folded

end

end MirrorV3
