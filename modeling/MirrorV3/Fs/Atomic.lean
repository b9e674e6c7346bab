import MirrorV3.Fs.FileSystem
import MirrorV3.Fs.Store
import MirrorV3.Lib.Paths

/-!
A directory of a file system as a blob store: an object is written, and then given its name.

A process that ends in the middle of a put leaves what a put leaves of which a call failed there and
nothing was done after it, so that is what every end of a process is here.
-/

namespace MirrorV3

open Effect FileHistory FsStore

/-- The temporary name of an object. -/
def tmpName (name uuid : String) : String :=
  String.ofList (name.toList ++ ".tmp.".toList ++ uuid.toList)

/-- One partition directory on the local file system. -/
structure FsStore (φ : Type) where
  dir : String
  fs : φ

namespace FsStore

variable {φ : Type} [FileSystem φ]

/-- The file system as a part of the store. -/
def fsPart : Part (FsStore φ) φ := ⟨fs, fun fs s => { s with fs }⟩

/-- The path of a name in the directory. -/
def path (s : FsStore φ) (name : String) : String :=
  String.ofList (Paths.join s.dir.toList name.toList)

/-- Write an object under a temporary name, bring it to the disk, and give it its own name. -/
def putNew (name : String) (bytes : Bytes) : Program BlobError (FsStore φ) Unit := do
  let s ← get
  let tmp := tmpName name (← focus fsPart Empty.elim FileSystem.newV4)
  let file ← focus fsPart (ioError (s.path tmp)) (FileSystem.create tmp)
  focus fsPart (ioError (s.path tmp)) (FileSystem.writeAll file bytes)
  focus fsPart (ioError (s.path tmp)) (FileSystem.syncAll file)
  match ← focus fsPart id (attempt (FileSystem.rename tmp name)) with
  | .ok _ => pure ()
  | .error e => do
    let _ ← focus fsPart id (attempt (FileSystem.removeFile tmp))
    throw (.store s!"rename {s.path tmp} -> {s.path name}: {e}")

instance : BlobStore (FsStore φ) where
  list := do
    let read ← focus fsPart Empty.elim FileSystem.readDir
    MonadExcept.ofExcept (listSync (← get).dir read)
  putNew := putNew
  get name := do focus fsPart (ioError ((← get).path name)) (FileSystem.read name)
  listAfter after := do
    let read ← focus fsPart Empty.elim FileSystem.readDir
    MonadExcept.ofExcept (listAfter (← get).dir read after)
  location := path

variable [FileHistory φ]

/-- The files that a listing shows. -/
def shown (fs : φ) : List (String × Bytes) := (files fs).filter fun file => !isTemporary file.1

/-- What is shown stays, now and if the power is lost. -/
structure Unplaced (before after : φ) : Prop where
  shown : FsStore.shown after = FsStore.shown before
  survives : ∀ name bytes, isTemporary name = false →
    Survives after name bytes → Survives before name bytes
  unreported : unreported before ≤ unreported after

/-- One object comes to its name, and everything else that is shown stays. -/
structure Placed (name : String) (found : Bytes) (before after : φ) : Prop where
  shown : isTemporary name = false →
    FsStore.shown after = (FsStore.shown before).filter (·.1 ≠ name) ++ [(name, found)]
  others : (FsStore.shown after).filter (·.1 ≠ name) = (FsStore.shown before).filter (·.1 ≠ name)
  survives : ∀ other bytes, isTemporary other = false → Survives after other bytes →
    Survives before other bytes ∨ other = name ∧ bytes = found
  unreported : unreported before ≤ unreported after

/-- What a put brings to the name: all bytes, or some first of them after a loss nobody reported. -/
def Arrives (bytes found : Bytes) (before after : φ) : Prop :=
  found <+: bytes ∧ (found = bytes ∨ unreported before < unreported after)

variable {fs fs' fs'' : φ} {name tmp : String} {bytes found : Bytes}

omit [FileSystem φ] [FileHistory φ] in
/-- The temporary name of an object is one. -/
theorem isTemporary_tmpName (name uuid : String) : isTemporary (tmpName name uuid) = true := by
  rw [isTemporary, decide_eq_true_eq]
  exact ⟨name.toList, uuid.toList, String.toList_ofList.symm⟩

/-- What touches temporary names only shows nothing. -/
theorem unplaced_of_touches {names : List String} (touches : Touches names fs fs')
    (temporary : ∀ name ∈ names, isTemporary name = true) : Unplaced fs fs' := by
  have apart : ∀ other, isTemporary other = false → other ∉ names := by
    intro other own mem
    rw [temporary other mem] at own
    cases own
  refine ⟨?_, fun other bytes own => touches.survives other (apart other own) bytes,
    touches.unreported⟩
  -- A file that is shown is none of those that were touched.
  have same : ∀ held : List (String × Bytes), held.filter (fun file => !isTemporary file.1)
      = (held.filter (·.1 ∉ names)).filter fun file => !isTemporary file.1 := by
    intro held
    rw [List.filter_filter]
    refine List.filter_congr fun file _ => ?_
    cases own : isTemporary file.1 with
    | true => simp
    | false => simp [apart file.1 own]
  rw [shown, shown, same (files fs'), same (files fs), touches.rest]

/-- What is not shown in two steps is not shown. -/
theorem Unplaced.trans (first : Unplaced fs fs') (second : Unplaced fs' fs'') :
    Unplaced fs fs'' where
  shown := second.shown.trans first.shown
  survives name bytes own survives :=
    first.survives name bytes own (second.survives name bytes own survives)
  unreported := Nat.le_trans first.unreported second.unreported

/-- What is placed is placed, whatever is done before that shows nothing. -/
theorem Placed.after (placed : Placed name found fs' fs'') (first : Unplaced fs fs') :
    Placed name found fs fs'' where
  shown own := by rw [placed.shown own, first.shown]
  others := by rw [placed.others, first.shown]
  survives other bytes own survives :=
    (placed.survives other bytes own survives).imp_left (first.survives other bytes own)
  unreported := Nat.le_trans first.unreported placed.unreported

/-- Nor does it matter what is done afterwards. -/
theorem Placed.before (placed : Placed name found fs fs') (second : Unplaced fs' fs'') :
    Placed name found fs fs'' where
  shown own := by rw [second.shown, placed.shown own]
  others := by rw [second.shown, placed.others]
  survives other bytes own survives :=
    placed.survives other bytes own (second.survives other bytes own survives)
  unreported := Nat.le_trans placed.unreported second.unreported

/-- A file that goes from its temporary name to its own is placed. -/
theorem placed_of_renamed (renamed : Renamed tmp name found fs fs')
    (temporary : isTemporary tmp = true) : Placed name found fs fs' := by
  have apart : ∀ other, isTemporary other = false → other ≠ tmp := by
    rintro other own rfl
    rw [temporary] at own
    cases own
  -- Of the files that are shown, only one of that name was taken away.
  have kept : ((files fs).filter (fun file => file.1 ∉ [tmp, name])).filter
      (fun file => !isTemporary file.1) = (shown fs).filter (·.1 ≠ name) := by
    rw [shown, List.filter_filter, List.filter_filter]
    refine List.filter_congr fun file _ => ?_
    cases own : isTemporary file.1 with
    | true => simp
    | false => simp [apart file.1 own]
  refine ⟨fun own => ?_, ?_, fun other bytes own survives => ?_, renamed.touches.unreported⟩
  · rw [shown, renamed.placed, List.filter_append, kept]
    simp [own]
  · have gone : ([(name, found)].filter fun file => !isTemporary file.1).filter (·.1 ≠ name)
        = [] := by
      rw [List.filter_filter]
      simp
    rw [shown, renamed.placed, List.filter_append, kept, List.filter_append, List.filter_filter,
      gone, List.append_nil]
    simp
  · by_cases same : other = name
    · rw [same] at survives ⊢
      exact (renamed.survives bytes survives).imp_right fun same => ⟨rfl, same⟩
    · have others : other ∉ [tmp, name] := by simp [apart other own, same]
      exact .inl (renamed.touches.survives other others bytes survives)

variable [LawfulFileSystem φ]

/--
A put that is reported done placed its object, and a failed one placed it or did not.

Whatever is placed is all of the object, unless a write was lost without being reported.
-/
theorem putNew_spec (name : String) (bytes : Bytes) (s : FsStore φ) :
    wp (BlobStore.putNew name bytes : Program BlobError (FsStore φ) Unit)
      (fun _ s' => ∃ found, Arrives bytes found s.fs s'.fs ∧ Placed name found s.fs s'.fs)
      (fun _ s' => Unplaced s.fs s'.fs
        ∨ ∃ found, Arrives bytes found s.fs s'.fs ∧ Placed name found s.fs s'.fs) s := by
  show wp (putNew name bytes) _ _ s
  simp only [putNew, wp_bind, wp_get, wp_focus, wp_attempt]
  refine wp_mono (LawfulFileSystem.newV4_spec s.fs) ?_ (fun e => nomatch e)
  rintro uuid fs₁ ⟨drawn, fresh⟩
  -- Everything up to the rename is done under the temporary name.
  have temporary := isTemporary_tmpName name uuid
  have alone : ∀ other ∈ [tmpName name uuid], isTemporary other = true := by
    intro other mem
    rw [List.mem_singleton.mp mem]
    exact temporary
  have ends : uuid.toList <:+ (tmpName name uuid).toList := by
    rw [tmpName, String.toList_ofList]
    exact List.suffix_append _ _
  have since : Touches [tmpName name uuid] s.fs fs₁ := drawn.mono (List.nil_subset _)
  refine wp_mono (LawfulFileSystem.create_spec _ fs₁ fun bytes => fresh _ bytes ends) ?_
    (fun _ fs₂ failed => .inl (unplaced_of_touches (since.trans failed) alone))
  rintro file fs₂ ⟨made, writing⟩
  have since := since.trans made
  refine wp_mono (LawfulFileSystem.writeAll_spec file _ _ bytes fs₂ writing) ?_
    (fun _ fs₃ failed => .inl (unplaced_of_touches (since.trans failed) alone))
  rintro _ fs₃ ⟨written, writing⟩
  have since := since.trans written
  refine wp_mono (LawfulFileSystem.syncAll_spec file _ _ fs₃ writing) ?_
    (fun _ fs₄ failed => .inl (unplaced_of_touches (since.trans failed) alone))
  rintro _ fs₄ ⟨brought, found, synced, part, whole⟩
  rw [List.nil_append] at part whole
  have hidden := unplaced_of_touches (since.trans brought) alone
  -- What was synced is what the rename places.
  have placed : ∀ fs₅, Renamed (tmpName name uuid) name found fs₄ fs₅ →
      Arrives bytes found s.fs fs₅ ∧ Placed name found s.fs fs₅ := by
    intro fs₅ renamed
    refine ⟨⟨part, whole.imp_right fun lost => ?_⟩, (placed_of_renamed renamed temporary).after hidden⟩
    exact Nat.lt_of_le_of_lt since.unreported
      (Nat.lt_of_lt_of_le lost renamed.touches.unreported)
  refine wp_mono (LawfulFileSystem.rename_spec _ name found fs₄ synced)
    (fun _ fs₅ renamed => ⟨found, placed fs₅ renamed⟩) ?_
  rintro _ fs₅ failed
  simp only [wp_throw]
  -- To remove the temporary name shows nothing, also when the rename took effect after all.
  have cleaned : ∀ fs₆, Touches [tmpName name uuid] fs₅ fs₆ → Unplaced s.fs fs₆
      ∨ ∃ found, Arrives bytes found s.fs fs₆ ∧ Placed name found s.fs fs₆ := by
    intro fs₆ removed
    have left := unplaced_of_touches removed alone
    rcases failed with nothing | renamed
    · exact .inl ((hidden.trans (unplaced_of_touches nothing nofun)).trans left)
    · obtain ⟨⟨part, whole⟩, there⟩ := placed fs₅ renamed
      have whole := whole.imp_right fun lost => Nat.lt_of_lt_of_le lost left.unreported
      exact .inr ⟨found, ⟨part, whole⟩, there.before left⟩
  exact wp_mono (LawfulFileSystem.removeFile_spec _ fs₅) (fun _ => cleaned) (fun _ => cleaned)

/-- Where no write is lost without being reported, a put of an object keeps what stores promise. -/
theorem putNew_appends (reports : ∀ fs : φ, unreported fs = 0) (own : isTemporary name = false)
    (s : FsStore φ) (fresh : name ∉ (shown s.fs).map (·.1)) :
    wp (BlobStore.putNew name bytes : Program BlobError (FsStore φ) Unit)
      (fun _ s' => shown s'.fs = shown s.fs ++ [(name, bytes)])
      (fun _ s' => shown s'.fs = shown s.fs ∨ shown s'.fs = shown s.fs ++ [(name, bytes)]) s := by
  -- A new name has nothing taken away for it, and a write that was not lost is whole.
  have appended : ∀ fs', (∃ found, Arrives bytes found s.fs fs' ∧ Placed name found s.fs fs') →
      shown fs' = shown s.fs ++ [(name, bytes)] := by
    rintro fs' ⟨found, ⟨-, whole⟩, placed⟩
    have all : (shown s.fs).filter (·.1 ≠ name) = shown s.fs := by
      refine List.filter_eq_self.mpr fun file mem => decide_eq_true fun same => fresh ?_
      exact List.mem_map.mpr ⟨file, mem, same⟩
    obtain rfl : found = bytes := whole.resolve_right (by simp [reports])
    rw [placed.shown own, all]
  exact wp_mono (putNew_spec name bytes s) (fun _ s' => appended s'.fs)
    (fun _ s' => Or.imp (·.shown) (appended s'.fs))

omit [FileSystem φ] [FileHistory φ] [LawfulFileSystem φ] in
/-- A directory is listed only if every entry could be read. -/
theorem of_listSync {dir : String} {entries : List (Except String String)} {names : List String}
    (listed : listSync dir (.entries entries) = .ok names) :
    ∃ all : List String, entries = all.map .ok
      ∧ names = all.filter fun name => !isTemporary name := by
  rw [listSync] at listed
  obtain ⟨all, read, filtered⟩ := Results.of_bind_ok listed
  cases filtered
  refine ⟨all, ?_, rfl⟩
  refine List.forall₂_eq_eq_eq ▸ List.forall₂_map_right_iff.mpr ?_
  refine (Results.mapM_ok_iff.mp read).imp fun entry name own => ?_
  cases entry with
  | ok other => exact congrArg Except.ok (Except.ok.inj own)
  | error message => cases own

/-- A listing names what is shown, in some order. -/
theorem list_spec (s : FsStore φ) :
    wp (BlobStore.list : Program BlobError (FsStore φ) _)
      (fun names s' => names.Perm ((shown s.fs).map (·.1)) ∧ files s'.fs = files s.fs)
      (fun _ _ => True) s := by
  show wp (focus fsPart Empty.elim FileSystem.readDir >>= _) _ _ s
  simp only [wp_bind, wp_focus, wp_get, wp_ofExcept]
  refine wp_mono (LawfulFileSystem.readDir_spec s.fs) ?_ (fun e => nomatch e)
  rintro read fs' ⟨same, listed⟩
  cases outcome : listSync (fsPart.set fs' s).dir read with
  | error e => trivial
  | ok names =>
    refine ⟨?_, same.same⟩
    cases read with
    | missing =>
      cases outcome
      have nothing : files s.fs = [] := listed
      simp [shown, nothing]
    | failed message => cases outcome
    | entries entries =>
      obtain ⟨all, whole, rfl⟩ := of_listSync outcome
      have perm := (listed all whole).filter fun name => !isTemporary name
      rwa [List.filter_map] at perm

end FsStore

/-- A directory, and what was put there so far. -/
structure PutDirectory (φ : Type) where
  store : FsStore φ
  /-- Every object that was handed to a put. -/
  handed : List (String × Bytes)
  /-- Those reported written since the power was last lost, and not put again since. -/
  done : List (String × Bytes)
  /-- Those in whose puts a write was lost without being reported. -/
  cut : List (String × Bytes)

/-- What happens next. -/
inductive FsEvent where
  | putNew (name : String) (bytes : Bytes)
  | powerLoss

namespace PutDirectory

variable {φ : Type} [FileSystem φ] [FileHistory φ]

/-- Note how a put of an object went, and what it reports as written. -/
def noted (s : PutDirectory φ) (name : String) (bytes : Bytes) (store : FsStore φ)
    (written : List (String × Bytes)) : PutDirectory φ where
  store := store
  handed := s.handed ++ [(name, bytes)]
  done := s.done.filter (·.1 ≠ name) ++ written
  cut := if unreported s.store.fs < unreported store.fs then s.cut ++ [(name, bytes)] else s.cut

/-- Put an object. -/
def putNew (s : PutDirectory φ) (name : String) (bytes : Bytes) : PutDirectory φ :=
  match (BlobStore.putNew name bytes : Program BlobError (FsStore φ) Unit) s.store with
  | .ok _ store => s.noted name bytes store [(name, bytes)]
  | .error _ store => s.noted name bytes store []

/-- What an event does. -/
def step (s : PutDirectory φ) : FsEvent → PutDirectory φ
  | .putNew name bytes => s.putNew name bytes
  | .powerLoss => { s with store := { s.store with fs := powerLoss s.store.fs }, done := [] }

/-- What is found under the name of an object: all its bytes, unless a write was lost unreported. -/
def Arrived (s : PutDirectory φ) (name : String) (bytes found : Bytes) : Prop :=
  found <+: bytes ∧ (found = bytes ∨ (name, bytes) ∈ s.cut)

/-- What is true of a directory after every event. -/
structure Kept (s : PutDirectory φ) : Prop where
  /-- Whatever is read under the name of an object, or could be, arrived in one of its puts. -/
  arrived : ∀ name found, isTemporary name = false → Survives s.store.fs name found →
    ∃ bytes, (name, bytes) ∈ s.handed ∧ s.Arrived name bytes found
  there : ∀ object ∈ s.done, isTemporary object.1 = false →
    ∃ found, (object.1, found) ∈ shown s.store.fs ∧ s.Arrived object.1 object.2 found

variable {s : PutDirectory φ} {name : String} {bytes : Bytes}

omit [FileSystem φ] [FileHistory φ] in
/-- With more notes of losses, what arrived still did. -/
theorem Arrived.mono {s' : PutDirectory φ} {found : Bytes} (arrived : s.Arrived name bytes found)
    (more : s.cut ⊆ s'.cut) : s'.Arrived name bytes found :=
  ⟨arrived.1, arrived.2.imp_right (@more _)⟩

/-- A loss that was noted is not forgotten. -/
theorem cut_subset_noted {store : FsStore φ} {written : List (String × Bytes)} :
    s.cut ⊆ (s.noted name bytes store written).cut := by
  intro object mem
  rw [noted]
  split
  · exact List.mem_append_left _ mem
  · exact mem

/-- A put that placed nothing keeps it. -/
theorem Kept.unplaced {store : FsStore φ} (kept : Kept s)
    (unplaced : Unplaced s.store.fs store.fs) : Kept (s.noted name bytes store []) := by
  refine ⟨fun other found own survives => ?_, fun object reported own => ?_⟩
  · obtain ⟨given, mem, arrived⟩ :=
      kept.arrived other found own (unplaced.survives other found own survives)
    exact ⟨given, List.mem_append_left _ mem, arrived.mono cut_subset_noted⟩
  · -- Nothing is reported but what was.
    have before : object ∈ s.done := by
      rw [noted, List.append_nil] at reported
      exact List.mem_of_mem_filter reported
    obtain ⟨found, there, arrived⟩ := kept.there object before own
    exact ⟨found, unplaced.shown ▸ there, arrived.mono cut_subset_noted⟩

/-- So does one that placed its object, whether or not it reports that. -/
theorem Kept.placed {store : FsStore φ} {written : List (String × Bytes)} {found : Bytes}
    (kept : Kept s) (arrives : Arrives bytes found s.store.fs store.fs)
    (placed : Placed name found s.store.fs store.fs) (only : written ⊆ [(name, bytes)]) :
    Kept (s.noted name bytes store written) := by
  -- The new object arrived as far as its put goes, and every other is as it was.
  have arrived : (s.noted name bytes store written).Arrived name bytes found := by
    refine ⟨arrives.1, arrives.2.imp_right fun lost => ?_⟩
    rw [noted]
    simp [lost]
  refine ⟨fun other found' own survives => ?_, fun object reported own => ?_⟩
  · rcases placed.survives other found' own survives with before | ⟨rfl, rfl⟩
    · obtain ⟨given, mem, arrived⟩ := kept.arrived other found' own before
      exact ⟨given, List.mem_append_left _ mem, arrived.mono cut_subset_noted⟩
    · exact ⟨bytes, List.mem_append_right _ (.head _), arrived⟩
  · rcases List.mem_append.mp reported with before | new
    · -- What was reported under another name is still shown.
      obtain ⟨mem, other⟩ := List.mem_filter.mp before
      obtain ⟨found', there, arrived⟩ := kept.there object mem own
      have still := placed.others ▸ List.mem_filter.mpr ⟨there, other⟩
      exact ⟨found', List.mem_of_mem_filter still, arrived.mono cut_subset_noted⟩
    · obtain rfl : object = (name, bytes) := List.mem_singleton.mp (only new)
      refine ⟨found, ?_, arrived⟩
      show (name, found) ∈ shown store.fs
      rw [placed.shown own]
      exact List.mem_append_right _ (.head _)

variable [LawfulFileSystem φ]

/-- A put keeps it, however it ends. -/
theorem Kept.putNew (kept : Kept s) : Kept (s.putNew name bytes) := by
  have spec := putNew_spec name bytes s.store
  rw [PutDirectory.putNew]
  split
  · rename_i store returned
    obtain ⟨found, arrives, placed⟩ := wp_of_ok spec returned
    exact kept.placed arrives placed (List.Subset.refl _)
  · rename_i error store failed
    rcases wp_of_error spec failed with unplaced | ⟨found, arrives, placed⟩
    · exact kept.unplaced unplaced
    · exact kept.placed arrives placed (List.nil_subset _)

/-- Every event keeps it. -/
theorem Kept.step (kept : Kept s) (event : FsEvent) : Kept (s.step event) := by
  cases event with
  | putNew name bytes => exact kept.putNew
  | powerLoss =>
    -- What could be found afterwards could be found before, and nothing is reported any more.
    refine ⟨fun name found own survives => ?_, fun _ none => absurd none List.not_mem_nil⟩
    exact kept.arrived name found own (LawfulFileSystem.powerLoss_spec _ _ _ survives)

/-- And so does a run. -/
theorem Kept.run (events : List FsEvent) (kept : Kept s) :
    Kept (events.foldl PutDirectory.step s) := by
  induction events generalizing s with
  | nil => exact kept
  | cons event events ih => exact ih (kept.step event)

/--
An object appears in a directory at once, with all its bytes unless the file system lost a write.

After any puts, whichever calls of theirs failed or were the last before the process or the power
went away: no name is listed twice, what is listed is read as it was once handed to a put of that
name, and every object that was reported written since the power was last lost is there.
Only an object in whose put a write failed and nobody was told may be read as some first part of
what was handed over.
-/
theorem put_atomic {start : FsStore φ}
    (empty : ∀ name bytes, ¬ Survives start.fs name bytes) (events : List FsEvent) :
    let s := events.foldl step ⟨start, [], [], []⟩
    ∀ names store, (BlobStore.list : Program BlobError (FsStore φ) _) s.store = .ok names store →
      names.Nodup
        ∧ (∀ name ∈ names, isTemporary name = false ∧ ∀ found store',
          (BlobStore.get name : Program BlobError (FsStore φ) _) store = .ok found store' →
            ∃ bytes, (name, bytes) ∈ s.handed ∧ s.Arrived name bytes found)
        ∧ ∀ object ∈ s.done, isTemporary object.1 = false → object.1 ∈ names
          ∧ ∀ found store',
            (BlobStore.get object.1 : Program BlobError (FsStore φ) _) store = .ok found store' →
              s.Arrived object.1 object.2 found := by
  intro s names store listed
  have new : Kept (⟨start, [], [], []⟩ : PutDirectory φ) :=
    ⟨fun name found _ survives => absurd survives (empty name found),
      fun _ none => absurd none List.not_mem_nil⟩
  have kept : Kept s := new.run events
  obtain ⟨perm, same⟩ := wp_of_ok (list_spec s.store) listed
  have unique := LawfulFileSystem.unique s.store.fs
  -- What is read is in the directory, which the listing left as it was.
  have reads : ∀ name found store',
      (BlobStore.get name : Program BlobError (FsStore φ) _) store = .ok found store' →
        (name, found) ∈ files s.store.fs := by
    intro name found store' read
    have spec : wp (BlobStore.get name : Program BlobError (FsStore φ) _)
        (fun found _ => (name, found) ∈ files store.fs) (fun _ _ => True) store := by
      show wp (get >>= _) _ _ store
      simp only [wp_bind, wp_get, wp_focus]
      exact wp_mono (LawfulFileSystem.read_spec name store.fs) (fun _ _ read => read.2)
        (fun _ _ _ => trivial)
    have mem := wp_of_ok spec read
    rwa [same] at mem
  refine ⟨?_, fun name listed => ?_, fun object reported own => ?_⟩
  · exact perm.nodup_iff.mpr (unique.sublist (List.filter_sublist.map _))
  · obtain ⟨file, there, rfl⟩ := List.mem_map.mp (perm.mem_iff.mp listed)
    have own : isTemporary file.1 = false := by simpa using (List.mem_filter.mp there).2
    refine ⟨own, fun found store' read => kept.arrived _ found own ?_⟩
    exact LawfulFileSystem.survives_files _ _ (reads _ found store' read)
  · obtain ⟨found, there, arrived⟩ := kept.there object reported own
    refine ⟨perm.mem_iff.mpr (List.mem_map.mpr ⟨_, there, rfl⟩), fun found' store' read => ?_⟩
    -- One name has one file.
    have mem := List.mem_of_mem_filter there
    have one := List.inj_on_of_nodup_map unique mem (reads _ found' store' read) rfl
    rw [← (Prod.mk.inj one).2]
    exact arrived

end PutDirectory

namespace AtomicSample

open PutDirectory

/-- An empty directory on a disk, with what its calls will be answered. -/
def emptyDir (answers : Stream' DiskAnswer) : FsStore DiskFiles :=
  ⟨"d", .empty, [], 0, answers, fun _ => true, fun _ => []⟩

/-- No name finds anything in an empty directory. -/
theorem empty_emptyDir (answers : Stream' DiskAnswer) (name : String) (bytes : Bytes) :
    ¬ Survives (emptyDir answers).fs name bytes := by
  rintro ⟨file, mem | mem | ⟨_, mem, -⟩, -⟩ <;> cases mem

/-- Two objects are put. -/
def puts : List FsEvent :=
  [.putNew "a" [1, 2], .putNew "b" [3, 4]]

/-- The directory after the puts. -/
def afterPuts (answers : Stream' DiskAnswer) : PutDirectory DiskFiles :=
  puts.foldl step ⟨emptyDir answers, [], [], []⟩

/-- The process ends in the middle of the second object's write. -/
def killed : Stream' DiskAnswer := fun n => ⟨if n = 5 then some "killed" else none, true, 1⟩

/-- The last byte of the first object does not come to its file, which is synced all the same. -/
def lost : Stream' DiskAnswer := fun n => ⟨none, true, if n = 2 then 0 else 1⟩

/-- The first object is listed, and whole. -/
theorem put_atomic_killed : ∃ names store,
    (BlobStore.list : Program BlobError (FsStore DiskFiles) _) (afterPuts killed).store
        = .ok names store
      ∧ "a" ∈ names
      ∧ ∀ found store', (BlobStore.get "a" :
          Program BlobError (FsStore DiskFiles) _) store = .ok found store' → found = [1, 2] := by
  have listed : (value? ((BlobStore.list : Program BlobError (FsStore DiskFiles) _)
      (afterPuts killed).store)).isSome := by decide +kernel
  obtain ⟨names, returned⟩ := Option.isSome_iff_exists.mp listed
  have listed := eq_ok_of_value? returned
  have reported : (afterPuts killed).done = [("a", [1, 2])]
      ∧ (afterPuts killed).cut = [] := by decide +kernel
  have own : isTemporary "a" = false := by decide
  obtain ⟨-, -, kept⟩ := put_atomic (empty_emptyDir killed) puts _ _ listed
  obtain ⟨there, arrived⟩ := kept ("a", [1, 2])
    (by rw [show (List.foldl step _ puts).done = _ from reported.1]; exact .head _) own
  refine ⟨names, _, listed, there, fun found store' read => ?_⟩
  obtain ⟨-, whole | cut⟩ := arrived found store' read
  · exact whole
  · rw [show (List.foldl step _ puts).cut = _ from reported.2] at cut
    cases cut

-- An object that lost its last byte is reported written, and read without it.
example :
    ("a", [1, 2]) ∈ (afterPuts lost).done
      ∧ (afterPuts lost).cut = [("a", [1, 2])]
      ∧ value? ((BlobStore.get "a" :
          Program BlobError (FsStore DiskFiles) _) (afterPuts lost).store) = some [1] := by
  decide +kernel

end AtomicSample

end MirrorV3
