import CacheCat.Cache.Effect
import CacheCat.StateMachine.SnapshotInvariant

/-! Loads of a snapshot file. The databases are cleared before the file is opened, and
every entry is inserted as soon as it has been read: what a load leaves is told by the
inserts that it reads from the file, and by how the reading ends. -/
namespace CacheCat.StateMachine

open Cache
open Library (Program bigEndian)

/-! ### What a load makes of a file -/

section

variable (codec : SnapshotCodec)

/-- The entries that are inserted, each with its database, and how the reading ends. -/
def readEntries (db : Nat) : (count : Nat) → Bytes →
    List (Nat × Bytes × Entry) × Except LoadError Bytes
  | 0, file => ([], .ok file)
  | count + 1, file =>
    match readEntry codec file with
    | .error error => ([], .error error)
    | .ok (pair, file) =>
      ((db, pair) :: (readEntries db count file).1, (readEntries db count file).2)

def readDatabases : (count db : Nat) → Bytes → List (Nat × Bytes × Entry) × Except LoadError Bytes
  | 0, _, file => ([], .ok file)
  | count + 1, db, file =>
    match readU64 file with
    | .error error => ([], .error error)
    | .ok (entryCount, file) =>
      match readEntries codec db entryCount file with
      | (inserts, .error error) => (inserts, .error error)
      | (inserts, .ok file) =>
        (inserts ++ (readDatabases count (db + 1) file).1, (readDatabases count (db + 1) file).2)

def readCache (count : Nat) (file : Bytes) : List (Nat × Bytes × Entry) × Except LoadError Bytes :=
  match readU64 file with
  | .error error => ([], .error error)
  | .ok (shardCount, file) =>
    if count < shardCount then ([], .error (tooManyShards shardCount count))
    else readDatabases codec shardCount 0 file

/-- A load into a cache with `count` databases. -/
def readFile (count : Nat) (file : Option Bytes) : List (Nat × Bytes × Entry) ×
    Except LoadError (Option (CacheCatSnapshotMeta × List AtomicRequest)) :=
  match file with
  | none => ([], .ok none)
  | some file =>
    match readHeader file with
    | .error error => ([], .error error)
    | .ok header =>
      match readCache codec count (bodyOf file) with
      | (inserts, .error error) => (inserts, .error error)
      | (inserts, .ok rest) => (inserts, (readTrailer codec header rest).map some)

end

/-- The last entry among the inserts under a key. -/
def lastInsert (inserts : List (Nat × Bytes × Entry)) (db : Nat) (key : Bytes) : Option Entry :=
  (inserts.reverse.find? fun placed => placed.1 = db ∧
    placed.2.1 = key).map fun placed => placed.2.2

/-! ### Views during a load -/

def insertAll (view : View) (inserts : List (Nat × Bytes × Entry)) : View :=
  inserts.foldl (fun view placed => view.put placed.1 placed.2.1 placed.2.2) view

def cleared (view : View) : View := (List.range view.count).foldl View.clear view

variable (view : View) (dbs : List Nat) (inserts : List (Nat × Bytes × Entry)) (db : Nat)
    (key : Bytes)

theorem insertAll_frame :
    (insertAll view inserts).count = view.count ∧
      (insertAll view inserts).writeClock = view.writeClock := by
  induction inserts generalizing view with
  | nil => exact ⟨rfl, rfl⟩
  | cons placed inserts ih => exact ih _

theorem foldl_clear_frame :
    (dbs.foldl View.clear view).count = view.count ∧
      (dbs.foldl View.clear view).writeClock = view.writeClock := by
  induction dbs generalizing view with
  | nil => exact ⟨rfl, rfl⟩
  | cons db dbs ih => exact ih _

theorem foldl_clear_live :
    (dbs.foldl View.clear view).live db key = if db ∈ dbs then none else view.live db key := by
  induction dbs generalizing view with
  | nil => simp
  | cons first dbs ih =>
    rw [List.foldl_cons, ih]
    by_cases hFirst : db = first
    · simp [View.clear, hFirst]
    · simp [View.clear, hFirst]

theorem lastInsert_append (inserts others : List (Nat × Bytes × Entry)) (db : Nat) (key : Bytes) :
    lastInsert (inserts ++ others) db key =
      (lastInsert others db key).or (lastInsert inserts db key) := by
  simp [lastInsert, List.find?_append, Option.map_or]

theorem lastInsert_concat (last : Nat × Bytes × Entry) (db : Nat) (key : Bytes) :
    lastInsert (inserts ++ [last]) db key =
      if db = last.1 ∧ key = last.2.1 then some last.2.2 else lastInsert inserts db key := by
  by_cases hLast : db = last.1 ∧ key = last.2.1
  · simp [lastInsert, hLast]
  · have hOther : ¬ (last.1 = db ∧ last.2.1 = key) := fun h => hLast ⟨h.1.symm, h.2.symm⟩
    simp [lastInsert, hOther, hLast]

variable {db : Nat}

theorem lastInsert_eq_none {inserts : List (Nat × Bytes × Entry)}
    (hOthers : ∀ placed ∈ inserts, placed.1 ≠ db) (key : Bytes) :
    lastInsert inserts db key = none := by
  simp only [lastInsert, Option.map_eq_none_iff, List.find?_eq_none, List.mem_reverse]
  intro placed hPlaced hHere
  exact hOthers placed hPlaced (of_decide_eq_true hHere).1

/-- The inserts show the last entry under a key. -/
theorem insertAll_live :
    (insertAll view inserts).live db key =
      (lastInsert inserts db key).elim (view.live db key)
        fun entry => (some entry).filter fun entry => !entry.expired view.writeClock := by
  induction inserts using List.reverseRecOn with
  | nil => rfl
  | append_singleton inserts last ih =>
    have hStep : insertAll view (inserts ++ [last]) =
        (insertAll view inserts).put last.1 last.2.1 last.2.2 := by
      simp [insertAll]
    rw [hStep, View.put_live, lastInsert_concat, (insertAll_frame view inserts).2]
    split
    · rfl
    · exact ih

/-- What a load leaves before it sets the clock. -/
def leftBy (view : View) (inserts : List (Nat × Bytes × Entry)) : View :=
  insertAll (cleared view) inserts

theorem leftBy_writeClock : (leftBy view inserts).writeClock = view.writeClock :=
  (insertAll_frame _ _).2.trans (foldl_clear_frame _ _).2

theorem leftBy_live (hDb : db < view.count) (key : Bytes) :
    (leftBy view inserts).live db key =
      (lastInsert inserts db key).filter fun entry => !entry.expired view.writeClock := by
  have hMissing : (cleared view).live db key = none := by
    rw [cleared, foldl_clear_live, if_pos (List.mem_range.mpr hDb)]
  have hClock : (cleared view).writeClock = view.writeClock := (foldl_clear_frame _ _).2
  rw [leftBy, insertAll_live, hMissing, hClock]
  cases lastInsert inserts db key <;> rfl

/-! ### Runs of a load -/

section

variable {codec : SnapshotCodec} {view : View}

theorem settles_insertSnapshot (db : Nat) (pair : Bytes × Entry) {post : View → Unit → Prop} :
    (insertSnapshot db pair).Settles View.effect post view ↔
      post (view.put db pair.1 pair.2) () := by
  rw [insertSnapshot, settles_insertEntry, Mocha.resolveExpireAt_getExpirePolicy]

variable {post : View → Except LoadError Bytes → Prop}

theorem settles_loadEntries (db count : Nat) (file : Bytes) :
    (loadEntries codec db count file).Settles View.effect post view ↔
      post (insertAll view (readEntries codec db count file).1)
        (readEntries codec db count file).2 := by
  induction count generalizing view file with
  | zero => rfl
  | succ count ih =>
    rw [loadEntries, readEntries]
    cases readEntry codec file with
    | error error => rfl
    | ok read =>
      rw [Program.settles_bind, settles_insertSnapshot]
      exact ih _

theorem insertAll_append (view : View) (inserts others : List (Nat × Bytes × Entry)) :
    insertAll view (inserts ++ others) = insertAll (insertAll view inserts) others :=
  List.foldl_append

theorem settles_loadDatabases (count db : Nat) (file : Bytes) :
    (loadDatabases codec count db file).Settles View.effect post view ↔
      post (insertAll view (readDatabases codec count db file).1)
        (readDatabases codec count db file).2 := by
  induction count generalizing view db file with
  | zero => rfl
  | succ count ih =>
    rw [loadDatabases, readDatabases]
    cases readU64 file with
    | error error => rfl
    | ok read =>
      obtain ⟨entryCount, body⟩ := read
      simp only
      rw [Program.settles_bind, settles_loadEntries]
      obtain ⟨inserts, ending⟩ := readEntries codec db entryCount body
      cases ending with
      | error error => rfl
      | ok rest =>
        rw [insertAll_append]
        exact ih (db + 1) rest

theorem settles_loadCacheFromReader (file : Bytes) :
    (loadCacheFromReader codec file).Settles View.effect post view ↔
      post (insertAll view (readCache codec view.count file).1)
        (readCache codec view.count file).2 := by
  rw [loadCacheFromReader, readCache]
  cases readU64 file with
  | error error => rfl
  | ok read =>
    rw [Program.settles_bind, settles_databaseCount]
    simp only
    split
    · rfl
    · exact settles_loadDatabases ..

theorem settles_clearAll {post : View → Unit → Prop} :
    (forEachDatabase fun db => ask (.clear db)).Settles View.effect post view ↔
      post (cleared view) () := by
  rw [forEachDatabase, Program.settles_bind, settles_databaseCount]
  exact Program.settles_forM View.clear (fun _ => True) (fun _ _ _ => trivial)
    (fun view db post _ => settles_clear db) _ trivial

/-- The reply of a load. -/
def loadReply : Except LoadError (Option (CacheCatSnapshotMeta × List AtomicRequest)) →
    Except LoadError (Option (SnapshotMeta × List AtomicRequest))
  | .error error => .error error
  | .ok none => .ok none
  | .ok (some (recorded, queue)) => .ok (some (recorded.snapshotMeta, queue))

/-- What a load leaves: after a success it has set the clock. -/
def loadedView (codec : SnapshotCodec) (view : View) (file : Option Bytes) : View :=
  match (readFile codec view.count file).2 with
  | .ok (some (recorded, _)) =>
    (leftBy view (readFile codec view.count file).1).tick recorded.writeClock
  | _ => leftBy view (readFile codec view.count file).1

theorem settles_loadCacheFromPath (file : Option Bytes)
    {post : View → Except LoadError (Option (SnapshotMeta × List AtomicRequest)) → Prop} :
    (loadCacheFromPath codec file).Settles View.effect post view ↔
      post (loadedView codec view file) (loadReply (readFile codec view.count file).2) := by
  have hCount : (cleared view).count = view.count := (foldl_clear_frame _ _).1
  rw [loadCacheFromPath.eq_def, Program.settles_bind, settles_clearAll]
  cases file with
  | none => rfl
  | some file =>
    simp only [loadedView, readFile]
    cases readHeader file with
    | error error => rfl
    | ok header =>
      rw [Program.settles_bind, settles_loadCacheFromReader, hCount]
      obtain ⟨inserts, ending⟩ := readCache codec view.count (bodyOf file)
      cases ending with
      | error error => rfl
      | ok rest =>
        simp only [finishLoad]
        cases readTrailer codec header rest with
        | error error => rfl
        | ok read =>
          rw [Program.settles_bind, settles_setWriteClock]
          rfl

theorem settles_load {Vm : Type} (codec : SnapshotCodec) (s : State Vm) (file : Option Bytes) :
    (loadCacheFromPath codec file).Settles View.effect
      (fun after result => after = loadedView codec s.view file ∧
        result = loadReply (readFile codec s.count file).2) s.view :=
  (settles_loadCacheFromPath file).mpr ⟨rfl, rfl⟩

/-- At a start the queue is left aside. -/
theorem everyRun_loadAtStart {Vm : Type} (lua : LuaMachine Vm) (codec : SnapshotCodec)
    (s : State Vm) (file : Option Bytes) :
    (machine lua).EveryRun s (loadAtStart codec file) fun t result =>
      t.view = loadedView codec s.view file ∧
        result = (loadReply (readFile codec s.count file).2).map (·.map Prod.fst) := by
  have hSettles : (loadAtStart codec file).Settles View.effect (fun after result =>
      after = loadedView codec s.view file ∧
        result = (loadReply (readFile codec s.count file).2).map (·.map Prod.fst)) s.view := by
    rw [loadAtStart, Program.settles_bind, settles_loadCacheFromPath]
    have hCount : s.view.count = s.count := rfl
    rw [hCount]
    rcases loadReply (readFile codec s.count file).2 with _ | _ | _ <;> exact ⟨rfl, rfl⟩
  exact (shows_view lua).everyRun hSettles

end

/-! ### A written file is read back -/

variable {file : Bytes}

section

/-- The inserts of the databases from number `db` on. -/
def placed : (db : Nat) → List (List (Bytes × Entry)) → List (Nat × Bytes × Entry)
  | _, [] => []
  | db, entries :: databases => entries.map (db, ·) ++ placed (db + 1) databases

variable {databases : List (List (Bytes × Entry))}

theorem le_of_mem_placed : ∀ insert ∈ placed db databases, db ≤ insert.1 := by
  induction databases generalizing db with
  | nil => nofun
  | cons entries databases ih =>
    intro insert hInsert
    rcases List.mem_append.mp hInsert with hFirst | hRest
    · obtain ⟨pair, -, rfl⟩ := List.mem_map.mp hFirst
      exact le_rfl
    · exact (Nat.le_succ db).trans (ih insert hRest)

theorem lastInsert_map (db : Nat) (entries : List (Bytes × Entry)) (key : Bytes) :
    lastInsert (entries.map (db, ·)) db key = (storedTable entries).lookup key := by
  induction entries using List.reverseRecOn with
  | nil => rfl
  | append_singleton entries last ih =>
    rw [List.map_append, List.map_singleton, lastInsert_concat, storedTable_concat, ih]
    by_cases hKey : key = last.1
    · subst hKey
      simp
    · simp [hKey, Finmap.lookup_insert_of_ne _ hKey]

theorem lastInsert_placed {entries : List (Bytes × Entry)} {i : Nat}
    (hEntries : databases[i]? = some entries) (db : Nat) (key : Bytes) :
    lastInsert (placed db databases) (db + i) key = (storedTable entries).lookup key := by
  induction databases generalizing db i with
  | nil => cases hEntries
  | cons first databases ih =>
    rw [placed, lastInsert_append]
    cases i with
    | zero =>
      cases hEntries
      have hLater : lastInsert (placed (db + 1) databases) db key = none :=
        lastInsert_eq_none (fun insert hInsert => Nat.ne_of_gt (le_of_mem_placed insert hInsert))
          key
      simp only [Nat.add_zero, hLater, Option.none_or, lastInsert_map]
    | succ i =>
      have hEarlier : lastInsert (first.map (db, ·)) (db + (i + 1)) key = none := by
        refine lastInsert_eq_none (fun insert hInsert => ?_) key
        obtain ⟨pair, -, rfl⟩ := List.mem_map.mp hInsert
        exact (Nat.lt_add_of_pos_right (Nat.succ_pos i)).ne
      have hRest := ih hEntries (db + 1)
      rw [Nat.add_right_comm, Nat.add_assoc] at hRest
      rw [hEarlier, Option.or_none, hRest]

variable {codec : SnapshotCodec} {snapshot : Snapshot}

theorem readEntries_append {entries : List (Bytes × Entry)} {code : Bytes}
    (hCode : concatCodes (dumpEntry codec) entries = some code) (db : Nat) (rest : Bytes) :
    readEntries codec db entries.length (code ++ rest) = (entries.map (db, ·), .ok rest) := by
  induction entries generalizing code with
  | nil =>
    cases hCode
    rfl
  | cons pair entries ih =>
    obtain ⟨first, others, hFirst, hOthers, rfl⟩ := concatCodes_cons hCode
    rw [List.length_cons, readEntries, List.append_assoc, readEntry_append hFirst]
    simp only [ih hOthers]
    rfl

theorem readDatabases_append {code : Bytes}
    (hCode : concatCodes (dumpSnapshots codec) databases = some code) (db : Nat) (rest : Bytes) :
    readDatabases codec databases.length db (code ++ rest) = (placed db databases, .ok rest) := by
  induction databases generalizing db code with
  | nil =>
    cases hCode
    rfl
  | cons entries databases ih =>
    obtain ⟨first, others, hFirst, hOthers, rfl⟩ := concatCodes_cons hCode
    simp only [dumpSnapshots, Option.bind_eq_bind, Option.bind_eq_some_iff,
      Option.ite_none_right_eq_some, Option.some.injEq] at hFirst
    obtain ⟨written, hWritten, hCount, rfl⟩ := hFirst
    rw [List.length_cons, readDatabases, List.append_assoc, List.append_assoc,
      readU64_append hCount]
    simp only [readEntries_append hWritten, ih hOthers, placed]

theorem readTrailer_append {queue recorded : Bytes}
    (hQueue : dumpOperationQueue codec snapshot.queue = some queue)
    (hRecorded : codec.recorded.serialize snapshot.recorded = some recorded) :
    readTrailer codec recorded queue = .ok (snapshot.recorded, snapshot.queue) := by
  simp only [dumpOperationQueue, Option.bind_eq_bind, Option.bind_eq_some_iff,
    Option.some.injEq] at hQueue
  obtain ⟨written, hWritten, rfl⟩ := hQueue
  have hRounds : snapshot.queue.length < (written ++ bigEndian 8 0).length + 1 := by
    have hLength := length_le_of_concatCodes hWritten
    rw [List.length_append]
    omega
  simp only [readTrailer, readOperationQueue_append hWritten hRounds,
    codec.recorded.deserialize_code hRecorded, bind, Except.bind]
  rfl

/-- A completed dump is read back as what was written, if the metadata left the
databases alone. -/
theorem readFile_dumpFile (hFile : dumpFile codec snapshot = some file)
    (hFits : FitsHeader codec snapshot.recorded) (hShort : snapshot.databases.length < 2 ^ 64)
    {count : Nat} (hCount : snapshot.databases.length ≤ count) :
    readFile codec count (some file) =
      (placed 0 snapshot.databases, .ok (some (snapshot.recorded, snapshot.queue))) := by
  obtain ⟨cache, queue, recorded, padding, hCache, hQueue, hRecorded, hLength, hLayout⟩ :=
    dumpFile_eq hFile hFits
  have hHeader : readHeader file = .ok recorded := by
    rw [hLayout]
    exact readHeader_append (by omega) _
  have hBody : bodyOf file = cache ++ queue := by
    rw [hLayout, bodyOf, ← List.append_assoc, List.drop_left' ?_]
    simp only [List.length_append, Library.length_bigEndian, ← hLength]
    change 4 + 1 + _ + _ = _
    omega
  simp only [dumpCache, Option.bind_eq_bind, Option.bind_eq_some_iff, Option.some.injEq] at hCache
  obtain ⟨written, hWritten, rfl⟩ := hCache
  simp only [readFile, hHeader, hBody, readCache, List.append_assoc, readU64_append hShort,
    if_neg hCount.not_gt, readDatabases_append hWritten, readTrailer_append hQueue hRecorded]
  rfl

end

/-! ### Files that show a state -/

section

variable {Vm : Type}

/-- On every node with as many databases that is not ahead of `t`, the file is read as the
snapshot, and leaves the entries of `t`. -/
def LoadsAs (codec : SnapshotCodec) (file : Bytes) (snapshot : Snapshot) (t : State Vm) : Prop :=
  ∀ s : State Vm, s.count = t.count → s.writeClock ≤ t.writeClock →
    (readFile codec s.count (some file)).2 = .ok (some (snapshot.recorded, snapshot.queue)) ∧
      (loadedView codec s.view (some file)).writeClock = t.writeClock ∧
      ∀ db < t.count, ∀ key, (loadedView codec s.view (some file)).live db key = t.live db key

theorem loadsAs_of_reflects {codec : SnapshotCodec} {snapshot : Snapshot}
    (hFile : dumpFile codec snapshot = some file) (hFits : FitsHeader codec snapshot.recorded)
    {t : State Vm} (hShort : t.count < 2 ^ 64)
    (hClock : snapshot.recorded.writeClock = t.writeClock)
    (hLength : snapshot.databases.length = t.count) (hAll : ReflectsAll snapshot.databases t) :
    LoadsAs codec file snapshot t := by
  intro s hCount hBehind
  have hRead : readFile codec s.view.count (some file) = _ :=
    readFile_dumpFile hFile hFits (hLength ▸ hShort) (hLength.trans hCount.symm).le
  have hLoaded : loadedView codec s.view (some file) =
      (leftBy s.view (placed 0 snapshot.databases)).tick t.writeClock := by
    simp only [loadedView, hRead, hClock]
  have hMax : max (leftBy s.view (placed 0 snapshot.databases)).writeClock t.writeClock =
      t.writeClock := by
    rw [leftBy_writeClock]
    exact max_eq_right hBehind
  refine ⟨congrArg Prod.snd hRead, by rw [hLoaded]; exact hMax, fun db hDb key => ?_⟩
  have hEntries := List.getElem?_eq_getElem (hLength ▸ hDb)
  have hInsert := lastInsert_placed hEntries 0 key
  rw [Nat.zero_add] at hInsert
  rw [hLoaded, View.tick, hMax]
  dsimp only
  rw [leftBy_live s.view _ (hDb.trans_eq hCount.symm), hInsert]
  exact (filter_expired hBehind _).trans (hAll db _ hEntries key)

/-- The same for a run of the load. -/
theorem LoadsAs.run {codec : SnapshotCodec} {snapshot : Snapshot} {s t u : State Vm}
    (h : LoadsAs codec file snapshot t) (hCount : s.count = t.count)
    (hBehind : s.writeClock ≤ t.writeClock) {lua : LuaMachine Vm}
    {result : Except LoadError (Option (SnapshotMeta × List AtomicRequest))}
    (hRun : (machine lua).Runs s (loadCacheFromPath codec (some file)) u result) :
    result = .ok (some (snapshot.recorded.snapshotMeta, snapshot.queue)) ∧
      u.writeClock = t.writeClock ∧ ∀ db < t.count, ∀ key, u.live db key = t.live db key := by
  obtain ⟨hView, rfl⟩ := hRun.settles (shows_view lua) (settles_load codec s (some file))
  obtain ⟨hRead, hClock, hLive⟩ := h s hCount hBehind
  rw [← hView] at hClock hLive
  exact ⟨by rw [hRead]; rfl, hClock, hLive⟩

end

end CacheCat.StateMachine
