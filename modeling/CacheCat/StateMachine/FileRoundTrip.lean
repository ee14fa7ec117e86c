import CacheCat.StateMachine.Restore

/-! A snapshot file that is written while nothing else happens, and read into a fresh
cache. The file gives back what was dumped exactly when the metadata fits into the
area that was reserved for it in front of the databases. -/
namespace CacheCat.StateMachine

open Cache
open Mocha (Table)
open Library (Codec bigEndian ofBigEndian readExact readNumber overwrite)

variable {Vm : Type}

/-! ### Dumping a cache that is not written to -/

/-- The order in which the map is iterated. -/
structure Iterates (order : List Bytes) (map : Table Bytes MyValue) : Prop where
  nodup : order.Nodup
  mem_iff : ∀ key, key ∈ order ↔ key ∈ map

/-- `dump_snapshots_to_writer` up to the serialization. -/
def dumpDatabase (now : Nat) (map : Table Bytes MyValue) (order : List Bytes) :
    List (Bytes × Entry) :=
  order.filterMap fun key =>
    ((map.lookup key).filter fun entry => !entry.expired now).map fun entry => (key, entry)

/-- What is dumped of a cache. -/
def dumpOf (s : State Vm) (order : Nat → List Bytes) (queue : List AtomicRequest)
    (snapshotMeta : SnapshotMeta) : Snapshot where
  databases := (List.range s.count).map fun db => dumpDatabase s.writeClock (s.databases db)
    (order db)
  queue := queue
  recorded := ⟨snapshotMeta, s.writeClock⟩

theorem lookup_dumpDatabase (now : Nat) (map : Table Bytes MyValue) {order : List Bytes}
    (hNodup : order.Nodup) (key : Bytes) :
    (storedTable (dumpDatabase now map order)).lookup key =
      if key ∈ order then (map.lookup key).filter fun entry => !entry.expired now else none := by
  induction order using List.reverseRecOn with
  | nil => rfl
  | append_singleton order last ih =>
    rw [List.nodup_append] at hNodup
    have hLast : last ∉ order := fun hMem => hNodup.2.2 _ hMem _ (List.mem_singleton_self _) rfl
    have hRest := ih hNodup.1
    rw [dumpDatabase, List.filterMap_append, ← dumpDatabase]
    cases hFound : (map.lookup last).filter fun entry => !entry.expired now with
    | none =>
      by_cases hKey : key = last
      · subst hKey
        simp [hFound, hRest, hLast]
      · simp [hFound, hRest, hKey]
    | some entry =>
      have hConcat : storedTable (dumpDatabase now map order ++
          [last].filterMap fun key => ((map.lookup key).filter fun entry =>
            !entry.expired now).map fun entry => (key, entry)) =
          (storedTable (dumpDatabase now map order)).insert last entry := by
        simp [hFound, storedTable_concat]
      rw [hConcat]
      by_cases hKey : key = last
      · subst hKey
        simp [hFound]
      · simp [Finmap.lookup_insert_of_ne _ hKey, hRest, hKey]

theorem dumpOf_reflects (s : State Vm) {order : Nat → List Bytes}
    (hOrder : ∀ db < s.count, Iterates (order db) (s.databases db)) (queue : List AtomicRequest)
    (snapshotMeta : SnapshotMeta) :
    ReflectsAll (dumpOf s order queue snapshotMeta).databases s := by
  intro db entries hEntries key
  obtain ⟨hDb, rfl⟩ : db < s.count ∧ dumpDatabase s.writeClock (s.databases db)
      (order db) = entries := by
    simp only [dumpOf, List.getElem?_map, Option.map_eq_some_iff] at hEntries
    obtain ⟨number, hNumber, hEntries⟩ := hEntries
    obtain ⟨hDb, rfl⟩ := List.getElem?_eq_some_iff.mp hNumber
    rw [List.getElem_range] at hEntries
    exact ⟨by simpa using hDb, hEntries⟩
  rw [lookup_dumpDatabase _ _ (hOrder db hDb).nodup]
  by_cases hKey : key ∈ order db
  · rw [if_pos hKey, filter_expired (Nat.le_refl _)]
    rfl
  · have hAbsent : (s.databases db).lookup key = none := by
      rw [Finmap.lookup_eq_none, ← (hOrder db hDb).mem_iff]
      exact hKey
    rw [if_neg hKey, State.live, hAbsent]

variable (lua : LuaMachine Vm) (vm : Vm)

variable {snapshot : Snapshot} {t : State Vm} {codec : SnapshotCodec}
    {metaCodec : Codec SnapshotMeta} {file : Bytes} {recorded : CacheCatSnapshotMeta}

/-! ### The metadata alone -/

/-- `load_meta_from_path`. The header holds the code of the metadata and the clock. -/
def loadMetaFromPath (metaCodec : Codec SnapshotMeta) :
    Option Bytes → Except LoadError (Option SnapshotMeta)
  | none => .ok none
  | some file => do
      let buffer ← readHeader file
      let snapshotMeta ← orFail .undecodable (metaCodec.deserialize buffer)
      return some snapshotMeta

/-- `bincode2` writes the fields of a structure one after the other. -/
def StartsWithMeta (codec : SnapshotCodec) (metaCodec : Codec SnapshotMeta) : Prop :=
  ∀ recorded code, codec.recorded.serialize recorded = some code →
    ∃ first rest, metaCodec.serialize recorded.snapshotMeta = some first ∧ code = first ++ rest

theorem loadMetaFromPath_dumpFile (hMeta : StartsWithMeta codec metaCodec)
    (hFile : dumpFile codec snapshot = some file) (hFits : FitsHeader codec snapshot.recorded) :
    loadMetaFromPath metaCodec (some file) = .ok (some snapshot.recorded.snapshotMeta) := by
  obtain ⟨cache, queue, recorded, padding, -, -, hRecorded, hLength, rfl⟩ := dumpFile_eq hFile hFits
  obtain ⟨first, rest, hFirst, rfl⟩ := hMeta _ _ hRecorded
  have hSmall : 4 + (first ++ rest).length ≤ placeholderLength := by omega
  simp only [loadMetaFromPath, readHeader_append hSmall, bind, Except.bind,
    metaCodec.deserialize_append _ _ rest hFirst]
  rfl

/-! ### Round trips -/

/-- The file gives back what was dumped: into a fresh cache with as many databases it is
loaded without an error, with the same queue, metadata, clock and live entries, and the
metadata can be read on its own. -/
structure ReadsBack (lua : LuaMachine Vm) (vm : Vm) (codec : SnapshotCodec)
    (metaCodec : Codec SnapshotMeta) (s : State Vm) (snapshot : Snapshot)
      (file : Bytes) : Prop where
  succeeds : ∃ t result, (machine lua).Runs (.new s.count vm)
    (loadCacheFromPath codec (some file)) t result
  returned : ∀ t result,
    (machine lua).Runs (.new s.count vm) (loadCacheFromPath codec (some file)) t result →
      result = .ok (some (snapshot.recorded.snapshotMeta, snapshot.queue))
  restored : ∀ t result,
    (machine lua).Runs (.new s.count vm) (loadCacheFromPath codec (some file)) t result →
      t.writeClock = s.writeClock ∧ ∀ db < s.count, ∀ key, t.live db key = s.live db key
  metadata : loadMetaFromPath metaCodec (some file) = .ok (some snapshot.recorded.snapshotMeta)

/-- Every content of a cache and every queue survive a dump with this metadata. -/
def RoundTrips (lua : LuaMachine Vm) (vm : Vm) (codec : SnapshotCodec)
    (metaCodec : Codec SnapshotMeta) (recorded : CacheCatSnapshotMeta) : Prop :=
  ∀ (s : State Vm) (order : Nat → List Bytes) (queue : List AtomicRequest) (file : Bytes),
    s.writeClock = recorded.writeClock → s.count < 2 ^ 64 →
    (∀ db < s.count, Iterates (order db) (s.databases db)) →
    dumpFile codec (dumpOf s order queue recorded.snapshotMeta) = some file →
    ReadsBack lua vm codec metaCodec s (dumpOf s order queue recorded.snapshotMeta) file

theorem roundTrips_of_fits (hMeta : StartsWithMeta codec metaCodec)
    (hFits : FitsHeader codec recorded) : RoundTrips lua vm codec metaCodec recorded := by
  intro s order queue file hClock hCount hOrder hFile
  have hRecorded : (dumpOf s order queue recorded.snapshotMeta).recorded = recorded := by
    rw [dumpOf, hClock]
  have hLength : (dumpOf s order queue recorded.snapshotMeta).databases.length = s.count := by
    simp [dumpOf]
  have hHeader : FitsHeader codec (dumpOf s order queue recorded.snapshotMeta).recorded := by
    rwa [hRecorded]
  have hLoads := loadsAs_of_reflects hFile hHeader hCount rfl hLength
    (dumpOf_reflects s hOrder queue recorded.snapshotMeta)
  have hRuns (t : State Vm) result
      (hRun : (machine lua).Runs (.new s.count vm)
        (loadCacheFromPath codec (some file)) t result) :=
    hLoads.run (s := .new s.count vm) rfl (Nat.zero_le _) hRun
  exact ⟨(shows_view lua).exists_run (settles_load codec (.new s.count vm) _),
    fun t result hRun => (hRuns t result hRun).1, fun t result hRun => (hRuns t result hRun).2,
    loadMetaFromPath_dumpFile hMeta hFile hHeader⟩

/-! ### Metadata that does not fit -/

/-- The reader finds the end of the metadata where the databases should begin. -/
theorem bodyOf_of_wide {code : Bytes} (hFile : dumpFile codec snapshot = some file)
    (hCode : codec.recorded.serialize snapshot.recorded = some code)
    (hWide : placeholderLength < 4 + code.length) :
    ∃ rest, bodyOf file = code.drop 296 ++ rest := by
  simp only [dumpFile, Option.bind_eq_bind, Option.bind_eq_some_iff, Option.some.injEq] at hFile
  obtain ⟨cache, -, queue, -, recorded, hRecorded, rfl⟩ := hFile
  cases hCode.symm.trans hRecorded
  unfold placeholderLength at hWide
  generalize hStart : cacheMagicNum ++ bigEndian 1 fileVersion = start
  have hLength : start.length = 5 := hStart ▸ rfl
  generalize hTail : (start ++ List.replicate placeholderLength 0 ++ (cache ++ queue)).drop
    (start.length + (bigEndian 4 code.length ++ code).length) = tail
  refine ⟨tail, ?_⟩
  have hArea : 5 + placeholderLength = (start ++ bigEndian 4 code.length).length + 296 := by
    rw [List.length_append, hLength, Library.length_bigEndian, placeholderLength]
  have hTake : (start ++ List.replicate placeholderLength 0 ++ (cache ++ queue)).take start.length =
      start := by simp
  rw [bodyOf, overwrite, hTail, hTake, hArea, ← List.append_assoc start, List.append_assoc _ code,
    List.drop_length_add_append, List.drop_append_of_le_length (by omega)]

/-- The number that is read there is bounded by its first byte. -/
theorem readU64_bounds {first : UInt8} {rest : Bytes} {number : Nat}
    (hRead : readU64 (first :: file) = .ok (number, rest)) :
    first.toNat * 2 ^ 56 ≤ number ∧ number < (first.toNat + 1) * 2 ^ 56 := by
  unfold readU64 readNumber readExact at hRead
  split at hRead
  next hLength =>
    have hNumber : ofBigEndian ((first :: file).take 8) = number := by
      simp only [Option.map_some, orFail, Except.ok.injEq, Prod.mk.injEq, List.splitAt_eq] at hRead
      exact hRead.1
    rw [List.take_succ_cons, Library.ofBigEndian_cons] at hNumber
    have hRest := Library.ofBigEndian_lt (file.take 7)
    have hSeven : (file.take 7).length = 7 := by
      rw [List.length_cons] at hLength
      rw [List.length_take]
      omega
    rw [hSeven] at hNumber hRest
    omega
  · cases hRead

variable {number : Nat} {codec : SnapshotCodec}

theorem readEntries_database (db count : Nat) (file : Bytes) :
    ∀ insert ∈ (readEntries codec db count file).1, insert.1 = db := by
  induction count generalizing file with
  | zero => simp [readEntries]
  | succ count ih =>
    rw [readEntries]
    split
    · simp
    · exact List.forall_mem_cons.mpr ⟨rfl, ih _⟩

theorem readDatabases_database (count db : Nat) (file : Bytes) :
    ∀ insert ∈ (readDatabases codec count db file).1, insert.1 < db + count := by
  induction count generalizing db file with
  | zero => simp [readDatabases]
  | succ count ih =>
    rw [readDatabases]
    split
    · simp
    next entryCount body hRead =>
      have hEntries := @readEntries_database codec db entryCount body
      split
      next hRest =>
        rw [hRest] at hEntries
        intro insert hInsert
        rw [hEntries insert hInsert]
        omega
      next hRest =>
        rw [hRest] at hEntries
        intro insert hInsert
        rcases List.mem_append.mp hInsert with hFirst | hLater
        · rw [hEntries insert hFirst]
          omega
        · have hBelow := ih (db + 1) _ insert hLater
          omega

/-- A number of databases that is too large is refused, and with one that is too small the
last database is never written. -/
theorem readFile_spares (hShards : ∀ shards rest, readU64 (bodyOf file) = .ok (shards, rest) →
      number < shards ∨ shards ≤ number - 1) :
    ∀ insert ∈ (readFile codec number (some file)).1, insert.1 ≠ number - 1 := by
  have hCache : ∀ insert ∈ (readCache codec number (bodyOf file)).1, insert.1 ≠ number - 1 := by
    rw [readCache]
    split
    · simp
    next shards rest hRead =>
      split
      · simp
      next hEnough =>
        intro insert hInsert
        have hFew := (hShards shards rest hRead).resolve_left hEnough
        have hBelow := readDatabases_database shards 0 rest insert hInsert
        omega
  rw [readFile]
  split
  · simp
  · split <;>
      next hRest =>
        rw [hRest] at hCache
        exact hCache

/-- Then the last database stays empty. -/
theorem live_of_spared (hPositive : 0 < number)
    (hShards : ∀ shards rest, readU64 (bodyOf file) = .ok (shards, rest) →
      number < shards ∨ shards ≤ number - 1)
    {result : Except LoadError (Option (SnapshotMeta × List AtomicRequest))}
    (hRun : (machine lua).Runs (.new number vm) (loadCacheFromPath codec (some file)) t result)
    (key : Bytes) : t.live (number - 1) key = none := by
  obtain ⟨hView, -⟩ := hRun.settles (shows_view lua)
      (settles_load codec (.new number vm) (some file))
  have hLast : number - 1 < (State.new number vm).view.count := Nat.sub_one_lt hPositive.ne'
  have hLeft : (leftBy (State.new number vm).view (readFile codec number (some file)).1).live
      (number - 1) key = none := by
    rw [leftBy_live _ _ hLast, lastInsert_eq_none (readFile_spares hShards)]
    rfl
  have hLive : t.view.live (number - 1) key = none := by
    rw [hView, loadedView]
    split
    · exact congrArg (Option.filter _) hLeft
    · exact hLeft
  exact hLive

/-! ### The content that is lost -/

/-- A cache with one entry, in the last of its databases. -/
def oneEntry (vm : Vm) (number clock : Nat) (pair : Bytes × Entry) : State Vm :=
  { State.new number vm with
    databases := Function.update (fun _ => ∅) (number - 1) (Finmap.singleton pair.1 pair.2)
    writeClock := clock }

def oneOrder (number : Nat) (key : Bytes) (db : Nat) : List Bytes :=
  if db = number - 1 then [key] else []

theorem oneOrder_iterates (clock : Nat) (pair : Bytes × Entry) (db : Nat) :
    Iterates (oneOrder number pair.1 db) ((oneEntry vm number clock pair).databases db) := by
  by_cases hDb : db = number - 1
  · subst hDb
    constructor
    · simp [oneOrder]
    · simp [oneOrder, oneEntry]
  · constructor
    · simp [oneOrder, hDb]
    · simp [oneOrder, oneEntry, hDb, Finmap.notMem_empty]

theorem concatCodes_isSome {A : Type} {code : A → Option Bytes} {values : List A}
    (hCode : ∀ value ∈ values, (code value).isSome) : (concatCodes code values).isSome := by
  induction values with
  | nil => rfl
  | cons value values ih =>
    obtain ⟨first, hFirst⟩ := Option.isSome_iff_exists.mp (hCode value (List.mem_cons_self ..))
    obtain ⟨rest, hRest⟩ := Option.isSome_iff_exists.mp
      (ih fun other hOther => hCode other (List.mem_cons_of_mem _ hOther))
    simp [concatCodes, hFirst, hRest]

/-- The entries of one database can be written if each of them can. -/
theorem dumpSnapshots_isSome {entries : List (Bytes × Entry)} (hLength : entries.length < 2 ^ 64)
    (hEntries : ∀ pair ∈ entries, (dumpEntry codec pair).isSome) :
    (dumpSnapshots codec entries).isSome := by
  obtain ⟨written, hWritten⟩ := Option.isSome_iff_exists.mp (concatCodes_isSome hEntries)
  simpa [dumpSnapshots, hWritten] using hLength

theorem dumpFile_oneEntry (number : Nat) {pair : Bytes × Entry}
    (hRecorded : (codec.recorded.serialize recorded).isSome)
    (hPair : (dumpEntry codec pair).isSome) :
    ∃ file, dumpFile codec (dumpOf (oneEntry vm number recorded.writeClock pair)
      (oneOrder number pair.1) [] recorded.snapshotMeta) = some file := by
  have hDatabase : ∀ entries ∈ (dumpOf (oneEntry vm number recorded.writeClock pair)
      (oneOrder number pair.1) [] recorded.snapshotMeta).databases,
        (dumpSnapshots codec entries).isSome := by
    intro entries hEntries
    obtain ⟨db, -, rfl⟩ := List.mem_map.mp hEntries
    refine dumpSnapshots_isSome ?_ fun written hWritten => ?_
    · have hOrder : (oneOrder number pair.1 db).length ≤ 1 := by
        unfold oneOrder
        split <;> simp
      exact ((List.length_filterMap_le ..).trans hOrder).trans_lt (by decide)
    · suffices hSame : written = pair by rwa [hSame]
      obtain ⟨key, hKey, hFound⟩ := List.mem_filterMap.mp hWritten
      obtain ⟨rfl, hDb⟩ : key = pair.1 ∧ db = number - 1 := by
        simpa [oneOrder, and_comm] using hKey
      simp only [oneEntry, hDb, Function.update_self, Finmap.lookup_singleton_eq,
        Option.map_eq_some_iff, Option.filter_eq_some_iff] at hFound
      obtain ⟨entry, ⟨hEntry, -⟩, rfl⟩ := hFound
      cases hEntry
      rfl
  obtain ⟨written, hWritten⟩ := Option.isSome_iff_exists.mp (concatCodes_isSome hDatabase)
  obtain ⟨code, hCode⟩ := Option.isSome_iff_exists.mp hRecorded
  have hClock : (dumpOf (oneEntry vm number recorded.writeClock pair) (oneOrder number pair.1) []
    recorded.snapshotMeta).recorded = recorded := rfl
  have hQueue : dumpOperationQueue codec [] = some (bigEndian 8 0) := rfl
  have hEmpty : (dumpOf (oneEntry vm number recorded.writeClock pair) (oneOrder number pair.1) []
    recorded.snapshotMeta).queue = [] := rfl
  simp only [dumpFile, dumpCache, hWritten, hClock, hEmpty, hCode, hQueue, Option.bind_eq_bind,
    Option.bind_some]
  exact ⟨_, rfl⟩

/-- Metadata larger than its area destroys the number of databases, and with it what is
in the last one. -/
theorem fits_of_roundTrips {pair : Bytes × Entry} (hPair : (dumpEntry codec pair).isSome)
    (hLive : pair.2.expired recorded.writeClock = false)
    (hTrips : RoundTrips lua vm codec metaCodec recorded) : FitsHeader codec recorded := by
  intro code hCode
  by_contra hWide
  have hWide : placeholderLength < 4 + code.length := Nat.lt_of_not_le hWide
  obtain ⟨first, overflow, hOverflow⟩ : ∃ first overflow, code.drop 296 = first :: overflow := by
    cases hDrop : code.drop 296 with
    | nil =>
      have hShort := List.drop_eq_nil_iff.mp hDrop
      unfold placeholderLength at hWide
      omega
    | cons first overflow => exact ⟨first, overflow, rfl⟩
  -- the number read is below the right one, or above it
  let number := if first = 0 then 2 ^ 56 else 1
  have hPositive : 0 < number ∧ number < 2 ^ 64 := by
    unfold number
    split <;> decide
  obtain ⟨file, hFile⟩ :=
    dumpFile_oneEntry vm number (Option.isSome_iff_exists.mpr ⟨code, hCode⟩) hPair
  have hShards : ∀ shards rest, readU64 (bodyOf file) = .ok (shards, rest) →
      number < shards ∨ shards ≤ number - 1 := by
    intro shards rest hRead
    obtain ⟨tail, hBody⟩ := bodyOf_of_wide hFile hCode hWide
    rw [hBody, hOverflow] at hRead
    have hBounds := readU64_bounds hRead
    unfold number
    split
    next hZero =>
      rw [hZero] at hBounds
      simp at hBounds
      omega
    next hSome =>
      have hByte : first.toNat ≠ 0 := fun hZero => hSome (UInt8.toNat_inj.mp hZero)
      omega
  have hReads := hTrips (oneEntry vm number recorded.writeClock pair) (oneOrder number pair.1)
    [] file rfl hPositive.2 (fun db _ => oneOrder_iterates vm _ pair db) hFile
  obtain ⟨t, result, hRun⟩ := hReads.succeeds
  have hLost := live_of_spared lua vm hPositive.1 hShards hRun pair.1
  have hKept := (hReads.restored t result hRun).2 (number - 1) (by
    change number - 1 < number
    omega) pair.1
  rw [hLost] at hKept
  simp [oneEntry, State.live, hLive, Option.filter_some] at hKept

/-- The metadata with which every content survives is the metadata that fits into the
header area. -/
theorem roundTrips_iff_fits (lua : LuaMachine Vm) (vm : Vm) (codec : SnapshotCodec)
    {metaCodec : Codec SnapshotMeta} (hMeta : StartsWithMeta codec metaCodec)
    (recorded : CacheCatSnapshotMeta)
    (hWrites : ∃ pair : Bytes × Entry, (dumpEntry codec pair).isSome ∧
      pair.2.expired recorded.writeClock = false) :
    RoundTrips lua vm codec metaCodec recorded ↔ FitsHeader codec recorded := by
  obtain ⟨pair, hPair, hLive⟩ := hWrites
  exact ⟨fits_of_roundTrips lua vm hPair hLive, roundTrips_of_fits lua vm hMeta⟩

def counterRecorded : CacheCatSnapshotMeta := ⟨⟨some ⟨1, 1, 2⟩, ⟨none, ⟨[], []⟩⟩⟩, 6⟩

theorem counterCodec_startsWithMeta :
    StartsWithMeta counterCodec (.ofList [counterRecorded.snapshotMeta]) := by
  intro recorded code hCode
  have hRecorded : recorded = counterRecorded := by
    by_contra hOther
    have hAbsent : recorded ∉ [counterRecorded] := by simpa using hOther
    have hNone : (Codec.ofList [counterRecorded]).serialize recorded = none := if_neg (by
      rw [List.idxOf_eq_length hAbsent]
      decide)
    exact absurd (hNone.symm.trans hCode) (by simp)
  subst hRecorded
  exact ⟨code, [], hCode, (List.append_nil _).symm⟩

theorem roundTrips_counter :
    RoundTrips .none () counterCodec (.ofList [counterRecorded.snapshotMeta]) counterRecorded :=
  (roundTrips_iff_fits .none () counterCodec counterCodec_startsWithMeta counterRecorded
    ⟨(bytes "n", ⟨⟨1, .int 1⟩, none⟩), by decide +kernel, rfl⟩).mpr (by decide +kernel)

/-- A serializer that needs 400 bytes for the metadata, as it has for a membership of
many nodes. -/
def wideCodec : SnapshotCodec where
  key := counterCodec.key
  entry := counterCodec.entry
  request := counterCodec.request
  recorded :=
    { serialize := fun recorded =>
        if recorded = counterRecorded then some (List.replicate 400 1) else none
      deserialize := fun _ => some counterRecorded
      deserialize_append := by
        intro recorded code rest hCode
        rw [Option.ite_none_right_eq_some] at hCode
        rw [hCode.1]
      code_ne_nil := by
        intro recorded code hCode
        rw [Option.ite_none_right_eq_some] at hCode
        cases hCode.2
        exact List.cons_ne_nil _ _
      code_length_lt := by
        intro recorded code hCode
        rw [Option.ite_none_right_eq_some] at hCode
        cases hCode.2
        rw [List.length_replicate]
        decide }

/-- A cache with one database is read back as one with 72340172838076673 of them. -/
theorem wide_metadata_not_loaded :
    (dumpFile wideCodec ⟨[[]], [], counterRecorded⟩).map
        (fun file => (readU64 (bodyOf file)).toOption.map Prod.fst) =
          some (some 72340172838076673) ∧
      ¬ RoundTrips .none () wideCodec (.ofList [counterRecorded.snapshotMeta]) counterRecorded := by
  refine ⟨by decide +kernel, fun hTrips => ?_⟩
  have hPair : (dumpEntry wideCodec (bytes "n", ⟨⟨1, .int 1⟩, none⟩)).isSome := by decide +kernel
  have hFits := fits_of_roundTrips .none () hPair rfl hTrips
  exact absurd hFits (by decide +kernel)

end CacheCat.StateMachine
