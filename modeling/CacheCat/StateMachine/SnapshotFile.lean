import CacheCat.Library.Framing
import CacheCat.StateMachine.Apply

/-! The snapshot file: how it is written, and the programs that load it into a
cache. The header area is reserved before the databases are written and filled
in last, when the metadata is known. -/
namespace CacheCat.StateMachine

open Cache
open Library (Codec bigEndian readExact readNumber overwrite)

structure StoredMembership where
  logId : Option LogId
  membership : Membership
deriving DecidableEq

structure SnapshotMeta where
  lastLogId : Option LogId
  lastMembership : StoredMembership
deriving DecidableEq

structure CacheCatSnapshotMeta where
  snapshotMeta : SnapshotMeta
  writeClock : Nat
deriving DecidableEq

/-- `bincode2` on the types that are written. -/
structure SnapshotCodec where
  key : Codec Bytes
  entry : Codec Entry
  request : Codec AtomicRequest
  recorded : Codec CacheCatSnapshotMeta

/-- What is written to a file: the entries of each database in the order they
were visited, the queue, and the metadata. -/
structure Snapshot where
  databases : List (List (Bytes × Entry))
  queue : List AtomicRequest
  recorded : CacheCatSnapshotMeta

def cacheMagicNum : Bytes := bytes "MCDC"

def fileVersion : Nat := 1

def placeholderLength : Nat := 300

/-! ### Writing

A refused value makes the whole dump fail. -/

section

variable (codec : SnapshotCodec)

/-- The codes of the elements one after the other. -/
def concatCodes {A : Type} (code : A → Option Bytes) : List A → Option Bytes
  | [] => some []
  | value :: values => do
      let first ← code value
      let rest ← concatCodes code values
      some (first ++ rest)

def writeVec (data : Bytes) : Bytes := bigEndian 8 data.length ++ data

def dumpEntry (pair : Bytes × Entry) : Option Bytes := do
  let keyBytes ← codec.key.serialize pair.1
  let valBytes ← codec.entry.serialize pair.2
  some (writeVec keyBytes ++ writeVec valBytes)

/-- One database. The number of entries is counted with `checked_add` and written
to the front afterwards. -/
def dumpSnapshots (entries : List (Bytes × Entry)) : Option Bytes := do
  let written ← concatCodes (dumpEntry codec) entries
  if entries.length < 2 ^ 64 then some (bigEndian 8 entries.length ++ written) else none

def dumpCache (databases : List (List (Bytes × Entry))) : Option Bytes := do
  let written ← concatCodes (dumpSnapshots codec) databases
  some (bigEndian 8 databases.length ++ written)

def dumpOperationQueue (queue : List AtomicRequest) : Option Bytes := do
  let written ← concatCodes (fun request => (codec.request.serialize request).map writeVec) queue
  some (written ++ bigEndian 8 0)

/-- The file as it is renamed to its final name. -/
def dumpFile (snapshot : Snapshot) : Option Bytes := do
  let cache ← dumpCache codec snapshot.databases
  let queue ← dumpOperationQueue codec snapshot.queue
  let recorded ← codec.recorded.serialize snapshot.recorded
  let start := cacheMagicNum ++ bigEndian 1 fileVersion
  some (overwrite (start ++ List.replicate placeholderLength 0 ++ (cache ++ queue)) start.length
    (bigEndian 4 recorded.length ++ recorded))

/-- The metadata and its length fit into the header area. -/
def FitsHeader (recorded : CacheCatSnapshotMeta) : Prop :=
  ∀ code ∈ codec.recorded.serialize recorded, 4 + code.length ≤ placeholderLength

instance (recorded : CacheCatSnapshotMeta) : Decidable (FitsHeader codec recorded) :=
  inferInstanceAs (Decidable (∀ code ∈ codec.recorded.serialize recorded,
    4 + code.length ≤ placeholderLength))

end

/-! ### Reading -/

inductive LoadError where
  | unexpectedEof
  | other (message : String)
  | invalidData (message : String)
  /-- `bincode2` does not accept the bytes. -/
  | undecodable
  /-- The panic of a vector that is asked to be larger than the address space. -/
  | capacityOverflow
deriving DecidableEq

def orFail {A : Type} (error : LoadError) : Option A → Except LoadError A
  | some value => .ok value
  | none => .error error

section

variable (codec : SnapshotCodec)

def readU64 (file : Bytes) : Except LoadError (Nat × Bytes) :=
  orFail .unexpectedEof (readNumber 8 file)

/-- Allocate a buffer and fill it. -/
def readBuffer (length : Nat) (file : Bytes) : Except LoadError (Bytes × Bytes) :=
  if length < 2 ^ 63 then orFail .unexpectedEof (readExact length file)
    else .error .capacityOverflow

def readVec (file : Bytes) : Except LoadError (Bytes × Bytes) := do
  let (length, file) ← readU64 file
  readBuffer length file

def readEntry (file : Bytes) : Except LoadError ((Bytes × Entry) × Bytes) := do
  let (keyBuf, file) ← readVec file
  let (valBuf, file) ← readVec file
  let key ← orFail .undecodable (codec.key.deserialize keyBuf)
  let value ← orFail .undecodable (codec.entry.deserialize valBuf)
  return ((key, value), file)

/-- `load_operation_queue_from_reader`: the queue ends with a zero length or with
the file. Each round reads eight bytes, so that their number bounds the rounds. -/
def readOperationQueue : (rounds : Nat) → Bytes → Except LoadError (List AtomicRequest)
  | 0, _ => .ok []
  | rounds + 1, file =>
    match readNumber 8 file with
    | none => .ok []
    | some (0, _) => .ok []
    | some (length + 1, file) => do
        let (buffer, file) ← readBuffer (length + 1) file
        let request ← orFail .undecodable (codec.request.deserialize buffer)
        let requests ← readOperationQueue rounds file
        return request :: requests

def readHeader (file : Bytes) : Except LoadError Bytes := do
  let (magic, file) ← orFail .unexpectedEof (readExact 4 file)
  if magic ≠ cacheMagicNum then .error (.other "invalid file magic")
  let (version, file) ← orFail .unexpectedEof (readNumber 1 file)
  if version ≠ fileVersion then .error (.other "unsupported version")
  let (length, file) ← orFail .unexpectedEof (readNumber 4 file)
  let (buffer, _) ← readBuffer length file
  return buffer

/-- What `seek` leaves to read. The offset `300 - (4 + meta_len)` is computed with
wrapping, so the reader always ends up right behind the header area. -/
def bodyOf (file : Bytes) : Bytes := file.drop (5 + placeholderLength)

def readTrailer (header file : Bytes) :
    Except LoadError (CacheCatSnapshotMeta × List AtomicRequest) := do
  let queue ← readOperationQueue codec (file.length + 1) file
  let recorded ← orFail .undecodable (codec.recorded.deserialize header)
  return (recorded, queue)

/-! ### Loading

An entry is inserted as soon as it has been read. -/

def insertSnapshot (db : Nat) (pair : Bytes × Entry) : Action Unit :=
  ask (.insertEntry db pair.1 pair.2.value pair.2.getExpirePolicy)

def loadEntries (db : Nat) : (count : Nat) → Bytes → Action (Except LoadError Bytes)
  | 0, file => return .ok file
  | count + 1, file =>
    match readEntry codec file with
    | .error error => return .error error
    | .ok (pair, file) => do
        insertSnapshot db pair
        loadEntries db count file

def loadDatabases : (count db : Nat) → Bytes → Action (Except LoadError Bytes)
  | 0, _, file => return .ok file
  | count + 1, db, file =>
    match readU64 file with
    | .error error => return .error error
    | .ok (entryCount, file) => do
        match ← loadEntries codec db entryCount file with
        | .error error => return .error error
        | .ok file => loadDatabases count (db + 1) file

def tooManyShards (shardCount count : Nat) : LoadError :=
  .invalidData s!"Expected {shardCount} shards, but cache only has {count}"

def loadCacheFromReader (file : Bytes) : Action (Except LoadError Bytes) :=
  match readU64 file with
  | .error error => return .error error
  | .ok (shardCount, file) => do
      let count ← ask .databaseCount
      if count < shardCount then return .error (tooManyShards shardCount count)
      else loadDatabases codec shardCount 0 file

def finishLoad (header : Bytes) : Except LoadError Bytes →
    Action (Except LoadError (Option (SnapshotMeta × List AtomicRequest)))
  | .error error => return .error error
  | .ok file =>
    match readTrailer codec header file with
    | .error error => return .error error
    | .ok (recorded, queue) => do
        let _ ← ask (.setWriteClock recorded.writeClock)
        return .ok (some (recorded.snapshotMeta, queue))

/-- `load_cache_from_path`; `none` when there is no such file. -/
def loadCacheFromPath (file : Option Bytes) :
    Action (Except LoadError (Option (SnapshotMeta × List AtomicRequest))) := do
  forEachDatabase fun db => ask (.clear db)
  match file with
  | none => return .ok none
  | some file =>
    match readHeader file with
    | .error error => return .error error
    | .ok header => loadCacheFromReader codec (bodyOf file) >>= finishLoad codec header

/-- The replay of the queue names database 0. -/
def replay (request : AtomicRequest) : Action Unit := do
  let _ ← baseRequest ⟨0, request.writeClock, .cas request.version, false⟩ request.request
  return ()

/-- `install_snapshot` up to the update of the metadata. -/
def installSnapshot (file : Option Bytes) : Action (Except LoadError SnapshotMeta) := do
  match ← loadCacheFromPath codec file with
  | .error error => return .error error
  | .ok none => return .error (.other "meta data is empty")
  | .ok (some (snapshotMeta, queue)) => do
      queue.forM replay
      return .ok snapshotMeta

/-- The load at the start of a node. The queue that comes with the file is not
looked at. -/
def loadAtStart (file : Option Bytes) : Action (Except LoadError (Option SnapshotMeta)) := do
  match ← loadCacheFromPath codec file with
  | .error error => return .error error
  | .ok none => return .ok none
  | .ok (some (snapshotMeta, _)) => return .ok (some snapshotMeta)

end

/-! ### A written file is read back -/

section

variable {codec : SnapshotCodec}

variable {written : Bytes} {snapshot : Snapshot}

theorem concatCodes_cons {A : Type} {code : A → Option Bytes} {value : A} {values : List A}
    (h : concatCodes code (value :: values) = some written) :
    ∃ first rest, code value = some first ∧ concatCodes code values = some rest ∧
      written = first ++ rest := by
  simp only [concatCodes, Option.bind_eq_bind, Option.bind_eq_some_iff, Option.some.injEq] at h
  obtain ⟨first, hFirst, rest, hRest, rfl⟩ := h
  exact ⟨first, rest, hFirst, hRest, rfl⟩

theorem readU64_append {n : Nat} (h : n < 2 ^ 64) (rest : Bytes) :
    readU64 (bigEndian 8 n ++ rest) = .ok (n, rest) := by
  rw [readU64, Library.readNumber_append h]
  rfl

theorem readBuffer_append {data : Bytes} (h : data.length < 2 ^ 63) (rest : Bytes) :
    readBuffer data.length (data ++ rest) = .ok (data, rest) := by
  rw [readBuffer, if_pos h, Library.readExact_append]
  rfl

theorem readVec_append {data : Bytes} (h : data.length < 2 ^ 63) (rest : Bytes) :
    readVec (writeVec data ++ rest) = .ok (data, rest) := by
  have hLength : data.length < 2 ^ 64 := h.trans (by decide)
  rw [readVec, writeVec, List.append_assoc, readU64_append hLength]
  exact readBuffer_append h rest

theorem readEntry_append {pair : Bytes × Entry} {code : Bytes}
    (hCode : dumpEntry codec pair = some code) (rest : Bytes) :
    readEntry codec (code ++ rest) = .ok (pair, rest) := by
  simp only [dumpEntry, Option.bind_eq_bind, Option.bind_eq_some_iff, Option.some.injEq] at hCode
  obtain ⟨keyBytes, hKey, valBytes, hValue, rfl⟩ := hCode
  have hFirst := readVec_append (codec.key.code_length_lt _ _ hKey) (writeVec valBytes ++ rest)
  have hSecond := readVec_append (codec.entry.code_length_lt _ _ hValue) rest
  simp only [readEntry, List.append_assoc, bind, Except.bind, hFirst, hSecond,
    codec.key.deserialize_code hKey, codec.entry.deserialize_code hValue]
  rfl

theorem readOperationQueue_append {queue : List AtomicRequest}
    (hWritten : concatCodes (fun request => (codec.request.serialize request).map writeVec) queue =
      some written) {rounds : Nat} (hRounds : queue.length < rounds) :
    readOperationQueue codec rounds (written ++ bigEndian 8 0) = .ok queue := by
  induction queue generalizing written rounds with
  | nil =>
    cases hWritten
    cases rounds with
    | zero => cases hRounds
    | succ rounds => rfl
  | cons request queue ih =>
    obtain ⟨first, others, hFirst, hOthers, rfl⟩ := concatCodes_cons hWritten
    obtain ⟨code, hCode, rfl⟩ := Option.map_eq_some_iff.mp hFirst
    cases rounds with
    | zero => cases hRounds
    | succ rounds =>
      have hRead : readNumber 8 (writeVec code ++ others ++ bigEndian 8 0) =
          some (code.length, code ++ (others ++ bigEndian 8 0)) := by
        rw [List.append_assoc]
        exact Library.readNumber_append
          ((codec.request.code_length_lt _ _ hCode).trans (by decide)) _
      -- the code is not empty, so its length does not end the queue
      obtain ⟨length, hLength⟩ := Nat.exists_eq_succ_of_ne_zero
        (List.length_eq_zero_iff.not.mpr (codec.request.code_ne_nil _ _ hCode))
      have hBuffer := readBuffer_append (codec.request.code_length_lt _ _ hCode)
        (others ++ bigEndian 8 0)
      rw [hLength] at hBuffer hRead
      have hRest := ih hOthers (Nat.lt_of_succ_lt_succ hRounds)
      simp only [readOperationQueue, hRead, Nat.succ_eq_add_one, bind, Except.bind] at hBuffer ⊢
      simp only [hBuffer, codec.request.deserialize_code hCode, hRest]
      rfl

/-- Each request takes up at least the bytes of its length. -/
theorem length_le_of_concatCodes {queue : List AtomicRequest}
    (hWritten : concatCodes (fun request => (codec.request.serialize request).map writeVec) queue =
      some written) : queue.length ≤ written.length := by
  induction queue generalizing written with
  | nil => exact Nat.zero_le _
  | cons request queue ih =>
    obtain ⟨first, others, hFirst, hOthers, rfl⟩ := concatCodes_cons hWritten
    obtain ⟨code, _, rfl⟩ := Option.map_eq_some_iff.mp hFirst
    have hRest := ih hOthers
    simp only [List.length_cons, List.length_append, writeVec, Library.length_bigEndian]
    omega

/-- The layout of a file whose metadata fits into the header area. -/
theorem dumpFile_eq {file : Bytes} (hFile : dumpFile codec snapshot = some file)
    (hFits : FitsHeader codec snapshot.recorded) :
    ∃ cache queue recorded padding, dumpCache codec snapshot.databases = some cache ∧
      dumpOperationQueue codec snapshot.queue = some queue ∧
      codec.recorded.serialize snapshot.recorded = some recorded ∧
      4 + recorded.length + padding.length = placeholderLength ∧
      file = cacheMagicNum ++ bigEndian 1 fileVersion ++
        (bigEndian 4 recorded.length ++ recorded) ++ (padding ++ (cache ++ queue)) := by
  simp only [dumpFile, Option.bind_eq_bind, Option.bind_eq_some_iff, Option.some.injEq] at hFile
  obtain ⟨cache, hCache, queue, hQueue, recorded, hRecorded, rfl⟩ := hFile
  have hLength : (bigEndian 4 recorded.length ++ recorded).length ≤
      (List.replicate placeholderLength (0 : UInt8)).length := by
    simpa using hFits recorded hRecorded
  refine ⟨cache, queue, recorded, _, hCache, hQueue, hRecorded, ?_,
    Library.overwrite_append _ hLength⟩
  simp only [List.length_append, Library.length_bigEndian, List.length_replicate,
    List.length_drop] at hLength ⊢
  omega

theorem readHeader_append {recorded : Bytes} (hLength : 4 + recorded.length ≤ placeholderLength)
    (rest : Bytes) :
    readHeader (cacheMagicNum ++ bigEndian 1 fileVersion ++
      (bigEndian 4 recorded.length ++ recorded) ++ rest) = .ok recorded := by
  have hSmall : recorded.length ≤ 296 := by
    unfold placeholderLength at hLength
    omega
  have hMagic : ∀ rest, readExact 4 (cacheMagicNum ++ rest) = some (cacheMagicNum, rest) :=
    Library.readExact_append cacheMagicNum
  have hVersion : ∀ rest, readNumber 1 (bigEndian 1 fileVersion ++ rest) =
      some (fileVersion, rest) :=
    Library.readNumber_append (by decide)
  have hNumber : ∀ rest, readNumber 4 (bigEndian 4 recorded.length ++ rest) =
      some (recorded.length, rest) :=
    Library.readNumber_append (hSmall.trans_lt (by decide))
  have hBuffer := readBuffer_append (hSmall.trans_lt (by decide : 296 < 2 ^ 63)) rest
  simp only [readHeader, List.append_assoc, hMagic, hVersion, hNumber, orFail, bind, Except.bind,
    ne_eq, not_true_eq_false, if_false, hBuffer]
  rfl

end

end CacheCat.StateMachine
