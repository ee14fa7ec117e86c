import CacheCat.Cache.Request
import CacheCat.Raft.Request

/-! Application of committed log entries. The consensus layer hands entries over in
batches; whether a snapshot is being built is looked up once for each batch. -/
namespace CacheCat.StateMachine

open Cache

structure LogId where
  term : Nat
  nodeId : Nat
  index : Nat
deriving DecidableEq

structure Membership where
  configs : List (List Nat)
  nodes : List (Nat × String)
deriving DecidableEq

inductive Payload where
  | blank
  | normal (request : Raft.Request Operation)
  | membership (members : Membership)

structure LogEntry where
  logId : LogId
  payload : Payload

/-- The part of `apply` that works on the cache. The clock of a request moves the
write clock forward only. -/
def applyEntry (mode : UpdateType) (entry : LogEntry) : Action Value :=
  match entry.payload with
  | .blank => return .ok
  | .membership _ => return .ok
  | .normal request => do
      let writeClock ← ask (.setWriteClock request.splitU64.1)
      doRequest ⟨request.splitU64.2, writeClock, mode, false⟩ true request.operation

theorem applyEntry_normal (mode : UpdateType) (logId : LogId) {request : Raft.Request Operation}
    {clock dbNumber : Nat} (hSplit : request.splitU64 = (clock, dbNumber)) :
    applyEntry mode ⟨logId, .normal request⟩ =
      (ask (.setWriteClock clock) >>= fun writeClock =>
        doRequest ⟨dbNumber, writeClock, mode, false⟩ true request.operation) := by
  obtain ⟨rfl, rfl⟩ := Prod.mk.inj hSplit
  rfl

/-- A request that is stamped any number of times carries the last clock and the number of
its database, and is applied to that database. What `get_db_number` returns is the lower
part of the clock. -/
theorem header_packed (writeClock dbNumber : Nat) (operation : Operation) (clocks : List Nat)
    (hClock : writeClock < Raft.clockBound) (hDb : dbNumber < 2 ^ 16)
    (hClocks : ∀ clock ∈ clocks, clock < Raft.clockBound) :
    let request := clocks.foldl Raft.Request.setWriteClock (.new writeClock dbNumber operation)
    request.splitU64 = (clocks.getLastD writeClock, dbNumber) ∧
      (request.getDbNumber = dbNumber ↔ clocks.getLastD writeClock % 2 ^ 16 = dbNumber) ∧
      ∀ mode logId, applyEntry mode ⟨logId, .normal request⟩ =
        (ask (.setWriteClock (clocks.getLastD writeClock)) >>= fun now =>
          doRequest ⟨dbNumber, now, mode, false⟩ true operation) := by
  have hNew := Raft.Request.splitU64_new writeClock dbNumber operation hDb
  rw [Nat.mod_eq_of_lt hClock] at hNew
  obtain ⟨hSplit, hOperation⟩ := Raft.Request.splitU64_restamped _ clocks hNew hClocks
  refine ⟨hSplit, ?_, fun mode logId => ?_⟩
  · rw [Raft.Request.getDbNumber, show _ >>> 16 = _ from congrArg Prod.fst hSplit]
  · rw [applyEntry_normal mode logId hSplit, hOperation]
    rfl

theorem header_packed_twice :
    ([7, 65539].foldl Raft.Request.setWriteClock (.new 1 3 (Operation.base .empty))).splitU64 =
      (65539, 3) ∧ ([7, 65539].foldl Raft.Request.setWriteClock
        (.new 1 3 (Operation.base .empty))).getDbNumber = 3 := by
  have hPacked := header_packed 1 3 (.base .empty) [7, 65539] (by decide) (by decide) (by decide)
  exact ⟨hPacked.1, hPacked.2.1.mpr (by decide)⟩

/-- A request for database 0, stamped with the clock 5. -/
theorem getDbNumber_clock :
    (Raft.Request.new 5 0 (Operation.base .empty)).splitU64 = (5, 0) ∧
      (Raft.Request.new 5 0 (Operation.base .empty)).getDbNumber = 5 := by
  decide

structure Batch where
  snapshotStarted : Bool
  entries : List LogEntry

def Batch.mode (batch : Batch) : UpdateType :=
  if batch.snapshotStarted then .snapshot else .none

/-- One call of `apply`, with the responses to its entries. -/
def applyBatch (batch : Batch) : Action (List Value) :=
  batch.entries.mapM (applyEntry batch.mode)

def applyBatches : List Batch → Action (List Value)
  | [] => return []
  | batch :: batches => do
      let responses ← applyBatch batch
      let rest ← applyBatches batches
      return responses ++ rest

/-! ### Batches do not matter -/

/-- The entries of the batches, each with the mode of its batch. -/
def entriesWithMode (batches : List Batch) : List (UpdateType × LogEntry) :=
  batches.flatMap fun batch => batch.entries.map (batch.mode, ·)

theorem applyBatches_eq (batches : List Batch) :
    applyBatches batches =
      (entriesWithMode batches).mapM fun entry => applyEntry entry.1 entry.2 := by
  induction batches with
  | nil => rfl
  | cons batch batches ih =>
    rw [entriesWithMode, List.flatMap_cons, List.mapM_append, ← entriesWithMode, ← ih,
      List.mapM_map]
    rfl

theorem entriesWithMode_snd (batches : List Batch) :
    (entriesWithMode batches).map Prod.snd = batches.flatMap (·.entries) := by
  simp [entriesWithMode, List.map_flatMap, Function.comp_def]

theorem Batch.mode_ne_cas (batch : Batch) (version : Nat) : batch.mode ≠ .cas version := by
  unfold mode
  split <;> simp

/-- Replay of a queue is no mode of `apply`. -/
theorem entriesWithMode_ne_cas {batches : List Batch} {entry : UpdateType × LogEntry}
    (h : entry ∈ entriesWithMode batches) (version : Nat) : entry.1 ≠ .cas version := by
  simp only [entriesWithMode, List.mem_flatMap, List.mem_map] at h
  obtain ⟨batch, _, original, _, rfl⟩ := h
  exact batch.mode_ne_cas version

end CacheCat.StateMachine
