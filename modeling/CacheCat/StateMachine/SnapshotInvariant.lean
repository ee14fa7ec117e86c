import CacheCat.StateMachine.Reflects

/-! The invariant of a node that builds snapshots: whatever it records is the
state at the entry that it records, provided that no entry applied meanwhile
touches a database whose walk has begun and that the metadata fits into the
header area of the file. -/
namespace CacheCat.StateMachine

open Cache

variable {Vm : Type}

/-- The id up to which a node has applied that started at `origin`. -/
def lastLogId (origin : Option LogId) (log : List LogEntry) : Option LogId :=
  (log.getLast?.map (·.logId)).or origin

theorem lastLogId_append (origin : Option LogId) (log entries : List LogEntry) :
    lastLogId origin (log ++ entries) = lastLogId (lastLogId origin log) entries := by
  simp only [lastLogId, List.getLast?_append]
  cases entries.getLast? <;> simp

theorem lastAppliedLogId_foldl (entries : List LogEntry) (raftMeta : RaftMetaData) :
    (entries.foldl RaftMetaData.apply raftMeta).lastAppliedLogId =
      lastLogId raftMeta.lastAppliedLogId entries := by
  induction entries generalizing raftMeta with
  | nil => rfl
  | cons entry entries ih =>
    rw [List.foldl_cons, ih, ← List.singleton_append, lastLogId_append]
    rfl

/-- What a step must not do: change a database whose walk has begun, or record
metadata that does not fit into the header area. -/
structure Steady (codec : SnapshotCodec) (node next : Node Vm) : Prop where
  unaltered : ∀ db < node.cache.count, node.build.Begun db → Unaltered node.cache next.cache db
  fits : ∀ snapshot, next.build = .recorded snapshot → FitsHeader codec snapshot.recorded

def ReflectsAll (databases : List (List (Bytes × Entry))) (s : State Vm) : Prop :=
  ∀ db entries, databases[db]? = some entries → Reflects entries s db

/-- The snapshot holds the state after a prefix of the log, and records the last
entry of that prefix and the write clock after it. -/
def Faithful (lua : LuaMachine Vm) (start : State Vm) (origin : Option LogId) (log : List LogEntry)
    (snapshot : Snapshot) : Prop :=
  ∃ earlier later t, log = earlier ++ later ∧ Applies lua start earlier t ∧
    snapshot.recorded.snapshotMeta.lastLogId = lastLogId origin earlier ∧
    snapshot.recorded.writeClock = t.writeClock ∧ snapshot.databases.length = t.count ∧
    ReflectsAll snapshot.databases t

theorem Faithful.append {lua : LuaMachine Vm} {start : State Vm} {origin : Option LogId}
    {log : List LogEntry} {snapshot : Snapshot} (h : Faithful lua start origin log snapshot)
    (entries : List LogEntry) : Faithful lua start origin (log ++ entries) snapshot := by
  obtain ⟨earlier, later, t, rfl, h⟩ := h
  exact ⟨earlier, later ++ entries, t, List.append_assoc .., h⟩

section

variable (codec : SnapshotCodec) (clean : List AtomicRequest → Prop)

/-- What has been written is right at each stage. `clean` is what is known of the
queue. -/
def BuildSound (faithful : Snapshot → Prop) (s : State Vm) : Build → Prop
  | .idle => True
  | .dumping done current =>
    done.length ≤ s.count ∧ ReflectsAll done s ∧
      ∀ dump ∈ current, done.length < s.count ∧ Walks dump s done.length
  | .queued databases queue => databases.length = s.count ∧ clean queue ∧ ReflectsAll databases s
  | .recorded snapshot =>
    FitsHeader codec snapshot.recorded ∧ clean snapshot.queue ∧ faithful snapshot
  | .renamed => True

structure NodeSound (lua : LuaMachine Vm) (start : State Vm) (origin : Option LogId)
    (node : Node Vm) : Prop where
  applies : Applies lua start node.log node.cache
  lastApplied : node.raftMeta.lastAppliedLogId = lastLogId origin node.log
  queue : clean node.cache.queue
  build : BuildSound codec clean (Faithful lua start origin node.log) node.cache node.build
  file : ∀ file, node.snapshotBin = some file → ∃ snapshot, dumpFile codec snapshot = some file ∧
    FitsHeader codec snapshot.recorded ∧ clean snapshot.queue ∧
    Faithful lua start origin node.log snapshot

end

variable {codec : SnapshotCodec} {clean : List AtomicRequest → Prop}

theorem ReflectsAll.unaltered {databases : List (List (Bytes × Entry))} {s t : State Vm}
    (h : ReflectsAll databases s) (hClock : s.writeClock ≤ t.writeClock)
    (hUnaltered : ∀ db < databases.length, Unaltered s t db) : ReflectsAll databases t := by
  intro db entries hEntries
  obtain ⟨hDb, _⟩ := List.getElem?_eq_some_iff.mp hEntries
  exact (h db entries hEntries).unaltered hClock (hUnaltered db hDb)

/-- A change of the cache that leaves the begun databases alone. -/
theorem BuildSound.follow {faithful faithful' : Snapshot → Prop} {s t : State Vm} {build : Build}
    (h : BuildSound codec clean faithful s build) (hGrows : Grows s t)
    (hUnaltered : ∀ db < s.count, build.Begun db → Unaltered s t db)
    (hFaithful : ∀ snapshot, faithful snapshot → faithful' snapshot) :
    BuildSound codec clean faithful' t (build.follow s t) := by
  have hCount := hGrows.count
  have hClock := hGrows.writeClock
  cases build with
  | idle | renamed => trivial
  | recorded snapshot => exact ⟨h.1, h.2.1, hFaithful _ h.2.2⟩
  | queued databases queue =>
    obtain ⟨hLength, hQueue, hAll⟩ := h
    exact ⟨hLength.trans hCount.symm, hQueue,
      hAll.unaltered hClock fun db hDb => hUnaltered db (hLength ▸ hDb) trivial⟩
  | dumping done current =>
    obtain ⟨hLength, hAll, hWalks⟩ := h
    cases current with
    | none =>
      exact ⟨hCount ▸ hLength, hAll.unaltered hClock fun db hDb =>
        hUnaltered db (hDb.trans_le hLength) hDb, nofun⟩
    | some dump =>
      obtain ⟨hDb, hWalk⟩ := hWalks dump rfl
      refine ⟨hCount ▸ hLength, hAll.unaltered hClock fun db hDone =>
        hUnaltered db (hDone.trans_le hLength) hDone.le, ?_⟩
      rintro _ ⟨⟩
      exact ⟨hCount ▸ hDb, hWalk.follow hClock (hUnaltered _ hDb le_rfl)⟩

theorem ReflectsAll.concat {databases : List (List (Bytes × Entry))}
    {entries : List (Bytes × Entry)} {s : State Vm} (h : ReflectsAll databases s)
    (hLast : Reflects entries s databases.length) :
    ReflectsAll (databases ++ [entries]) s := by
  intro db found hFound
  rw [List.getElem?_append] at hFound
  split at hFound
  · exact h db found hFound
  next hDb =>
    obtain ⟨hIndex, rfl⟩ := List.getElem?_eq_some_iff.mp hFound
    have hEq : db = databases.length := by
      rw [List.length_singleton] at hIndex
      omega
    subst hEq
    simpa using hLast

namespace NodeSound

variable {lua : LuaMachine Vm} {start : State Vm} {origin : Option LogId} {node next : Node Vm}

section

variable (h : NodeSound codec clean lua start origin node)

include h

/-- A step of the build that leaves the cache and the file alone. -/
theorem setBuild (state : SnapshotState) {build : Build}
    (hBuild : BuildSound codec clean (Faithful lua start origin node.log) node.cache build) :
    NodeSound codec clean lua start origin { node.setSnapshotState state with build := build } where
  applies := h.applies
  lastApplied := h.lastApplied
  queue := h.queue
  build := hBuild
  file := h.file

theorem advance (hNext : node.Advanced codec next)
    (hFits : ∀ snapshot, next.build = .recorded snapshot → FitsHeader codec snapshot.recorded) :
    NodeSound codec clean lua start origin next := by
  have hBuild := h.build
  cases hNext with
  | start => exact h.setBuild _ ⟨Nat.zero_le _, nofun, nofun⟩
  | openDatabase hBefore hDb =>
    rw [hBefore] at hBuild
    refine h.setBuild node.raftMeta.snapshotState ⟨hBuild.1, hBuild.2.1, ?_⟩
    rintro _ ⟨⟩
    exact ⟨hDb, .begin node.cache _⟩
  | visit hBefore hEntry hKey =>
    rw [hBefore] at hBuild
    obtain ⟨hDb, hWalk⟩ := hBuild.2.2 _ rfl
    refine h.setBuild node.raftMeta.snapshotState ⟨hBuild.1, hBuild.2.1, ?_⟩
    rintro _ ⟨⟩
    exact ⟨hDb, hWalk.visit hKey hEntry⟩
  | closeDatabase hBefore hPending =>
    rw [hBefore] at hBuild
    obtain ⟨hDb, hWalk⟩ := hBuild.2.2 _ rfl
    refine h.setBuild node.raftMeta.snapshotState
      ⟨?_, hBuild.2.1.concat (hWalk.reflects hPending), nofun⟩
    rw [List.length_append]
    exact hDb
  | writeQueue hBefore hAll =>
    rw [hBefore] at hBuild
    exact h.setBuild node.raftMeta.snapshotState ⟨hAll, h.queue, hBuild.2.1⟩
  | tail hBefore =>
    rw [hBefore] at hBuild
    obtain ⟨hLength, hQueue, hAll⟩ := hBuild
    -- what is recorded belongs to the log applied up to now
    exact h.setBuild _ ⟨hFits _ rfl, hQueue, node.log, [], node.cache,
      (List.append_nil node.log).symm, h.applies, h.lastApplied, rfl, hLength, hAll⟩
  | rename hBefore hFile =>
    rw [hBefore] at hBuild
    have hRenamed : BuildSound codec clean (Faithful lua start origin node.log) node.cache
        .renamed := trivial
    refine { h.setBuild node.raftMeta.snapshotState hRenamed with file := ?_ }
    rintro _ ⟨⟩
    exact ⟨_, hFile, hBuild⟩
  | finish => exact h.setBuild _ trivial
  | fail => exact h.setBuild node.raftMeta.snapshotState trivial

/-- A change of the cache, with the entries that made it if there are any. -/
theorem setCache {entries : List LogEntry} {cache : State Vm}
    (hSteady : Steady codec node (node.applied entries cache))
    (hApplies : Applies lua start (node.log ++ entries) cache) (hGrows : Grows node.cache cache)
    (hQueue : clean cache.queue) :
    NodeSound codec clean lua start origin (node.applied entries cache) where
  applies := hApplies
  lastApplied := by
    change (entries.foldl RaftMetaData.apply node.raftMeta).lastAppliedLogId = _
    rw [lastAppliedLogId_foldl, h.lastApplied]
    exact (lastLogId_append ..).symm
  queue := hQueue
  build := h.build.follow hGrows hSteady.unaltered fun _ hFaithful => hFaithful.append entries
  file file hFile := by
    obtain ⟨snapshot, hDump, hFits, hClean, hFaithful⟩ := h.file file hFile
    exact ⟨snapshot, hDump, hFits, hClean, hFaithful.append entries⟩

theorem step (hStep : Step lua codec node next) (hSteady : Steady codec node next)
    (hQueue : clean next.cache.queue) : NodeSound codec clean lua start origin next := by
  cases hStep with
  | apply hRun => exact h.setCache hSteady (h.applies.batch hRun) (runs_grows hRun) hQueue
  | @disturb cache hDisturb =>
    have hNoEntries : node.setCache cache = node.applied [] cache := by
      simp [Node.applied, Node.setCache]
    rw [hNoEntries] at hSteady ⊢
    refine h.setCache hSteady ?_ (disturbs_grows hDisturb).1 hQueue
    rw [List.append_nil]
    exact h.applies.disturb hDisturb
  | build event hNext => exact h.advance (Node.advanced_of_advance hNext) hSteady.fits

end

theorem idle (lua : LuaMachine Vm) (start : State Vm) (origin : Option LogId)
    (membership : StoredMembership) (hQueue : clean start.queue) :
    NodeSound codec clean lua start origin (.idle start origin membership) where
  applies := .refl start
  lastApplied := rfl
  queue := hQueue
  build := trivial
  file _ hFile := by cases hFile

theorem run (h : NodeSound codec clean lua start origin node)
    (hRun : Relation.ReflTransGen (fun node next => Step lua codec node next ∧
      Steady codec node next ∧ (clean node.cache.queue → clean next.cache.queue)) node next) :
    NodeSound codec clean lua start origin next := by
  induction hRun with
  | refl => exact h
  | tail _ hLast ih =>
    obtain ⟨hStep, hSteady, hQueue⟩ := hLast
    exact ih.step hStep hSteady (hQueue ih.queue)

end NodeSound

end CacheCat.StateMachine
