import CacheCat.StateMachine.SnapshotFile

/-! A node that builds snapshots while it applies the log. The build runs beside
`apply`: it marks the start, walks over one database after the other, writes the
queue, and then records under the lock of the metadata up to which entry the node
has applied. -/
namespace CacheCat.StateMachine

open Cache
open Mocha (Table)

inductive SnapshotState where
  | ended
  | start
  | tail
deriving DecidableEq

structure RaftMetaData where
  snapshotState : SnapshotState
  lastAppliedLogId : Option LogId
  lastMembership : StoredMembership
deriving DecidableEq

/-- What `apply` notes of an entry. -/
def RaftMetaData.apply (raftMeta : RaftMetaData) (entry : LogEntry) : RaftMetaData :=
  { raftMeta with
    lastAppliedLogId := some entry.logId
    lastMembership := match entry.payload with
      | .membership members => ⟨some entry.logId, members⟩
      | _ => raftMeta.lastMembership }

/-- The walk over one database. `now` is the write clock at its beginning. The
iterator of the concurrent map visits no key twice, and it may miss keys that
come, go or change during the walk; `pending` are those it still has to visit. -/
structure DatabaseDump where
  now : Nat
  written : List (Bytes × Entry)
  visited : Finset Bytes
  pending : Finset Bytes

namespace DatabaseDump

def begin (writeClock : Nat) (map : Table Bytes MyValue) : DatabaseDump :=
  ⟨writeClock, [], ∅, map.keys⟩

/-- An entry that had expired when the walk began is skipped. -/
def visit (dump : DatabaseDump) (key : Bytes) (entry : Entry) : DatabaseDump :=
  { dump with
    written := if entry.expired dump.now then dump.written else dump.written ++ [(key, entry)]
    visited := insert key dump.visited
    pending := dump.pending.erase key }

/-- The map has changed under the iterator. -/
def follow (dump : DatabaseDump) (before after : Table Bytes MyValue) : DatabaseDump :=
  { dump with pending := dump.pending.filter fun key => after.lookup key = before.lookup key }

end DatabaseDump

/-- Where `build_snapshot` stands. -/
inductive Build where
  | idle
  | dumping (done : List (List (Bytes × Entry))) (current : Option DatabaseDump)
  | queued (databases : List (List (Bytes × Entry))) (queue : List AtomicRequest)
  | recorded (snapshot : Snapshot)
  | renamed

namespace Build

/-- The databases whose walk has begun. -/
def Begun : Build → Nat → Prop
  | dumping done none, db => db < done.length
  | dumping done (some _), db => db ≤ done.length
  | queued .., _ => True
  | _, _ => False

instance (build : Build) (db : Nat) : Decidable (build.Begun db) :=
  match build with
  | idle => inferInstanceAs (Decidable False)
  | dumping done none => inferInstanceAs (Decidable (db < done.length))
  | dumping done (some _) => inferInstanceAs (Decidable (db ≤ done.length))
  | queued .. => inferInstanceAs (Decidable True)
  | recorded _ => inferInstanceAs (Decidable False)
  | renamed => inferInstanceAs (Decidable False)

def follow {Vm : Type} (before after : State Vm) : Build → Build
  | dumping done (some dump) =>
    dumping done (some (dump.follow (before.databases done.length) (after.databases done.length)))
  | build => build

end Build

/-- A node. `log` is what it has applied, kept for the statements only. -/
structure Node (Vm : Type) where
  cache : State Vm
  raftMeta : RaftMetaData
  build : Build
  snapshotBin : Option Bytes
  log : List LogEntry

inductive BuildEvent where
  | start
  | openDatabase
  | visit (key : Bytes)
  | closeDatabase
  | writeQueue
  | tail
  | rename
  | finish
  /-- An error is returned on the way. -/
  | fail
deriving DecidableEq

namespace Node

variable {Vm : Type}

/-- A node before its first build. -/
def idle (cache : State Vm) (lastAppliedLogId : Option LogId) (lastMembership : StoredMembership) :
    Node Vm :=
  ⟨cache, ⟨.ended, lastAppliedLogId, lastMembership⟩, .idle, none, []⟩

/-- `StateMachineStore::new`, after the load of the file it has found. -/
def opened (cache : State Vm) (found : Option SnapshotMeta) (snapshotBin : Option Bytes) :
    Node Vm where
  cache := cache
  raftMeta := match found with
    | none => ⟨.ended, none, ⟨none, ⟨[], []⟩⟩⟩
    | some snapshotMeta => ⟨.ended, snapshotMeta.lastLogId, snapshotMeta.lastMembership⟩
  build := .idle
  snapshotBin := snapshotBin
  log := []

def setCache (node : Node Vm) (cache : State Vm) : Node Vm :=
  { node with cache := cache, build := node.build.follow node.cache cache }

/-- The batch that `apply` makes of the entries: it looks the snapshot state up once. -/
def batch (node : Node Vm) (entries : List LogEntry) : Batch :=
  ⟨node.raftMeta.snapshotState = .start, entries⟩

def applied (node : Node Vm) (entries : List LogEntry) (cache : State Vm) : Node Vm :=
  { node.setCache cache with
    raftMeta := entries.foldl RaftMetaData.apply node.raftMeta
    log := node.log ++ entries }

def setSnapshotState (node : Node Vm) (state : SnapshotState) : Node Vm :=
  { node with raftMeta := { node.raftMeta with snapshotState := state } }

/-- What `dump_cache_to_path` records under the lock of the metadata. -/
def record (node : Node Vm) : CacheCatSnapshotMeta :=
  ⟨⟨node.raftMeta.lastAppliedLogId, node.raftMeta.lastMembership⟩, node.cache.writeClock⟩

/-- One atomic step of `build_snapshot`. Each step but the first finds the build
where the step before has left it. -/
def advance (codec : SnapshotCodec) (node : Node Vm) : BuildEvent → Option (Node Vm)
  | .start =>
    match node.build with
    | .idle => some { node.setSnapshotState .start with build := .dumping [] none }
    | _ => none
  | .openDatabase =>
    match node.build with
    | .dumping done none =>
      if done.length < node.cache.count then
        let dump := .begin node.cache.writeClock (node.cache.databases done.length)
        some { node with build := .dumping done (some dump) }
      else none
    | _ => none
  | .visit key =>
    match node.build with
    | .dumping done (some dump) =>
      match (node.cache.databases done.length).lookup key with
      | some entry =>
        if key ∈ dump.visited then none
        else some { node with build := .dumping done (some (dump.visit key entry)) }
      | none => none
    | _ => none
  | .closeDatabase =>
    match node.build with
    | .dumping done (some dump) =>
      if dump.pending = ∅ then
        some { node with build := .dumping (done ++ [dump.written]) none }
      else none
    | _ => none
  | .writeQueue =>
    match node.build with
    | .dumping done none =>
      if done.length = node.cache.count then
        some { node with build := .queued done node.cache.queue }
      else none
    | _ => none
  | .tail =>
    match node.build with
    | .queued databases queue =>
      some { node.setSnapshotState .tail with
        build := .recorded ⟨databases, queue, node.record⟩ }
    | _ => none
  | .rename =>
    match node.build with
    | .recorded snapshot =>
      (dumpFile codec snapshot).map fun file =>
        { node with build := .renamed, snapshotBin := some file }
    | _ => none
  | .finish =>
    match node.build with
    | .renamed => some { node.setSnapshotState .ended with build := .idle }
    | _ => none
  | .fail =>
    match node.build with
    | .idle => none
    | .renamed => none
    | _ => some { node with build := .idle }

/-- What a step of the build finds and leaves. -/
inductive Advanced (codec : SnapshotCodec) (node : Node Vm) : Node Vm → Prop
  | start (hBuild : node.build = .idle) :
      Advanced codec node { node.setSnapshotState .start with build := .dumping [] none }
  | openDatabase {done : List (List (Bytes × Entry))} (hBuild : node.build = .dumping done none)
      (hDb : done.length < node.cache.count) :
      Advanced codec node { node with
        build := .dumping done
          (some (.begin node.cache.writeClock (node.cache.databases done.length))) }
  | visit {done : List (List (Bytes × Entry))} {dump : DatabaseDump} {key : Bytes} {entry : Entry}
      (hBuild : node.build = .dumping done (some dump))
      (hEntry : (node.cache.databases done.length).lookup key = some entry)
      (hKey : key ∉ dump.visited) :
      Advanced codec node { node with build := .dumping done (some (dump.visit key entry)) }
  | closeDatabase {done : List (List (Bytes × Entry))} {dump : DatabaseDump}
      (hBuild : node.build = .dumping done (some dump)) (hPending : dump.pending = ∅) :
      Advanced codec node { node with build := .dumping (done ++ [dump.written]) none }
  | writeQueue {done : List (List (Bytes × Entry))} (hBuild : node.build = .dumping done none)
      (hAll : done.length = node.cache.count) :
      Advanced codec node { node with build := .queued done node.cache.queue }
  | tail {databases : List (List (Bytes × Entry))} {queue : List AtomicRequest}
      (hBuild : node.build = .queued databases queue) :
      Advanced codec node { node.setSnapshotState .tail with
        build := .recorded ⟨databases, queue, node.record⟩ }
  | rename {snapshot : Snapshot} {file : Bytes} (hBuild : node.build = .recorded snapshot)
      (hFile : dumpFile codec snapshot = some file) :
      Advanced codec node { node with build := .renamed, snapshotBin := some file }
  | finish (hBuild : node.build = .renamed) :
      Advanced codec node { node.setSnapshotState .ended with build := .idle }
  | fail (hRenamed : node.build ≠ .renamed) : Advanced codec node { node with build := .idle }

theorem advanced_of_advance {codec : SnapshotCodec} {node next : Node Vm} {event : BuildEvent}
    (h : node.advance codec event = some next) : node.Advanced codec next := by
  cases event with
  | visit key =>
    simp only [advance] at h
    split at h
    next done dump hBuild =>
      split at h
      next entry hEntry =>
        rw [Option.ite_none_left_eq_some] at h
        obtain ⟨hKey, h⟩ := h
        cases h
        exact .visit hBuild hEntry hKey
      · cases h
    · cases h
  | rename =>
    simp only [advance] at h
    split at h
    next snapshot hBuild =>
      obtain ⟨file, hFile, rfl⟩ := Option.map_eq_some_iff.mp h
      exact .rename hBuild hFile
    · cases h
  | fail =>
    simp only [advance] at h
    split at h
    · cases h
    · cases h
    next hRenamed =>
      cases h
      exact .fail hRenamed
  | start | tail | finish =>
    simp only [advance] at h
    split at h
    next hBuild =>
      cases h
      first | exact .start hBuild | exact .tail hBuild | exact .finish hBuild
    · cases h
  | openDatabase | closeDatabase | writeQueue =>
    simp only [advance] at h
    split at h
    next hBuild =>
      rw [Option.ite_none_right_eq_some] at h
      obtain ⟨hGuard, h⟩ := h
      cases h
      first
        | exact .openDatabase hBuild hGuard
        | exact .closeDatabase hBuild hGuard
        | exact .writeQueue hBuild hGuard
    · cases h

end Node

/-- One step of a node: a batch of entries is applied, another thread disturbs the
cache, or the build goes on. -/
inductive Step {Vm : Type} (lua : LuaMachine Vm) (codec : SnapshotCodec) :
    Node Vm → Node Vm → Prop
  | apply {node : Node Vm} {entries : List LogEntry} {cache : State Vm} {responses : List Value}
      (hRun : (machine lua).Runs node.cache (applyBatch (node.batch entries)) cache responses) :
      Step lua codec node (node.applied entries cache)
  | disturb {node : Node Vm} {cache : State Vm} (hDisturb : Disturbs node.cache cache) :
      Step lua codec node (node.setCache cache)
  | build {node next : Node Vm} (event : BuildEvent)
      (hNext : node.advance codec event = some next) : Step lua codec node next

/-! ### Undisturbed runs in fixed surroundings -/

inductive NodeEvent where
  | apply (entries : List LogEntry)
  | build (event : BuildEvent)

def Node.perform {Vm : Type} (lua : LuaMachine Vm) (env : Env) (fuel : Nat) (codec : SnapshotCodec)
    (node : Node Vm) : NodeEvent → Option (Node Vm)
  | .apply entries =>
    (execute lua env fuel node.cache (applyBatch (node.batch entries))).map fun after =>
      node.applied entries after.1
  | .build event => node.advance codec event

theorem step_of_perform {Vm : Type} {lua : LuaMachine Vm} {env : Env} {fuel : Nat}
    {codec : SnapshotCodec} {node next : Node Vm} {event : NodeEvent}
    (h : node.perform lua env fuel codec event = some next) : Step lua codec node next := by
  cases event with
  | apply entries =>
    obtain ⟨after, hRun, rfl⟩ := Option.map_eq_some_iff.mp h
    exact .apply (runs_of_execute hRun)
  | build event => exact .build event h

end CacheCat.StateMachine
