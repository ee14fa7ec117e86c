import CacheCat.StateMachine.Restore

/-! A follower across restarts: the files in its snapshot directory, the snapshots
it installs, and the log entries it gives up. A received file keeps the name under
which it came in, and a restart opens another one, which only the follower's own
builds write. -/
namespace CacheCat.StateMachine

open Cache

variable {Vm : Type}

/-- `saved` is what the build recorded that has made `snapshot.bin`; it is kept for
the statements only. -/
structure Follower (Vm : Type) where
  node : Node Vm
  /-- `snapshot/hardlink_snapshot_{uuid}.tmp`. -/
  received : Nat → Option Bytes
  /-- The log entries up to this one are gone. -/
  purged : Option LogId
  saved : Option LogId

/-- How far an id is in the log. -/
def position : Option LogId → Nat
  | none => 0
  | some id => id.index + 1

/-- `update_meta_data` at the end of `install_snapshot`. -/
def Node.installed (node : Node Vm) (cache : State Vm) (snapshotMeta : SnapshotMeta) : Node Vm :=
  { node.setCache cache with
    raftMeta :=
      { node.raftMeta with
        lastAppliedLogId := snapshotMeta.lastLogId
        lastMembership := snapshotMeta.lastMembership } }

namespace Follower

def fresh (count : Nat) (vm : Vm) : Follower Vm where
  node := .idle (.new count vm) none ⟨none, ⟨[], []⟩⟩
  received _ := none
  purged := none
  saved := none

def setNode (follower : Follower Vm) (node : Node Vm) : Follower Vm :=
  { follower with
    node := node
    saved := match follower.node.build, node.build with
      | .recorded snapshot, .renamed => snapshot.recorded.snapshotMeta.lastLogId
      | _, _ => follower.saved }

end Follower

inductive FollowerStep (lua : LuaMachine Vm) (codec : SnapshotCodec) :
    Follower Vm → Follower Vm → Prop
  | node {follower : Follower Vm} {next : Node Vm} (hStep : Step lua codec follower.node next) :
      FollowerStep lua codec follower (follower.setNode next)
  /-- `stream_mode` has stored a file. -/
  | receive {follower : Follower Vm} (uuid : Nat) (file : Bytes) :
      FollowerStep lua codec follower
        { follower with received := Function.update follower.received uuid (some file) }
  | install {follower : Follower Vm} {uuid : Nat} {cache : State Vm} {snapshotMeta : SnapshotMeta}
      (hRun : (machine lua).Runs follower.node.cache
        (installSnapshot codec (follower.received uuid)) cache (.ok snapshotMeta)) :
      FollowerStep lua codec follower
        { follower with node := follower.node.installed cache snapshotMeta }
  /-- What a load that fails has put into the cache stays there. -/
  | installFails {follower : Follower Vm} {uuid : Nat} {cache : State Vm} {error : LoadError}
      (hRun : (machine lua).Runs follower.node.cache
        (installSnapshot codec (follower.received uuid)) cache (.error error)) :
      FollowerStep lua codec follower { follower with node := follower.node.setCache cache }
  /-- Only entries that have been applied are given up. -/
  | purge {follower : Follower Vm} (id : LogId)
      (hApplied : position (some id) ≤ position follower.node.raftMeta.lastAppliedLogId) :
      FollowerStep lua codec follower { follower with purged := some id }
  | restart {follower : Follower Vm} (vm : Vm) {cache : State Vm} {found : Option SnapshotMeta}
      (hRun : (machine lua).Runs (.new follower.node.cache.count vm)
        (loadAtStart codec follower.node.snapshotBin) cache (.ok found)) :
      FollowerStep lua codec follower
        { follower with node := .opened cache found follower.node.snapshotBin }

/-! ### What `snapshot.bin` holds -/

section

variable (codec : SnapshotCodec) (count : Nat)

def BuildSized : Build → Prop
  | .queued databases _ => databases.length = count
  | .recorded snapshot =>
    snapshot.databases.length = count ∧ FitsHeader codec snapshot.recorded
  | _ => True

/-- The file is there exactly if a build has been completed, and it is complete. -/
def FileSound (snapshotBin : Option Bytes) (saved : Option LogId) : Prop :=
  match snapshotBin with
  | none => saved = none
  | some file => ∃ snapshot, dumpFile codec snapshot = some file ∧
      FitsHeader codec snapshot.recorded ∧ snapshot.databases.length = count ∧
      saved = snapshot.recorded.snapshotMeta.lastLogId

structure FollowerSound (follower : Follower Vm) : Prop where
  sameCount : follower.node.cache.count = count
  build : BuildSized codec count follower.node.build
  file : FileSound codec count follower.node.snapshotBin follower.saved

end

variable {lua : LuaMachine Vm} {codec : SnapshotCodec} {count : Nat} {follower next : Follower Vm}

theorem buildSized_follow {build : Build} (h : BuildSized codec count build) (s t : State Vm) :
    BuildSized codec count (build.follow s t) := by
  cases build with
  | dumping done current => cases current <;> trivial
  | _ => exact h

theorem saved_setNode_of_ne {node : Node Vm} (h : node.build ≠ .renamed) :
    (follower.setNode node).saved = follower.saved := by
  unfold Follower.setNode
  split
  next hAfter => exact absurd hAfter h
  · rfl

theorem saved_setNode_of_follow {node : Node Vm} {s t : State Vm}
    (h : node.build = follower.node.build.follow s t) :
    (follower.setNode node).saved = follower.saved := by
  unfold Follower.setNode
  rw [h]
  cases follower.node.build with
  | dumping done current => cases current <;> rfl
  | _ => rfl

namespace FollowerSound

section

variable (h : FollowerSound codec count follower)

include h

/-- A step that keeps `snapshot.bin` and what is known of it. -/
theorem keepFile (hCount : next.node.cache.count = follower.node.cache.count)
    (hBuild : BuildSized codec count next.node.build)
    (hFile : next.node.snapshotBin = follower.node.snapshotBin)
    (hSaved : next.saved = follower.saved) : FollowerSound codec count next where
  sameCount := hCount.trans h.sameCount
  build := hBuild
  file := by
    rw [hFile, hSaved]
    exact h.file

theorem advance {node : Node Vm} (hNext : follower.node.Advanced codec node)
    (hFits : ∀ snapshot, node.build = .recorded snapshot → FitsHeader codec snapshot.recorded) :
    FollowerSound codec count (follower.setNode node) := by
  have hBuild := h.build
  cases hNext with
  | writeQueue hBefore hAll =>
    exact h.keepFile rfl (hAll.trans h.sameCount) rfl (saved_setNode_of_ne nofun)
  | tail hBefore =>
    rw [hBefore] at hBuild
    exact h.keepFile rfl ⟨hBuild, hFits _ rfl⟩ rfl (saved_setNode_of_ne nofun)
  | @rename snapshot file hBefore hFile =>
    rw [hBefore] at hBuild
    refine ⟨h.sameCount, trivial, snapshot, hFile, hBuild.2, hBuild.1, ?_⟩
    rw [Follower.setNode, hBefore]
  | _ => exact h.keepFile rfl trivial rfl (saved_setNode_of_ne nofun)

theorem step (hStep : FollowerStep lua codec follower next)
    (hFits : ∀ snapshot, next.node.build = .recorded snapshot →
      FitsHeader codec snapshot.recorded) :
    FollowerSound codec count next := by
  cases hStep with
  | node hStep =>
    cases hStep with
    | apply hRun =>
      exact h.keepFile (runs_grows hRun).count (buildSized_follow h.build _ _) rfl
        (saved_setNode_of_follow rfl)
    | disturb hDisturb =>
      exact h.keepFile (disturbs_grows hDisturb).1.count (buildSized_follow h.build _ _) rfl
        (saved_setNode_of_follow rfl)
    | build event hNext => exact h.advance (Node.advanced_of_advance hNext) hFits
  | receive uuid file | purge id hApplied => exact h.keepFile rfl h.build rfl rfl
  | install hRun | installFails hRun =>
    exact h.keepFile (runs_grows hRun).count (buildSized_follow h.build _ _) rfl rfl
  | restart vm hRun => exact h.keepFile (runs_grows hRun).count trivial rfl rfl

theorem run
    (hRun : Relation.ReflTransGen (fun follower next => FollowerStep lua codec follower next ∧
      ∀ snapshot, next.node.build = .recorded snapshot →
      FitsHeader codec snapshot.recorded) follower next) :
    FollowerSound codec count next := by
  induction hRun with
  | refl => exact h
  | tail _ hLast ih => exact ih.step hLast.1 hLast.2

end

theorem fresh (codec : SnapshotCodec) (count : Nat) (vm : Vm) :
    FollowerSound codec count (.fresh count vm) := ⟨rfl, trivial, rfl⟩

end FollowerSound

/-! ### Restarts -/

/-- A restart succeeds and reports what the last completed build has recorded. -/
theorem FollowerSound.restart (h : FollowerSound codec count follower) (hShort : count < 2 ^ 16)
    (lua : LuaMachine Vm) (vm : Vm) :
    (∃ cache found, (machine lua).Runs (.new follower.node.cache.count vm)
      (loadAtStart codec follower.node.snapshotBin) cache (.ok found)) ∧
    ∀ cache result, (machine lua).Runs (.new follower.node.cache.count vm)
      (loadAtStart codec follower.node.snapshotBin) cache result →
        ∃ found, result = .ok found ∧
          (Node.opened cache found follower.node.snapshotBin).raftMeta.lastAppliedLogId =
            follower.saved := by
  have hFile := h.file
  rw [h.sameCount]
  have hReads : ∃ found : Option SnapshotMeta, found.bind (·.lastLogId) = follower.saved ∧
      (loadReply (readFile codec count follower.node.snapshotBin).2).map (·.map Prod.fst) =
        .ok found := by
    cases hBin : follower.node.snapshotBin with
    | none =>
      rw [hBin] at hFile
      exact ⟨none, hFile.symm, rfl⟩
    | some file =>
      rw [hBin] at hFile
      obtain ⟨snapshot, hDump, hFits, hLength, hSaved⟩ := hFile
      refine ⟨some snapshot.recorded.snapshotMeta, hSaved.symm, ?_⟩
      rw [readFile_dumpFile hDump hFits (hLength ▸ hShort.trans (by decide)) hLength.le]
      rfl
  obtain ⟨found, hSaved, hReply⟩ := hReads
  obtain ⟨⟨first, reply, hFirst⟩, hEvery⟩ :=
    everyRun_loadAtStart lua codec (State.new count vm) follower.node.snapshotBin
  refine ⟨⟨first, found, ?_⟩,
    fun cache result hRun => ⟨found, (hEvery cache result hRun).2.trans hReply, ?_⟩⟩
  · rwa [(hEvery first reply hFirst).2.trans hReply] at hFirst
  · rw [← hSaved]
    cases found <;> rfl

/-- `StateMachineStore::new` succeeds, and reports at least the entries that are gone. -/
def RecoversPurged (lua : LuaMachine Vm) (codec : SnapshotCodec) (vm : Vm)
    (follower : Follower Vm) : Prop :=
  (∃ cache found, (machine lua).Runs (.new follower.node.cache.count vm)
    (loadAtStart codec follower.node.snapshotBin) cache (.ok found)) ∧
  ∀ cache result, (machine lua).Runs (.new follower.node.cache.count vm)
    (loadAtStart codec follower.node.snapshotBin) cache result →
      ∃ found, result = .ok found ∧ position follower.purged ≤
        position (Node.opened cache found follower.node.snapshotBin).raftMeta.lastAppliedLogId

/-- Durability. In every run of receiving, installing with or without success, applying,
building, purging and restarting, whose builds record metadata that fits into the header area, a
restart recovers at least what has been purged exactly if the last build that the follower
has completed itself recorded as much. -/
theorem recoversPurged_iff (lua : LuaMachine Vm) (codec : SnapshotCodec) {count : Nat} {vm₀ : Vm}
    (hCount : count < 2 ^ 16) {follower : Follower Vm}
    (hRun : Relation.ReflTransGen (fun follower next => FollowerStep lua codec follower next ∧
      ∀ snapshot, next.node.build = .recorded snapshot → FitsHeader codec snapshot.recorded)
      (.fresh count vm₀) follower) (vm : Vm) :
    RecoversPurged lua codec vm follower ↔ position follower.purged ≤ position follower.saved := by
  have hSound := (FollowerSound.fresh codec count vm₀).run hRun
  obtain ⟨⟨cache, found, hFirst⟩, hEvery⟩ := hSound.restart hCount lua vm
  constructor
  · rintro ⟨_, hRecovers⟩
    obtain ⟨reported, hOk, hSaved⟩ := hEvery cache _ hFirst
    obtain ⟨reported', hOk', hPurged⟩ := hRecovers cache _ hFirst
    cases hOk
    cases hOk'
    rwa [hSaved] at hPurged
  · intro hPurged
    refine ⟨⟨cache, found, hFirst⟩, fun cache result hRestart => ?_⟩
    obtain ⟨reported, hOk, hSaved⟩ := hEvery cache result hRestart
    exact ⟨reported, hOk, hSaved ▸ hPurged⟩

/-- A build on a node that has applied two INCR. -/
def twoIncrBuilt : List NodeEvent :=
  .apply [incrEntry 1 5 0, incrEntry 2 6 0] :: .build .start :: walk [bytes "n"] ++ afterWalks

/-- A step of a follower's node, if it is steady. -/
def steadyFollowerStep (follower : Follower Unit) (event : NodeEvent) : Option (Follower Unit) :=
  (steadyCounterStep follower.node event).map follower.setNode

/-- A follower that builds a snapshot itself and then gives up the entries in it. -/
theorem recoversPurged_iff_built :
    ∃ follower, Library.run steadyFollowerStep (.fresh 1 ()) twoIncrBuilt = some follower ∧
      RecoversPurged .none counterCodec () { follower with purged := some ⟨1, 1, 2⟩ } := by
  have hRun : (Library.run steadyFollowerStep (.fresh 1 ()) twoIncrBuilt).map (fun follower =>
      (follower.saved, follower.node.raftMeta.lastAppliedLogId)) =
      some (some ⟨1, 1, 2⟩, some ⟨1, 1, 2⟩) := by
    decide +kernel
  obtain ⟨follower, hRun, hIds⟩ := Option.map_eq_some_iff.mp hRun
  obtain ⟨hSaved, hApplied⟩ := Prod.mk.inj hIds
  have hPath : Relation.ReflTransGen
      (fun follower next => FollowerStep .none counterCodec follower next ∧
      ∀ snapshot, next.node.build = .recorded snapshot → FitsHeader counterCodec snapshot.recorded)
      (.fresh 1 ()) follower := by
    refine Library.reflTransGen_of_run (fun follower event next hNext => ?_) hRun
    obtain ⟨node, hNode, rfl⟩ := Option.map_eq_some_iff.mp hNext
    obtain ⟨hStep, hSteady⟩ := steadyCounterStep_step hNode
    exact ⟨.node hStep, hSteady.fits⟩
  have hFits : ∀ snapshot, follower.node.build = .recorded snapshot →
      FitsHeader counterCodec snapshot.recorded := by
    rcases hPath.cases_tail with rfl | ⟨_, _, _, hFits⟩
    · exact nofun
    · exact hFits
  have hPurged := hPath.tail ⟨.purge ⟨1, 1, 2⟩ (by rw [hApplied]), hFits⟩
  refine ⟨follower, hRun, (recoversPurged_iff .none counterCodec (by decide) hPurged ()).mpr ?_⟩
  rw [hSaved]

/-- A follower installs a file and gives up the entries in it. Its `snapshot.bin`
does not exist, so that after a restart it has applied nothing. -/
theorem installed_lost_at_restart :
    ∃ leader file installed snapshotMeta follower cache found,
      Library.run counterStep (freshNode 1) twoIncrBuilt = some leader ∧
      leader.snapshotBin = some file ∧
      (machine .none).Runs (.new 1 ()) (installSnapshot counterCodec (some file)) installed
        (.ok snapshotMeta) ∧
      snapshotMeta.lastLogId = some ⟨1, 1, 2⟩ ∧
      Relation.ReflTransGen (FollowerStep .none counterCodec) (.fresh 1 ()) follower ∧
      follower.node.cache = installed ∧ follower.purged = some ⟨1, 1, 2⟩ ∧
      (machine .none).Runs (.new 1 ()) (loadAtStart counterCodec follower.node.snapshotBin) cache
        (.ok found) ∧
      (Node.opened cache found follower.node.snapshotBin).raftMeta.lastAppliedLogId = none := by
  have hLeader : (do
      let leader ← Library.run counterStep (freshNode 1) twoIncrBuilt
      let file ← leader.snapshotBin
      let after ← execute .none .quiet 100 (.new 1 ()) (installSnapshot counterCodec (some file))
      let snapshotMeta ← after.2.toOption
      snapshotMeta.lastLogId) = some ⟨1, 1, 2⟩ := by
    decide +kernel
  simp only [Option.bind_eq_bind, Option.bind_eq_some_iff] at hLeader
  obtain ⟨leader, hLeader, file, hFile, ⟨installed, result⟩, hInstall, snapshotMeta,
      hResult, hId⟩ :=
    hLeader
  obtain rfl := eq_ok_of_toOption hResult
  obtain ⟨⟨cache, reply, hRestart⟩, hEvery⟩ :=
    everyRun_loadAtStart .none counterCodec (State.new 1 ()) none
  obtain ⟨-, rfl⟩ := hEvery cache reply hRestart
  let start : Follower Unit := .fresh 1 ()
  let received : Follower Unit :=
    { start with received := Function.update start.received 0 (some file) }
  have hReceived : (machine .none).Runs received.node.cache
      (installSnapshot counterCodec (received.received 0)) installed (.ok snapshotMeta) := by
    exact runs_of_execute hInstall
  have hPath : Relation.ReflTransGen (FollowerStep .none counterCodec) start
      { received with
        node := received.node.installed installed snapshotMeta
        purged := some ⟨1, 1, 2⟩ } := by
    refine ((Relation.ReflTransGen.single (.receive 0 file)).tail (.install hReceived)).tail
      (.purge ⟨1, 1, 2⟩ ?_)
    simp only [Node.installed, hId, le_refl]
  exact ⟨leader, file, installed, snapshotMeta, _, cache, none, hLeader, hFile,
    runs_of_execute hInstall, hId, hPath, rfl, rfl, hRestart, rfl⟩

end CacheCat.StateMachine
