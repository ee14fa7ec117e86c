import CacheCat.StateMachine.Durability

/-! Loads that fail. They leave the entries in front of the failure. -/
namespace CacheCat.StateMachine

open Cache
open Library (Machine bigEndian)

/-- What is visible under a key when these inserts have been made in empty databases. -/
def shown (clock : Nat) (inserts : List (Nat × Bytes × Entry)) (db : Nat) (key : Bytes) :
    Option (ValueObject × Option Nat) :=
  ((lastInsert inserts db key).filter fun entry => !entry.expired clock).map Entry.view

/-! ### Nodes after a failed load -/

section

variable {Vm : Type} (lua : LuaMachine Vm) (codec : SnapshotCodec)

/-- A load that does not succeed leaves what is visible and the write clock, and does
not panic. -/
def FailedLoadHarmless (s : State Vm) (file : Option Bytes) : Prop :=
  ∀ t result, (machine lua).Runs s (loadCacheFromPath codec file) t result →
    (∀ found, result ≠ .ok (some found)) →
      (∀ db < s.count, ∀ key, t.visible db key = s.visible db key) ∧
        t.writeClock = s.writeClock ∧ result ≠ .error .capacityOverflow

/-- `install_snapshot` on a node. -/
inductive Installs (node : Node Vm) (file : Option Bytes) : Node Vm → Except LoadError Unit → Prop
  | succeed {cache : State Vm} {snapshotMeta : SnapshotMeta}
      (hRun : (machine lua).Runs node.cache (installSnapshot codec file) cache (.ok snapshotMeta)) :
      Installs node file (node.installed cache snapshotMeta) (.ok ())
  | fail {cache : State Vm} {error : LoadError}
      (hRun : (machine lua).Runs node.cache (installSnapshot codec file) cache (.error error)) :
      Installs node file (node.setCache cache) (.error error)

/-- An install that does not succeed leaves the node as it was, and does not panic. -/
def FailedInstallHarmless (node : Node Vm) (file : Option Bytes) : Prop :=
  ∀ after result, Installs lua codec node file after result → result ≠ .ok () →
    (∀ db < node.cache.count, ∀ key, after.cache.visible db key = node.cache.visible db key) ∧
      after.raftMeta.lastAppliedLogId = node.raftMeta.lastAppliedLogId ∧
      after.raftMeta.lastMembership = node.raftMeta.lastMembership ∧
      after.cache.writeClock = node.cache.writeClock ∧ result ≠ .error .capacityOverflow

/-- If the file cannot be read to its end, its readable part holds what is visible
already, and no length in it is beyond the address space. -/
def ReadableOrShown (s : State Vm) (file : Option Bytes) : Prop :=
  (∀ found, (readFile codec s.count file).2 ≠ .ok (some found)) →
    (∀ db < s.count, ∀ key,
      s.visible db key = shown s.writeClock (readFile codec s.count file).1 db key) ∧
    (readFile codec s.count file).2 ≠ .error .capacityOverflow

end

section

variable {Vm : Type} {lua : LuaMachine Vm} {codec : SnapshotCodec} {s : State Vm}
    {file : Option Bytes}

theorem loadReply_eq_ok_iff {read :
    Except LoadError (Option (CacheCatSnapshotMeta × List AtomicRequest))} :
    (∀ found, loadReply read ≠ .ok (some found)) ↔ ∀ found, read ≠ .ok (some found) := by
  constructor
  · rintro hReply ⟨recorded, queue⟩ rfl
    exact hReply _ rfl
  · intro hRead found hReply
    cases read with
    | error error => cases hReply
    | ok loaded =>
      cases loaded with
      | none => cases hReply
      | some loaded => exact hRead loaded rfl

theorem loadReply_eq_panic_iff {read :
    Except LoadError (Option (CacheCatSnapshotMeta × List AtomicRequest))} :
    loadReply read = .error .capacityOverflow ↔ read = .error .capacityOverflow := by
  cases read with
  | error error => simp [loadReply]
  | ok loaded => cases loaded <;> simp [loadReply]

/-- A load that fails stops at what it has inserted. -/
theorem loadedView_of_fails {view : View}
    (hFails : ∀ found, (readFile codec view.count file).2 ≠ .ok (some found)) :
    loadedView codec view file = leftBy view (readFile codec view.count file).1 := by
  unfold loadedView
  split
  next hRead => exact absurd hRead (hFails _)
  · rfl

/-- After a failed load exactly the inserts are visible, and the clock is the old one. -/
theorem failed_of_view {t : State Vm}
    (hFails : ∀ found, (readFile codec s.count file).2 ≠ .ok (some found))
    (hView : t.view = loadedView codec s.view file) :
    t.writeClock = s.writeClock ∧ ∀ db < s.count, ∀ key,
      t.visible db key = shown s.writeClock (readFile codec s.count file).1 db key := by
  rw [loadedView_of_fails hFails] at hView
  refine ⟨(congrArg View.writeClock hView).trans (leftBy_writeClock ..), fun db hDb key => ?_⟩
  have hVisible : t.visible db key = t.view.visible db key := rfl
  rw [hVisible, hView, View.visible, leftBy_live s.view _ hDb]
  rfl

theorem failedLoadHarmless_iff (lua : LuaMachine Vm) (codec : SnapshotCodec) (s : State Vm)
    (file : Option Bytes) : FailedLoadHarmless lua codec s file ↔ ReadableOrShown codec s file := by
  constructor
  · intro hHarmless hFails
    obtain ⟨t, result, hRun⟩ := (shows_view lua).exists_run (settles_load codec s file)
    obtain ⟨hView, rfl⟩ := hRun.settles (shows_view lua) (settles_load codec s file)
    obtain ⟨-, hVisible⟩ := failed_of_view hFails hView
    obtain ⟨hSame, -, hPanic⟩ := hHarmless t _ hRun (loadReply_eq_ok_iff.mpr hFails)
    refine ⟨fun db hDb key => ?_, fun hRead => hPanic (loadReply_eq_panic_iff.mpr hRead)⟩
    rw [← hSame db hDb key, hVisible db hDb key]
  · intro hShown t result hRun hResult
    obtain ⟨hView, rfl⟩ := hRun.settles (shows_view lua) (settles_load codec s file)
    have hFails := loadReply_eq_ok_iff.mp hResult
    obtain ⟨hClock, hVisible⟩ := failed_of_view hFails hView
    obtain ⟨hSame, hPanic⟩ := hShown hFails
    refine ⟨fun db hDb key => ?_, hClock, fun hReply => hPanic (loadReply_eq_panic_iff.mp hReply)⟩
    rw [hVisible db hDb key, hSame db hDb key]

/-- An install fails with the load, before anything is replayed. -/
theorem failed_of_install {t : State Vm} {error : LoadError}
    (hRun : (machine lua).Runs s (installSnapshot codec file) t (.error error)) :
    (∀ found, (readFile codec s.count file).2 ≠ .ok (some found)) ∧
      t.view = loadedView codec s.view file ∧
      (error = .capacityOverflow → (readFile codec s.count file).2 = .error .capacityOverflow) := by
  obtain ⟨middle, result, hLoad, hRest⟩ := Machine.Runs.exists_of_bind hRun
  obtain ⟨hView, rfl⟩ := hLoad.settles (shows_view lua) (settles_load codec s file)
  cases hRead : (readFile codec s.count file).2 with
  | error failure =>
    rw [hRead] at hRest
    obtain ⟨hSame, hError⟩ := view_of_runs_done hRest
    cases hError
    exact ⟨nofun, hSame.trans hView, fun hOverflow => by rw [hOverflow]⟩
  | ok loaded =>
    rw [hRead] at hRest
    cases loaded with
    | none =>
      obtain ⟨hSame, hError⟩ := view_of_runs_done hRest
      cases hError
      exact ⟨nofun, hSame.trans hView, nofun⟩
    | some found =>
      obtain ⟨recorded, queue⟩ := found
      have hReplayed : (machine lua).Runs middle (queue.forM replay >>= fun _ =>
        (.done (.ok recorded.snapshotMeta) : Action (Except LoadError SnapshotMeta))) t
          (.error error) := hRest
      obtain ⟨_, hOk, -⟩ := hReplayed.of_bind_done
      cases hOk

/-- A failed load or install leaves the node intact exactly if the readable part of the
file holds what is visible already: nothing, if the failure comes before the first
entry. The metadata and the clock are never touched. -/
theorem failedLoad_intact_iff (lua : LuaMachine Vm) (codec : SnapshotCodec) (node : Node Vm)
    (file : Option Bytes) :
    FailedLoadHarmless lua codec node.cache file ∧ FailedInstallHarmless lua codec node file ↔
      ReadableOrShown codec node.cache file := by
  rw [failedLoadHarmless_iff]
  refine ⟨And.left, fun hShown => ⟨hShown, fun after result hInstalls hResult => ?_⟩⟩
  cases hInstalls with
  | succeed hRun => exact absurd rfl hResult
  | fail hRun =>
    obtain ⟨hFails, hView, hOverflow⟩ := failed_of_install hRun
    obtain ⟨hClock, hVisible⟩ := failed_of_view hFails hView
    obtain ⟨hSame, hPanic⟩ := hShown hFails
    refine ⟨fun db hDb key => ?_, rfl, rfl, hClock, fun hError => ?_⟩
    · exact (hVisible db hDb key).trans (hSame db hDb key).symm
    · exact hPanic (hOverflow (Except.error.inj hError))

end

/-- A file that gives the length of its first key as `2 ^ 63`. -/
def oversizedFile : Bytes :=
  cacheMagicNum ++ bigEndian 1 fileVersion ++ List.replicate placeholderLength 0 ++ bigEndian 8 1 ++
    bigEndian 8 1 ++ bigEndian 8 (2 ^ 63)

/-- A node with a counter is sent an empty file: the install is refused, and the counter
is gone. The oversized file makes the install panic. -/
theorem failed_install_empties :
    ∃ node emptied panicked, Library.run counterStep (freshNode 1) [.apply [incrEntry 1 5 0]] =
      some node ∧ node.cache.visible 0 (bytes "n") = some (.int 1, none) ∧
      Installs .none counterCodec node (some []) emptied (.error .unexpectedEof) ∧
      emptied.cache.visible 0 (bytes "n") = none ∧
      Installs .none counterCodec node (some oversizedFile) panicked
        (.error .capacityOverflow) := by
  have hRuns : (do
      let node ← Library.run counterStep (freshNode 1) [.apply [incrEntry 1 5 0]]
      let emptied ← execute .none .quiet 100 node.cache (installSnapshot counterCodec (some []))
      let panicked ← execute .none .quiet 100 node.cache
        (installSnapshot counterCodec (some oversizedFile))
      if emptied.2 = .error .unexpectedEof ∧ panicked.2 = .error .capacityOverflow then
        some (node.cache.visible 0 (bytes "n"), emptied.1.visible 0 (bytes "n"))
      else none) = some (some (.int 1, none), none) := by
    decide +kernel
  simp only [Option.bind_eq_bind, Option.bind_eq_some_iff, Option.ite_none_right_eq_some,
    Option.some.injEq, Prod.mk.injEq] at hRuns
  obtain ⟨node, hNode, ⟨emptied, reply⟩, hEmptied, ⟨panicked, reply'⟩, hPanicked, ⟨rfl, rfl⟩,
    hBefore, hAfter⟩ := hRuns
  exact ⟨node, node.setCache emptied, node.setCache panicked, hNode, hBefore,
    .fail (runs_of_execute hEmptied), hAfter, .fail (runs_of_execute hPanicked)⟩

end CacheCat.StateMachine
