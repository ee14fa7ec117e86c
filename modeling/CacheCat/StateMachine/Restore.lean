import CacheCat.Library.Run
import CacheCat.StateMachine.Loading

/-! What a node shows after it has loaded a snapshot file, through
`install_snapshot` on a follower and through `StateMachineStore::new` at a restart. -/
namespace CacheCat.StateMachine

open Cache
open Library (Program)

variable {Vm : Type} {lua : LuaMachine Vm} {codec : SnapshotCodec} {file : Bytes}
    {node next : Node Unit} {event : NodeEvent}

/-- After the load `t` is visible. -/
theorem LoadsAs.shows {snapshot : Snapshot} {s t u : State Vm} (h : LoadsAs codec file snapshot t)
    (hCount : s.count = t.count) (hBehind : s.writeClock ≤ t.writeClock)
    (hView : u.view = loadedView codec s.view (some file)) : u.writeClock = t.writeClock ∧
      ∀ db < t.count, ∀ key, u.visible db key = t.visible db key := by
  obtain ⟨-, hClock, hLive⟩ := h s hCount hBehind
  rw [← hView] at hClock hLive
  refine ⟨hClock, fun db hDb key => ?_⟩
  exact congrArg _ (hLive db hDb key)

variable {start : State Vm}

theorem NodeSound.loads {clean : List AtomicRequest → Prop} {origin : Option LogId} {node : Node Vm}
    (h : NodeSound codec clean lua start origin node) (hCount : start.count < 2 ^ 16)
    (hFile : node.snapshotBin = some file) :
    ∃ snapshot earlier later t, node.log = earlier ++ later ∧ Applies lua start earlier t ∧
      t.count = start.count ∧ clean snapshot.queue ∧
      snapshot.recorded.snapshotMeta.lastLogId = lastLogId origin earlier ∧
      LoadsAs codec file snapshot t := by
  obtain ⟨snapshot, hDump, hFits, hClean, earlier, later, t, hLog, hApplies, hId, hClock,
      hLength, hAll⟩ :=
    h.file file hFile
  obtain ⟨batches, responses, _, hRun⟩ := id hApplies
  have hSame : t.count = start.count := (runs_grows hRun).count
  have hShort : t.count < 2 ^ 64 := (hSame ▸ hCount).trans (by decide)
  exact ⟨snapshot, earlier, later, t, hLog, hApplies, hSame, hClean, hId,
    loadsAs_of_reflects hDump hFits hShort hClock hLength hAll⟩

/-! ### Counters during a build -/

/-- A step that is seen to be steady because it does not touch the maps at all. -/
def keeps (codec : SnapshotCodec) (node next : Node Vm) : Bool :=
  (∀ db < node.cache.count, node.build.Begun db →
    next.cache.databases db = node.cache.databases db) &&
  node.cache.writeClock ≤ next.cache.writeClock &&
  match next.build with
  | .recorded snapshot => FitsHeader codec snapshot.recorded
  | _ => true

theorem steady_of_keeps {codec : SnapshotCodec} {node next : Node Vm}
    (h : keeps codec node next = true) : Steady codec node next := by
  simp only [keeps, Bool.and_eq_true, decide_eq_true_eq] at h
  obtain ⟨⟨hMaps, hClock⟩, hFits⟩ := h
  constructor
  · intro db hDb hBegun
    exact unaltered_of_databases_eq (hMaps db hDb hBegun) hClock
  · intro snapshot hBuild
    simpa [hBuild] using hFits

/-- INCR of the key `n`. -/
def incrEntry (index clock db : Nat) : LogEntry :=
  ⟨⟨1, 1, index⟩, .normal (.new clock db (.base (.incr ⟨bytes "n"⟩)))⟩

/-- A codec for what the runs below write. -/
def counterCodec : SnapshotCodec where
  key := .ofList [bytes "n"]
  entry := .ofList [⟨⟨1, .int 1⟩, none⟩, ⟨⟨1, .int 2⟩, none⟩]
  request := .ofList [⟨.incr ⟨bytes "n"⟩, 2, 6⟩]
  recorded := .ofList [⟨⟨some ⟨1, 1, 2⟩, ⟨none, ⟨[], []⟩⟩⟩, 6⟩]

def freshNode (count : Nat) : Node Unit := .idle (.new count ()) none ⟨none, ⟨[], []⟩⟩

def counterStep (node : Node Unit) (event : NodeEvent) : Option (Node Unit) :=
  node.perform .none .quiet 100 counterCodec event

/-- The same, if the step is steady. -/
def steadyCounterStep (node : Node Unit) (event : NodeEvent) : Option (Node Unit) :=
  (counterStep node event).filter (keeps counterCodec node)

/-- The same, if moreover nothing is queued. -/
def quietCounterStep (node : Node Unit) (event : NodeEvent) : Option (Node Unit) :=
  (steadyCounterStep node event).filter fun next => next.cache.queue = node.cache.queue

theorem counterStep_step (h : counterStep node event = some next) :
    Step .none counterCodec node next :=
  step_of_perform h

theorem steadyCounterStep_step (h : steadyCounterStep node event = some next) :
    Step .none counterCodec node next ∧ Steady counterCodec node next := by
  obtain ⟨hStep, hSteady⟩ := Option.filter_eq_some_iff.mp h
  exact ⟨counterStep_step hStep, steady_of_keeps hSteady⟩

theorem quietCounterStep_step (h : quietCounterStep node event = some next) :
    Step .none counterCodec node next ∧ Steady counterCodec node next ∧
      next.cache.queue = node.cache.queue := by
  obtain ⟨hStep, hQueue⟩ := Option.filter_eq_some_iff.mp h
  obtain ⟨hStep, hSteady⟩ := steadyCounterStep_step hStep
  exact ⟨hStep, hSteady, decide_eq_true_eq.mp hQueue⟩

/-- The steps of a walk over a database with at most the key `n`. -/
def walk (keys : List Bytes) : List NodeEvent :=
  .build .openDatabase :: keys.map (fun key => .build (.visit key)) ++ [.build .closeDatabase]

def afterWalks : List NodeEvent :=
  [.build .writeQueue, .build .tail, .build .rename, .build .finish]

/-- While database 0 is done and database 1 is not begun, INCR creates a counter in
database 1. -/
def counterInNextDatabase : List NodeEvent :=
  .apply [incrEntry 1 5 0] :: .build .start :: walk [bytes "n"] ++
    .apply [incrEntry 2 6 1] :: walk [bytes "n"] ++ afterWalks

/-- The counter is in database 1 from the start, and the second INCR goes to the
queue while only the walk over database 0 has begun. -/
def counterQueued : List NodeEvent :=
  .apply [incrEntry 1 5 1] :: .build .start :: walk [] ++
    .apply [incrEntry 2 6 1] :: walk [bytes "n"] ++ afterWalks

theorem eq_ok_of_toOption {A : Type} {result : Except LoadError A} {value : A}
    (h : result.toOption = some value) : result = .ok value := by
  cases result with
  | error error => cases h
  | ok found =>
    cases h
    rfl

/-- A run of the steps `events`, and then of `program` on the file they leave. -/
theorem exists_of_file {A : Type} {events : List NodeEvent}
    (program : Bytes → Action (Except LoadError A))
    (lastLog : Bytes → State Unit → A → Option LogId)
    {loaded applied : Option (ValueObject × Option Nat)}
    (hRun : (do
      let node ← Library.run counterStep (freshNode 1) events
      let file ← node.snapshotBin
      let after ← execute .none .quiet 100 (.new 1 ()) (program file)
      let value ← after.2.toOption
      if lastLog file after.1 value = lastLogId none node.log then
        some (after.1.visible 0 (bytes "n"), node.cache.visible 0 (bytes "n"))
      else none) = some (loaded, applied)) :
    ∃ node file after value t,
      Relation.ReflTransGen (Step .none counterCodec) (freshNode 1) node ∧
      Library.run counterStep (freshNode 1) events = some node ∧ node.snapshotBin = some file ∧
      (machine .none).Runs (.new 1 ()) (program file) after (.ok value) ∧
      lastLog file after value = lastLogId none node.log ∧ Applies .none (.new 1 ()) node.log t ∧
      after.visible 0 (bytes "n") = loaded ∧ t.visible 0 (bytes "n") = applied := by
  simp only [Option.bind_eq_bind, Option.bind_eq_some_iff, Option.ite_none_right_eq_some,
    Option.some.injEq, Prod.mk.injEq] at hRun
  obtain ⟨node, hNode, file, hFile, ⟨after, result⟩, hAfter, value, hResult, hId, hLoaded,
    hApplied⟩ := hRun
  have hPath : Relation.ReflTransGen (Step .none counterCodec) (freshNode 1) node :=
    Library.reflTransGen_of_run (fun _ _ _ hStep => counterStep_step hStep) hNode
  obtain rfl := eq_ok_of_toOption hResult
  exact ⟨node, file, after, value, node.cache, hPath, hNode, hFile, runs_of_execute hAfter, hId,
    (Applies.refl (State.new 1 ())).run hPath, hLoaded, hApplied⟩

/-! ### Installing -/

/-- On every node with as many databases that is not ahead of `t`, the file is
installed without an error, and then `t` is visible and reported up to `lastLog`. -/
def InstallsAs (lua : LuaMachine Vm) (codec : SnapshotCodec) (file : Bytes) (lastLog : Option LogId)
    (t : State Vm) : Prop :=
  ∀ receiver : State Vm, receiver.count = t.count → receiver.writeClock ≤ t.writeClock →
    (∃ installed snapshotMeta,
      (machine lua).Runs receiver (installSnapshot codec (some file)) installed
        (.ok snapshotMeta)) ∧
    ∀ installed result,
      (machine lua).Runs receiver (installSnapshot codec (some file)) installed result →
        ∃ snapshotMeta, result = .ok snapshotMeta ∧ snapshotMeta.lastLogId = lastLog ∧
          installed.writeClock = t.writeClock ∧
          ∀ db < t.count, ∀ key, installed.visible db key = t.visible db key

/-- Snapshot correctness. A node starts with some state and an empty queue, applies
batches of entries, and builds snapshots, with all steps interleaved in any way, as
long as no step queues a request, touches a database whose walk has begun, or
records metadata larger than the header area. Then every file it leaves, installed
on any node that has not applied more than the file records, makes visible what
applying the recorded prefix of the log makes visible. -/
theorem installed_eq_applied (lua : LuaMachine Vm) (codec : SnapshotCodec) (origin : Option LogId)
    (membership : StoredMembership) (hQueue : start.queue = []) (hCount : start.count < 2 ^ 16)
    {node : Node Vm} (hRun : Relation.ReflTransGen (fun node next => Step lua codec node next ∧
      Steady codec node next ∧ next.cache.queue = node.cache.queue) (.idle start origin membership)
      node) {file : Bytes} (hFile : node.snapshotBin = some file) :
    ∃ earlier later t, node.log = earlier ++ later ∧ Applies lua start earlier t ∧
      t.count = start.count ∧ InstallsAs lua codec file (lastLogId origin earlier) t := by
  have hSound : NodeSound codec (· = []) lua start origin node := by
    refine (NodeSound.idle lua start origin membership hQueue).run
      (Relation.ReflTransGen.mono ?_ _ _ hRun)
    rintro node next ⟨hStep, hSteady, hSame⟩
    exact ⟨hStep, hSteady, fun hEmpty => hSame.trans hEmpty⟩
  obtain ⟨snapshot, earlier, later, t, hLog, hApplies, hSame, hEmpty, hId, hLoads⟩ :=
    hSound.loads hCount hFile
  refine ⟨earlier, later, t, hLog, hApplies, hSame, fun receiver hEqual hBehind => ?_⟩
  have hSettles : (installSnapshot codec (some file)).Settles View.effect (fun after result =>
      after = loadedView codec receiver.view (some file) ∧
        result = .ok snapshot.recorded.snapshotMeta) receiver.view := by
    have hRead : (readFile codec receiver.view.count (some file)).2 = _ :=
      (hLoads receiver hEqual hBehind).1
    rw [installSnapshot, Program.settles_bind, settles_loadCacheFromPath, hRead, hEmpty]
    -- the queue is empty, so that nothing is replayed
    exact ⟨rfl, rfl⟩
  obtain ⟨⟨installed, result, hRun⟩, hEvery⟩ := (shows_view lua).everyRun hSettles
  constructor
  · obtain ⟨-, rfl⟩ := hEvery installed result hRun
    exact ⟨installed, _, hRun⟩
  · intro installed result hRun
    obtain ⟨hView, rfl⟩ := hEvery installed result hRun
    exact ⟨_, rfl, hId, hLoads.shows hEqual hBehind hView⟩

/-- A counter created in database 1 between the walks over databases 0 and 1. -/
theorem installed_eq_applied_counter :
    ∃ node file earlier later t,
      Library.run quietCounterStep (freshNode 2) counterInNextDatabase = some node ∧
      node.snapshotBin = some file ∧ node.log = earlier ++ later ∧
      Applies .none (.new 2 ()) earlier t ∧ t.count = 2 ∧
      InstallsAs .none counterCodec file (lastLogId none earlier) t := by
  have hSome : ((Library.run quietCounterStep (freshNode 2) counterInNextDatabase).bind
      (·.snapshotBin)).isSome := by decide +kernel
  obtain ⟨file, hSome⟩ := Option.isSome_iff_exists.mp hSome
  obtain ⟨node, hRun, hFile⟩ := Option.bind_eq_some_iff.mp hSome
  have hPath : Relation.ReflTransGen (fun node next => Step .none counterCodec node next ∧
      Steady counterCodec node next ∧ next.cache.queue = node.cache.queue) (freshNode 2) node :=
    Library.reflTransGen_of_run (fun _ _ _ hStep => quietCounterStep_step hStep) hRun
  have hQueue : (State.new 2 ()).queue = [] := rfl
  have hCount : (State.new 2 ()).count < 2 ^ 16 := by decide
  obtain ⟨earlier, later, t, h⟩ :=
    installed_eq_applied .none counterCodec none ⟨none, ⟨[], []⟩⟩ hQueue hCount hPath hFile
  exact ⟨node, file, earlier, later, t, hRun, hFile, h⟩

/-- The second INCR is applied after the start and before the walk. The walk writes
its result under the old version, so that the replay of the queue takes it for not
yet done: the installed counter is at 3 and the log leaves it at 2. -/
theorem incr_replayed_twice :
    let events := .apply [incrEntry 1 5 0] :: .build .start :: .apply [incrEntry 2 6 0] ::
      walk [bytes "n"] ++ afterWalks
    ∃ node file installed snapshotMeta t,
      Relation.ReflTransGen (Step .none counterCodec) (freshNode 1) node ∧
      Library.run counterStep (freshNode 1) events = some node ∧ node.snapshotBin = some file ∧
      (machine .none).Runs (.new 1 ()) (installSnapshot counterCodec (some file)) installed
        (.ok snapshotMeta) ∧
      snapshotMeta.lastLogId = lastLogId none node.log ∧ Applies .none (.new 1 ()) node.log t ∧
      installed.visible 0 (bytes "n") = some (.int 3, none) ∧
      t.visible 0 (bytes "n") = some (.int 2, none) := by
  exact exists_of_file (fun file => installSnapshot counterCodec (some file))
    (fun _ _ snapshotMeta => snapshotMeta.lastLogId) (by decide +kernel)

/-! ### Restarting -/

/-- `StateMachineStore::new` opens the file without an error, and then `t` is visible
and reported up to `lastLog`. -/
def RestartsAs (lua : LuaMachine Vm) (codec : SnapshotCodec) (vm : Vm) (file : Bytes)
    (lastLog : Option LogId) (t : State Vm) : Prop :=
  (∃ cache found,
    (machine lua).Runs (.new t.count vm) (loadAtStart codec (some file)) cache (.ok found)) ∧
  ∀ cache result,
    (machine lua).Runs (.new t.count vm) (loadAtStart codec (some file)) cache result →
      ∃ found, result = .ok found ∧
        (Node.opened cache found (some file)).raftMeta.lastAppliedLogId = lastLog ∧
        cache.writeClock = t.writeClock ∧
        ∀ db < t.count, ∀ key, cache.visible db key = t.visible db key

/-- Restart correctness. The queue of the file is not read at a restart, so that
here requests may be queued, if only the databases whose walk has begun are left
alone: a restarted node reports the last entry of a prefix of the log, and makes
visible what applying that prefix makes visible. -/
theorem restarted_eq_applied (lua : LuaMachine Vm) (codec : SnapshotCodec) (origin : Option LogId)
    (membership : StoredMembership) (hCount : start.count < 2 ^ 16) {node : Node Vm} (hRun :
      Relation.ReflTransGen (fun node next => Step lua codec node next ∧ Steady codec node next)
      (.idle start origin membership) node) {file : Bytes} (hFile : node.snapshotBin = some file)
    (vm : Vm) :
    ∃ earlier later t, node.log = earlier ++ later ∧ Applies lua start earlier t ∧
      t.count = start.count ∧ RestartsAs lua codec vm file (lastLogId origin earlier) t := by
  have hSound : NodeSound codec (fun _ => True) lua start origin node := by
    refine (NodeSound.idle lua start origin membership trivial).run
      (Relation.ReflTransGen.mono ?_ _ _ hRun)
    rintro node next ⟨hStep, hSteady⟩
    exact ⟨hStep, hSteady, fun _ => trivial⟩
  obtain ⟨snapshot, earlier, later, t, hLog, hApplies, hSame, _, hId, hLoads⟩ :=
    hSound.loads hCount hFile
  refine ⟨earlier, later, t, hLog, hApplies, hSame, ?_⟩
  obtain ⟨⟨cache, result, hRun⟩, hEvery⟩ :=
    everyRun_loadAtStart lua codec (State.new t.count vm) (some file)
  rw [(hLoads (.new t.count vm) rfl (Nat.zero_le _)).1] at hEvery
  constructor
  · obtain ⟨-, rfl⟩ := hEvery cache result hRun
    exact ⟨cache, _, hRun⟩
  · intro cache result hRun
    obtain ⟨hView, rfl⟩ := hEvery cache result hRun
    exact ⟨_, rfl, hId, hLoads.shows (s := .new t.count vm) rfl (Nat.zero_le _) hView⟩

/-- A counter whose second INCR is queued before the walk comes to its database. -/
theorem restarted_eq_applied_counter :
    ∃ node file earlier later t,
      Library.run steadyCounterStep (freshNode 2) counterQueued = some node ∧
      node.snapshotBin = some file ∧ node.log = earlier ++ later ∧
      Applies .none (.new 2 ()) earlier t ∧ t.count = 2 ∧
      RestartsAs .none counterCodec () file (lastLogId none earlier) t := by
  have hSome : ((Library.run steadyCounterStep (freshNode 2) counterQueued).bind
      (·.snapshotBin)).isSome := by decide +kernel
  obtain ⟨file, hSome⟩ := Option.isSome_iff_exists.mp hSome
  obtain ⟨node, hRun, hFile⟩ := Option.bind_eq_some_iff.mp hSome
  have hPath : Relation.ReflTransGen (fun node next => Step .none counterCodec node next ∧
      Steady counterCodec node next) (freshNode 2) node :=
    Library.reflTransGen_of_run (fun _ _ _ hStep => steadyCounterStep_step hStep) hRun
  have hCount : (State.new 2 ()).count < 2 ^ 16 := by decide
  obtain ⟨earlier, later, t, h⟩ :=
    restarted_eq_applied .none counterCodec none ⟨none, ⟨[], []⟩⟩ hCount hPath hFile ()
  exact ⟨node, file, earlier, later, t, hRun, hFile, h⟩

/-- The second INCR is applied right after the walk has passed the counter. Its
request is in the queue of the file, which a restart does not look at: the node
reports that it has applied both, and has a counter at 1. -/
theorem incr_lost_at_restart :
    let events := .apply [incrEntry 1 5 0] :: .build .start :: walk [bytes "n"] ++
      .apply [incrEntry 2 6 0] :: afterWalks
    ∃ node file cache found t,
      Relation.ReflTransGen (Step .none counterCodec) (freshNode 1) node ∧
      Library.run counterStep (freshNode 1) events = some node ∧ node.snapshotBin = some file ∧
      (machine .none).Runs (.new 1 ()) (loadAtStart counterCodec (some file)) cache (.ok found) ∧
      (Node.opened cache found (some file)).raftMeta.lastAppliedLogId = lastLogId none node.log ∧
      Applies .none (.new 1 ()) node.log t ∧
      cache.visible 0 (bytes "n") = some (.int 1, none) ∧
      t.visible 0 (bytes "n") = some (.int 2, none) := by
  exact exists_of_file (fun file => loadAtStart counterCodec (some file))
    (fun file cache found => (Node.opened cache found (some file)).raftMeta.lastAppliedLogId)
    (by decide +kernel)

end CacheCat.StateMachine
