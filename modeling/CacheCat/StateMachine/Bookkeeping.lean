import CacheCat.Cache.LockDiscipline
import CacheCat.StateMachine.Restore

/-! What a build leaves behind. The snapshot state is set back only where the build
succeeds, and nothing ever takes a request out of the queue. So the node is as it was
before the build if the build has not failed and nothing has been queued meanwhile. -/
namespace CacheCat.StateMachine

open Cache

variable {Vm : Type} {lua : LuaMachine Vm} {codec : SnapshotCodec}

/-! ### The queue outside snapshot mode -/

theorem queue_of_runs {mode : UpdateType} (hMode : mode ≠ .snapshot) {A : Type} {program : Action A}
    (hAsks : AsksIn mode True True program) {s t : State Vm} {a : A}
    (hRun : (machine lua).Runs s program t a) : t.queue = s.queue := by
  refine (hRun.ensures (fun t => t.queue = s.queue) ?_ ?_ ?_ hAsks rfl).2
  · intro query body hQuery hBody
    cases query with
    | runScript update =>
      cases hBody
      obtain ⟨-, rfl⟩ := hQuery
      exact scriptLoop_askedIn update fun _ _ _ _ => .inr trivial
    | _ => cases hBody
  · rintro middle query t answer hQueue hQuery ⟨env, hHandle⟩
    refine ⟨trivial, ((handle_grows hHandle).2 fun hQueues => ?_).trans hQueue⟩
    cases query with
    | push request => exact hMode hQuery
    | _ => exact hQueues.elim
  · intro middle t hQueue hDisturb
    exact (disturbs_grows hDisturb).2.trans hQueue

theorem applyEntry_asksIn (mode : UpdateType) (entry : LogEntry) :
    AsksIn mode True True (applyEntry mode entry) := by
  unfold applyEntry
  split
  · trivial
  · trivial
  next request _ =>
    refine (asksIn_ask (.setWriteClock _) False.elim).bind fun writeClock => ?_
    obtain hAsks | ⟨body, hBody, hEq⟩ := doRequest_external
      ⟨request.splitU64.2, writeClock, mode, false⟩ request.operation (.inr trivial)
        fun _ => trivial
    · exact hAsks
    · rw [hEq]
      exact withReadersLocked_asksIn trivial hBody

theorem applyBatch_queue {batch : Batch} (hMode : batch.mode ≠ .snapshot) {s t : State Vm}
    {responses : List Value} (hRun : (machine lua).Runs s (applyBatch batch) t responses) :
    t.queue = s.queue :=
  queue_of_runs hMode (.mapM (applyEntry_asksIn batch.mode)) hRun

/-! ### The marks of a build -/

namespace Build

instance (build : Build) : Decidable (build = .idle) :=
  match build with
  | .idle => .isTrue rfl
  | .dumping .. => .isFalse nofun
  | .queued .. => .isFalse nofun
  | .recorded _ => .isFalse nofun
  | .renamed => .isFalse nofun

instance (build : Build) : Decidable (build = .renamed) :=
  match build with
  | .renamed => .isTrue rfl
  | .idle => .isFalse nofun
  | .dumping .. => .isFalse nofun
  | .queued .. => .isFalse nofun
  | .recorded _ => .isFalse nofun

/-- The snapshot state while the build runs. -/
def mark : Build → Option SnapshotState
  | idle => none
  | dumping .. => some .start
  | queued .. => some .start
  | recorded _ => some .tail
  | renamed => some .tail

/-- The requests that the file of the build holds. -/
def written : Build → Option (List AtomicRequest)
  | queued _ queue => some queue
  | recorded snapshot => some snapshot.queue
  | _ => none

variable (build : Build) (s t : State Vm)

theorem mark_eq_none : build.mark = none ↔ build = .idle := by
  cases build <;> simp [mark]

theorem mark_ne_ended : build.mark ≠ some .ended := by
  cases build <;> simp [mark]

theorem mark_follow : (build.follow s t).mark = build.mark := by
  unfold follow
  split <;> rfl

theorem written_follow : (build.follow s t).written = build.written := by
  unfold follow
  split <;> rfl

theorem follow_eq_idle : build.follow s t = .idle ↔ build = .idle := by
  rw [← mark_eq_none, mark_follow, mark_eq_none]

end Build

theorem snapshotState_foldl (entries : List LogEntry) (raftMeta : RaftMetaData) :
    (entries.foldl RaftMetaData.apply raftMeta).snapshotState = raftMeta.snapshotState := by
  induction entries generalizing raftMeta with
  | nil => rfl
  | cons entry entries ih => exact ih (raftMeta.apply entry)

/-- A running build has marked the node. -/
def Node.Marked (node : Node Vm) : Prop :=
  ∀ state, node.build.mark = some state → node.raftMeta.snapshotState = state

theorem Node.Marked.step {node next : Node Vm} (h : node.Marked)
    (hStep : Step lua codec node next) : next.Marked := by
  intro state hMark
  cases hStep with
  | apply hRun =>
    rw [Node.applied, Node.setCache, Build.mark_follow] at hMark
    exact (snapshotState_foldl _ _).trans (h state hMark)
  | disturb hDisturb =>
    rw [Node.setCache, Build.mark_follow] at hMark
    exact h state hMark
  | build event hNext =>
    cases Node.advanced_of_advance hNext with
    | start | tail => exact Option.some.inj hMark
    | finish | fail => cases hMark
    | openDatabase hBuild | visit hBuild | closeDatabase hBuild | writeQueue hBuild
    | rename hBuild =>
      refine h state ?_
      rw [hBuild]
      exact hMark

/-! ### One step -/

/-- When no build runs, none has left anything behind. -/
def Node.Restored (node : Node Vm) : Prop :=
  node.build = .idle → node.raftMeta.snapshotState = .ended ∧ node.cache.queue = []

/-- If a build ends with this step, it has succeeded and nothing is in the queue. -/
def EndsClean (node next : Node Vm) : Prop :=
  next.build = .idle → node.build ≠ .idle → node.build = .renamed ∧ node.cache.queue = []

instance (node next : Node Vm) : Decidable (EndsClean node next) :=
  inferInstanceAs (Decidable (_ → _ → _))

section

variable {node next : Node Vm}

/-- Without a build, and without what one has left, nothing is queued. -/
theorem queue_of_idle (hRestored : node.Restored) (hIdle : node.build = .idle)
    (hStep : Step lua codec node next) : next.cache.queue = node.cache.queue := by
  cases hStep with
  | apply hRun =>
    refine applyBatch_queue ?_ hRun
    have hEnded : ¬ node.raftMeta.snapshotState = .start := by
      rw [(hRestored hIdle).1]
      nofun
    simp [Node.batch, Batch.mode, hEnded]
  | disturb hDisturb => exact (disturbs_grows hDisturb).2
  | build event hNext => rw [(Applies.advanced_frame (Node.advanced_of_advance hNext)).1]

/-- Between builds nothing changes, and a build that ends is the one thing that can
leave something behind. -/
theorem restored_step_iff (hMarked : node.Marked) (hRestored : node.Restored)
    (hStep : Step lua codec node next) : next.Restored ↔ EndsClean node next := by
  have hQueue (hIdle : node.build = .idle) : next.cache.queue = node.cache.queue :=
    queue_of_idle hRestored hIdle hStep
  cases hStep with
  | @apply _ cache _ hRun =>
    have hBuild := Build.follow_eq_idle node.build node.cache cache
    refine ⟨fun _ hNext hNode => absurd (hBuild.mp hNext) hNode, fun _ hNext => ?_⟩
    obtain ⟨hState, hEmpty⟩ := hRestored (hBuild.mp hNext)
    exact ⟨(snapshotState_foldl _ _).trans hState, (hQueue (hBuild.mp hNext)).trans hEmpty⟩
  | @disturb cache hDisturb =>
    have hBuild := Build.follow_eq_idle node.build node.cache cache
    refine ⟨fun _ hNext hNode => absurd (hBuild.mp hNext) hNode, fun _ hNext => ?_⟩
    obtain ⟨hState, hEmpty⟩ := hRestored (hBuild.mp hNext)
    exact ⟨hState, (hQueue (hBuild.mp hNext)).trans hEmpty⟩
  | build event hNext =>
    cases Node.advanced_of_advance hNext with
    | finish hBuild =>
      refine ⟨fun hNext _ _ => ⟨hBuild, (hNext rfl).2⟩, fun hClean _ => ⟨rfl, ?_⟩⟩
      exact (hClean rfl (by rw [hBuild]; nofun)).2
    | fail hRenamed =>
      by_cases hIdle : node.build = .idle
      · exact ⟨fun _ _ hNode => absurd hIdle hNode, fun _ _ => hRestored hIdle⟩
      · -- the mark of the build stays
        refine ⟨fun hNext => ?_, fun hClean => absurd (hClean rfl hIdle).1 hRenamed⟩
        obtain ⟨state, hMark⟩ := Option.ne_none_iff_exists'.mp
          fun hNone => hIdle ((Build.mark_eq_none _).mp hNone)
        have hEnded : state = .ended := (hMarked state hMark).symm.trans (hNext rfl).1
        exact absurd (hEnded ▸ hMark) (Build.mark_ne_ended _)
    | start | openDatabase | visit | closeDatabase | writeQueue | tail | rename =>
      exact ⟨fun _ => nofun, fun _ => nofun⟩

/-! ### Builds -/

/-- The nodes of one build, from the first after `begun` on. -/
inductive BuiltFrom (lua : LuaMachine Vm) (codec : SnapshotCodec) (begun : Node Vm) : Node Vm → Prop
  | start {node : Node Vm} (hStart : begun.advance codec .start = some node) :
      BuiltFrom lua codec begun node
  | step {node next : Node Vm} (hBuilt : BuiltFrom lua codec begun node)
      (hStep : Step lua codec node next) (hBuild : next.build ≠ .idle) :
      BuiltFrom lua codec begun next

/-- What was in the queue when the build began is in the file, and the file holds the
first part of what is in the queue now. -/
structure Carries (begun node : Node Vm) : Prop where
  queue : begun.cache.queue <+: node.cache.queue
  written : ∀ written, node.build.written = some written →
    begun.cache.queue <+: written ∧ written <+: node.cache.queue

theorem Carries.step {begun : Node Vm} (h : Carries begun node) (hStep : Step lua codec node next) :
    Carries begun next := by
  have hGrows : node.cache.queue <+: next.cache.queue := queue_prefix_of_run (.single hStep)
  refine ⟨h.queue.trans hGrows, fun written hWritten => ?_⟩
  -- either the build has written this before, or it writes the queue now
  suffices hOr : node.build.written = some written ∨ written = node.cache.queue by
    rcases hOr with hBefore | rfl
    · obtain ⟨hFirst, hLast⟩ := h.written written hBefore
      exact ⟨hFirst, hLast.trans hGrows⟩
    · exact ⟨h.queue, hGrows⟩
  cases hStep with
  | apply hRun =>
    rw [Node.applied, Node.setCache, Build.written_follow] at hWritten
    exact .inl hWritten
  | disturb hDisturb =>
    rw [Node.setCache, Build.written_follow] at hWritten
    exact .inl hWritten
  | build event hNext =>
    cases Node.advanced_of_advance hNext with
    | writeQueue => exact .inr (Option.some.inj hWritten).symm
    | tail hBuild =>
      rw [hBuild]
      exact .inl hWritten
    | start | openDatabase | visit | closeDatabase | rename | finish | fail => cases hWritten

theorem idle_of_start (hStart : node.advance codec .start = some next) :
    node.build = .idle ∧ next.build = .dumping [] none := by
  simp only [Node.advance] at hStart
  split at hStart
  next hIdle =>
    cases hStart
    exact ⟨hIdle, rfl⟩
  · cases hStart

theorem BuiltFrom.carries {begun : Node Vm} (h : BuiltFrom lua codec begun node) :
    begun.build = .idle ∧ Carries begun node := by
  induction h with
  | start hStart =>
    obtain ⟨hIdle, hBuild⟩ := idle_of_start hStart
    have hCache := (Applies.advanced_frame (Node.advanced_of_advance hStart)).1
    refine ⟨hIdle, by rw [hCache], fun written hWritten => ?_⟩
    rw [hBuild] at hWritten
    cases hWritten
  | step _ hStep _ ih => exact ⟨ih.1, ih.2.step hStep⟩

/-! ### Runs -/

theorem restored_iff_endsClean {first : Node Vm} {nodes : List (Node Vm)} (hMarked : first.Marked)
    (hRestored : first.Restored) (hRun : (first :: nodes).IsChain (Step lua codec)) :
    (∀ node ∈ first :: nodes, node.Restored) ↔ (first :: nodes).IsChain EndsClean := by
  induction nodes generalizing first with
  | nil => simp [hRestored]
  | cons next nodes ih =>
    rw [List.isChain_cons_cons] at hRun ⊢
    obtain ⟨hStep, hRest⟩ := hRun
    have hNext := restored_step_iff hMarked hRestored hStep
    constructor
    · intro hAll
      have hTail := (List.forall_mem_cons.mp hAll).2
      have hSecond := hTail next (by simp)
      exact ⟨hNext.mp hSecond, (ih (hMarked.step hStep) hSecond hRest).mp hTail⟩
    · rintro ⟨hClean, hTail⟩
      have hSecond := hNext.mpr hClean
      exact List.forall_mem_cons.mpr
        ⟨hRestored, (ih (hMarked.step hStep) hSecond hRest).mpr hTail⟩

/-- The bookkeeping of the snapshots along a run. -/
structure KeepsBooks (lua : LuaMachine Vm) (codec : SnapshotCodec) (nodes : List (Node Vm)) :
    Prop where
  /-- When no build runs, the snapshot state is `End` and the queue is empty. -/
  restored : ∀ node ∈ nodes, node.Restored
  /-- Requests are queued only while a build runs. -/
  queues : nodes.IsChain fun node next =>
    next.cache.queue = node.cache.queue ∨ node.build ≠ .idle
  /-- What the file of a build holds has been queued after the build began. -/
  own : ∀ begun ∈ nodes, ∀ node written, BuiltFrom lua codec begun node →
    node.build.written = some written → begun.cache.queue ++ written <+: node.cache.queue

/-- A run keeps its books exactly if every build in it ends in success and leaves
nothing in the queue. -/
theorem keepsBooks_iff_endsClean (lua : LuaMachine Vm) (codec : SnapshotCodec) {first : Node Vm}
    {nodes : List (Node Vm)} (hIdle : first.build = .idle)
    (hEnded : first.raftMeta.snapshotState = .ended) (hQueue : first.cache.queue = [])
    (hRun : (first :: nodes).IsChain (Step lua codec)) :
    KeepsBooks lua codec (first :: nodes) ↔ (first :: nodes).IsChain EndsClean := by
  have hMarked : first.Marked := by
    intro state hMark
    rw [(Build.mark_eq_none _).mpr hIdle] at hMark
    cases hMark
  have hRestored := restored_iff_endsClean hMarked (fun _ => ⟨hEnded, hQueue⟩) hRun
  refine ⟨fun hBooks => hRestored.mp hBooks.restored, fun hClean => ?_⟩
  have hAll := hRestored.mpr hClean
  refine ⟨hAll, hRun.imp_of_mem_imp fun node next hNode _ hStep => ?_, ?_⟩
  · by_cases hBuild : node.build = .idle
    · exact .inl (queue_of_idle (hAll node hNode) hBuild hStep)
    · exact .inr hBuild
  · intro begun hBegun node written hBuilt hWritten
    obtain ⟨hStart, hCarries⟩ := hBuilt.carries
    rw [(hAll begun hBegun hStart).2]
    exact (hCarries.written written hWritten).2

end

/-- The steps of a counter that end builds as they should. -/
def cleanCounterStep (node : Node Unit) (event : NodeEvent) : Option (Node Unit) :=
  (counterStep node event).filter fun next => EndsClean node next

/-- A build while nothing is applied, and an INCR afterwards. -/
def undisturbedBuild : List NodeEvent :=
  .apply [incrEntry 1 5 0, incrEntry 2 6 0] :: .build .start :: walk [bytes "n"] ++ afterWalks ++
    [.apply [incrEntry 3 7 0]]

theorem keepsBooks_undisturbedBuild :
    let nodes := Library.visited cleanCounterStep (freshNode 1) undisturbedBuild
    KeepsBooks .none counterCodec (freshNode 1 :: nodes) ∧ nodes.length = 10 := by
  intro nodes
  have hRun : (freshNode 1 :: nodes).IsChain fun node next =>
      Step .none counterCodec node next ∧ EndsClean node next := by
    refine Library.isChain_visited (fun node event next hNext => ?_) _ _
    obtain ⟨hStep, hClean⟩ := Option.filter_eq_some_iff.mp hNext
    exact ⟨counterStep_step hStep, decide_eq_true_eq.mp hClean⟩
  refine ⟨?_, by decide +kernel⟩
  have hSteps : (freshNode 1 :: nodes).IsChain (Step .none counterCodec) :=
    hRun.imp fun _ _ => And.left
  exact (keepsBooks_iff_endsClean .none counterCodec rfl rfl rfl hSteps).mpr
    (hRun.imp fun _ _ => And.right)

/-- The steps of a counter during a build. -/
def buildingCounterStep (node : Node Unit) (event : NodeEvent) : Option (Node Unit) :=
  (counterStep node event).filter fun next => next.build ≠ .idle

/-- A build that fails leaves the state at `Start`, and the next INCR is queued although
no build runs. A build that succeeds leaves the INCR in the queue that was applied
during it, and the next build writes it to its file. -/
theorem queue_kept_after_build :
    let queued : List AtomicRequest := [⟨.incr ⟨bytes "n"⟩, 2, 6⟩]
    (∃ node, Relation.ReflTransGen (Step .none counterCodec) (freshNode 1) node ∧
      node.build = .idle ∧ node.raftMeta.snapshotState = .start ∧ node.cache.queue = queued) ∧
    ∃ begun node, Relation.ReflTransGen (Step .none counterCodec) (freshNode 1) begun ∧
      begun.build = .idle ∧ begun.raftMeta.snapshotState = .ended ∧ begun.cache.queue = queued ∧
      BuiltFrom .none counterCodec begun node ∧ node.build.written = some queued := by
  intro queued
  have hReach {events : List NodeEvent} {node : Node Unit}
      (hRun : Library.run counterStep (freshNode 1) events = some node) :
      Relation.ReflTransGen (Step .none counterCodec) (freshNode 1) node :=
    Library.reflTransGen_of_run (fun _ _ _ hStep => counterStep_step hStep) hRun
  constructor
  · let events : List NodeEvent := [.apply [incrEntry 1 5 0], .build .start, .build .fail,
      .apply [incrEntry 2 6 0]]
    have hRun : ∃ node ∈ Library.run counterStep (freshNode 1) events, node.build = .idle ∧
        node.raftMeta.snapshotState = .start ∧ node.cache.queue = queued := by decide +kernel
    obtain ⟨node, hNode, hLeft⟩ := hRun
    exact ⟨node, hReach hNode, hLeft⟩
  · let events : List NodeEvent := .apply [incrEntry 1 5 0] :: .build .start ::
      .apply [incrEntry 2 6 0] :: walk [bytes "n"] ++ afterWalks
    have hRun : ∃ begun ∈ Library.run counterStep (freshNode 1) events,
        (begun.build = .idle ∧ begun.raftMeta.snapshotState = .ended ∧ begun.cache.queue = queued) ∧
        ∃ first ∈ begun.advance counterCodec .start,
          ∃ node ∈ Library.run buildingCounterStep first (walk [bytes "n"] ++ [.build .writeQueue]),
            node.build.written = some queued := by decide +kernel
    obtain ⟨begun, hBegun, ⟨hIdle, hEnded, hQueue⟩, first, hFirst, node, hNode, hWritten⟩ := hRun
    have hBuilt : BuiltFrom .none counterCodec begun node := by
      refine Library.run_invariant (fun _ => True) (BuiltFrom .none counterCodec begun) ?_ hNode
        (fun _ _ => trivial) (.start hFirst)
      intro node event next _ hBuilt hNext
      obtain ⟨hStep, hBuild⟩ := Option.filter_eq_some_iff.mp hNext
      exact hBuilt.step (counterStep_step hStep) (decide_eq_true_eq.mp hBuild)
    exact ⟨begun, node, hReach hBegun, hIdle, hEnded, hQueue, hBuilt, hWritten⟩

end CacheCat.StateMachine
