import CacheCat.Cache.Visible
import CacheCat.StateMachine.Build

/-! What a build has written so far, compared with the node it runs on. As long as
nothing changes in a database whose walk has begun, the written entries show what
is live on the node, at every moment until the metadata is recorded. -/
namespace CacheCat.StateMachine

open Cache
open Mocha (Table)

variable {Vm : Type}

/-! ### Runs of the log -/

/-- The state `t` results from applying the log in `s`, cut into batches in some
way and with any disturbances. -/
def Applies (lua : LuaMachine Vm) (s : State Vm) (log : List LogEntry) (t : State Vm) : Prop :=
  ∃ batches responses, batches.flatMap (·.entries) = log ∧
    (machine lua).Runs s (applyBatches batches) t responses

variable {node next : Node Vm}

namespace Applies

variable {lua : LuaMachine Vm} {s t u : State Vm} {log : List LogEntry}

theorem refl (s : State Vm) : Applies lua s [] s := ⟨[], [], rfl, .done s []⟩

theorem disturb (h : Applies lua s log t) (hDisturb : Disturbs t u) : Applies lua s log u := by
  obtain ⟨batches, responses, hLog, hRun⟩ := h
  exact ⟨batches, responses, hLog, hRun.then_disturb hDisturb⟩

theorem applyBatches_concat (batches : List Batch) (batch : Batch) :
    applyBatches (batches ++ [batch]) = do
      let responses ← applyBatches batches
      let rest ← applyBatch batch
      return responses ++ rest := by
  induction batches with
  | nil =>
    simp [applyBatches]
  | cons first batches ih =>
    simp only [List.cons_append, applyBatches, ih, bind_assoc, pure_bind, List.append_assoc]

theorem batch (h : Applies lua s log t) {batch : Batch} {responses : List Value}
    (hRun : (machine lua).Runs t (applyBatch batch) u responses) :
    Applies lua s (log ++ batch.entries) u := by
  obtain ⟨batches, earlier, rfl, hEarlier⟩ := h
  refine ⟨batches ++ [batch], earlier ++ responses, by simp, ?_⟩
  rw [applyBatches_concat]
  exact hEarlier.bind (hRun.bind (.done u _))

variable {codec : SnapshotCodec}

/-- A step of the build touches neither the cache nor the log. -/
theorem advanced_frame (h : node.Advanced codec next) :
    next.cache = node.cache ∧ next.log = node.log := by
  cases h <;> exact ⟨rfl, rfl⟩

/-- In every run a node's cache results from applying its log. -/
theorem step (h : Applies lua s node.log node.cache) (hStep : Step lua codec node next) :
    Applies lua s next.log next.cache := by
  cases hStep with
  | apply hRun => exact h.batch hRun
  | disturb hDisturb => exact h.disturb hDisturb
  | build event hNext =>
    obtain ⟨hCache, hLog⟩ := advanced_frame (Node.advanced_of_advance hNext)
    rwa [hCache, hLog]

theorem run (h : Applies lua s node.log node.cache)
    (hRun : Relation.ReflTransGen (Step lua codec) node next) :
    Applies lua s next.log next.cache := by
  induction hRun with
  | refl => exact h
  | tail _ hStep ih => exact ih.step hStep

end Applies

/-! ### What no query takes back -/

/-- The databases stay as many, the clock never goes back, and nothing is ever taken
out of the queue. -/
structure Grows (s t : State Vm) : Prop where
  count : t.count = s.count
  writeClock : s.writeClock ≤ t.writeClock
  queue : s.queue <+: t.queue

section

variable {lua : LuaMachine Vm} {s t u : State Vm}

theorem Grows.refl (s : State Vm) : Grows s s := ⟨rfl, le_rfl, List.prefix_refl _⟩

theorem Grows.trans (h : Grows s t) (h' : Grows t u) : Grows s u :=
  ⟨h'.count.trans h.count, h.writeClock.trans h'.writeClock, h.queue.trans h'.queue⟩

theorem grows_dropExpired (s : State Vm) (db : Nat) (key : Bytes) :
    Grows s (s.dropExpired db key) ∧ (s.dropExpired db key).queue = s.queue := by
  unfold State.dropExpired
  split
  · exact ⟨⟨rfl, le_rfl, List.prefix_refl _⟩, rfl⟩
  · exact ⟨.refl s, rfl⟩

/-- Only one query writes to the queue. -/
def Queues : Query → Prop
  | .push _ => True
  | _ => False

theorem handle_grows {env : Env} {query : Query} {answer : query.Answer}
    (h : handle lua env s query = some (t, answer)) :
    Grows s t ∧ (¬ Queues query → t.queue = s.queue) := by
  cases query with
  | getEntry db key =>
    cases h
    obtain ⟨hGrows, hQueue⟩ := grows_dropExpired s db key
    exact ⟨hGrows, fun _ => hQueue⟩
  | setWriteClock clock =>
    cases h
    exact ⟨⟨rfl, le_max_left .., List.prefix_refl _⟩, fun _ => rfl⟩
  | push request =>
    cases h
    exact ⟨⟨rfl, le_rfl, List.prefix_append ..⟩, fun hQuery => absurd trivial hQuery⟩
  | lockReaders =>
    simp only [handle] at h
    split_ifs at h
    cases h
    exact ⟨⟨rfl, le_rfl, List.prefix_refl _⟩, fun _ => rfl⟩
  | enterScript params =>
    simp only [handle] at h
    split at h <;> cases h <;> exact ⟨⟨rfl, le_rfl, List.prefix_refl _⟩, fun _ => rfl⟩
  | interrupted =>
    simp only [handle] at h
    split_ifs at h
    cases h
    exact ⟨.refl s, fun _ => rfl⟩
  | panic | runScript update => cases h
  | _ =>
    cases h
    exact ⟨⟨rfl, le_rfl, List.prefix_refl _⟩, fun _ => rfl⟩

theorem disturbs_grows (h : Disturbs s t) : Grows s t ∧ t.queue = s.queue := by
  cases h with
  | expire db key => exact grows_dropExpired s db key
  | interrupt => exact ⟨⟨rfl, le_rfl, List.prefix_refl _⟩, rfl⟩

theorem runs_grows {A : Type} {program : Action A} {a : A}
    (hRun : (machine lua).Runs s program t a) : Grows s t := by
  have hAll {B : Type} (program : Action B) : program.Returns (fun _ _ => True) fun _ => True :=
    .trivial program
  refine (hRun.ensures (Grows s) (fun _ body _ _ => hAll body) ?_ ?_ (hAll program) (.refl s)).2
  · rintro middle query t answer hGrows - ⟨env, hHandle⟩
    exact ⟨trivial, hGrows.trans (handle_grows hHandle).1⟩
  · intro middle t hGrows hDisturb
    exact hGrows.trans (disturbs_grows hDisturb).1

/-- Nothing ever empties the queue of a node: what was queued during one build is in
the files of all later ones. -/
theorem queue_prefix_of_run {codec : SnapshotCodec}
    (hRun : Relation.ReflTransGen (Step lua codec) node next) :
    node.cache.queue <+: next.cache.queue := by
  induction hRun with
  | refl => exact List.prefix_refl _
  | tail _ hStep ih =>
    refine ih.trans ?_
    cases hStep with
    | apply hRun => exact (runs_grows hRun).queue
    | disturb hDisturb => exact (disturbs_grows hDisturb).1.queue
    | build event hNext => rw [(Applies.advanced_frame (Node.advanced_of_advance hNext)).1]

end

/-! ### Written entries -/

/-- The map that a list of entries makes when they are inserted in order. -/
def storedTable (entries : List (Bytes × Entry)) : Table Bytes MyValue :=
  entries.foldl (fun map pair => map.insert pair.1 pair.2) ∅

theorem storedTable_concat (entries : List (Bytes × Entry)) (pair : Bytes × Entry) :
    storedTable (entries ++ [pair]) = (storedTable entries).insert pair.1 pair.2 := by
  simp [storedTable]

/-- The entries show what is live in the database. -/
def Reflects (entries : List (Bytes × Entry)) (s : State Vm) (db : Nat) : Prop :=
  ∀ key, (((storedTable entries).lookup key).filter fun entry => !entry.expired s.writeClock) =
    s.live db key

/-- Between the two states nothing has happened to the database, except that the
clock may have hidden entries. -/
def Unaltered (s t : State Vm) (db : Nat) : Prop :=
  ∀ key, t.live db key = (s.live db key).filter fun entry => !entry.expired t.writeClock

variable {s : State Vm} {db : Nat}

theorem unaltered_of_databases_eq {t : State Vm} (hMap : t.databases db = s.databases db)
    (hClock : s.writeClock ≤ t.writeClock) : Unaltered s t db := by
  intro key
  rw [State.live, State.live, hMap, filter_expired hClock]

theorem Reflects.unaltered {entries : List (Bytes × Entry)} {t : State Vm}
    (h : Reflects entries s db) (hClock : s.writeClock ≤ t.writeClock)
    (hUnaltered : Unaltered s t db) : Reflects entries t db := by
  intro key
  rw [hUnaltered, ← h key, filter_expired hClock]

/-! ### The walk over a database -/

/-- A walk in progress: a visited key is written as it is live, another key is not
written, and if it is live, the iterator still has to come by. -/
structure Walks (dump : DatabaseDump) (s : State Vm) (db : Nat) : Prop where
  now : dump.now ≤ s.writeClock
  visited : ∀ key ∈ dump.visited,
    (((storedTable dump.written).lookup key).filter fun entry => !entry.expired s.writeClock) =
      s.live db key
  unvisited : ∀ key ∉ dump.visited, (storedTable dump.written).lookup key = none
  pending : ∀ key ∉ dump.visited, s.live db key ≠ none → key ∈ dump.pending

theorem lookup_of_live {key : Bytes} {entry : Entry} (h : s.live db key = some entry) :
    (s.databases db).lookup key = some entry :=
  (Option.filter_eq_some_iff.mp h).1

namespace Walks

variable {dump : DatabaseDump} {s t : State Vm} {db : Nat}

theorem begin (s : State Vm) (db : Nat) :
    Walks (.begin s.writeClock (s.databases db)) s db where
  now := le_rfl
  visited _ hKey := by cases hKey
  unvisited _ _ := rfl
  pending key _ hLive := by
    obtain ⟨entry, hEntry⟩ := Option.ne_none_iff_exists'.mp hLive
    exact Finmap.mem_keys.mpr (Finmap.mem_of_lookup_eq_some (lookup_of_live hEntry))

theorem visit (h : Walks dump s db) {key : Bytes} {entry : Entry} (hKey : key ∉ dump.visited)
    (hEntry : (s.databases db).lookup key = some entry) : Walks (dump.visit key entry) s db := by
  have hLive : s.live db key = (some entry).filter fun entry => !entry.expired s.writeClock := by
    rw [State.live, hEntry]
  -- an entry that had expired when the walk began is not live now
  have hWritten : ∀ k, (storedTable (dump.visit key entry).written).lookup k =
      if k = key then (some entry).filter fun entry => !entry.expired dump.now
      else (storedTable dump.written).lookup k := by
    intro k
    by_cases hExpired : entry.expired dump.now = true
    · by_cases hSame : k = key
      · subst hSame
        simp [DatabaseDump.visit, hExpired, h.unvisited k hKey, Option.filter_some]
      · simp [DatabaseDump.visit, hExpired, hSame]
    · by_cases hSame : k = key
      · subst hSame
        simp [DatabaseDump.visit, hExpired, storedTable_concat, Option.filter_some]
      · simp [DatabaseDump.visit, hExpired, storedTable_concat, hSame,
          Finmap.lookup_insert_of_ne _ hSame]
  constructor
  · exact h.now
  · intro k hk
    rw [hWritten]
    by_cases hSame : k = key
    · rw [if_pos hSame, filter_expired h.now, hSame, hLive]
    · rw [if_neg hSame]
      exact h.visited k (Finset.mem_of_mem_insert_of_ne hk hSame)
  · intro k hk
    obtain ⟨hSame, hOld⟩ := not_or.mp (Finset.mem_insert.not.mp hk)
    rw [hWritten, if_neg hSame]
    exact h.unvisited k hOld
  · intro k hk hSome
    obtain ⟨hSame, hOld⟩ := not_or.mp (Finset.mem_insert.not.mp hk)
    exact Finset.mem_erase.mpr ⟨hSame, h.pending k hOld hSome⟩

/-- The map may change under the walk as long as its live entries do not. -/
theorem follow (h : Walks dump s db) (hClock : s.writeClock ≤ t.writeClock)
    (hUnaltered : Unaltered s t db) :
    Walks (dump.follow (s.databases db) (t.databases db)) t db where
  now := h.now.trans hClock
  visited key hKey := by
    rw [hUnaltered, ← h.visited key hKey, filter_expired hClock]
    rfl
  unvisited := h.unvisited
  pending key hKey hLive := by
    obtain ⟨entry, hAfter⟩ := Option.ne_none_iff_exists'.mp hLive
    have hBefore : s.live db key = some entry := by
      rw [hUnaltered] at hAfter
      exact (Option.filter_eq_some_iff.mp hAfter).1
    refine Finset.mem_filter.mpr ⟨h.pending key hKey (by simp [hBefore]), ?_⟩
    rw [lookup_of_live hAfter, lookup_of_live hBefore]

/-- At the end of the walk all live keys have been visited. -/
theorem reflects (h : Walks dump s db) (hPending : dump.pending = ∅) :
    Reflects dump.written s db := by
  intro key
  by_cases hKey : key ∈ dump.visited
  · exact h.visited key hKey
  · have hLive : s.live db key = none := by
      by_contra hLive
      simpa [hPending] using h.pending key hKey hLive
    rw [h.unvisited key hKey, hLive]
    rfl

end Walks

end CacheCat.StateMachine
