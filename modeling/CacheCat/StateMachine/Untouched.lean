import CacheCat.Cache.Frame
import CacheCat.StateMachine.Apply

/-! What a whole log does to a key that it does not name. -/
namespace CacheCat.StateMachine

open Cache

variable {Vm : Type} {lua : LuaMachine Vm} {s middle t : State Vm} {db : Nat} {key : Bytes}

/-- The clock that an entry brings; one without a request brings none. -/
def LogEntry.clock (entry : LogEntry) : Nat :=
  match entry.payload with
  | .normal request => request.splitU64.1
  | _ => 0

/-- The operation flushes nothing and, in the database of the key, does not name the key. -/
def Passes (db : Nat) (key : Bytes) (home : Nat) (operation : Operation) : Prop :=
  noFlush operation = true ∧ (db = home → key ∉ names operation)

section

variable (lua db key)

/-- The entry passes the key by, and so does all that its scripts call when it is applied
to this state. -/
def LogEntry.Spares (s : State Vm) (mode : UpdateType) (entry : LogEntry) : Prop :=
  ∀ request, entry.payload = .normal request →
    Passes db key request.splitU64.2 request.operation ∧
    ∀ before called, (machine lua).Reaches s (applyEntry mode entry) before .advanceScript →
      (lua.advance before.vm).1.Calls called → Passes db key request.splitU64.2 called

/-- Each entry passes the key by in every state to which the entries before it lead. -/
def AllSpare (s : State Vm) (entries : List (UpdateType × LogEntry)) : Prop :=
  ∀ earlier mode entry later, entries = earlier ++ (mode, entry) :: later →
    ∀ middle replies,
      (machine lua).Runs s (earlier.mapM fun entry => applyEntry entry.1 entry.2) middle replies →
      entry.Spares lua db key middle mode

end

variable (s t db key) in
/-- Under the key nothing happens but that the clock moves on. -/
structure Ticks (clock : Nat) : Prop where
  writeClock : t.writeClock = max s.writeClock clock
  live : t.live db key = (s.live db key).filter fun entry => !entry.expired t.writeClock

theorem Ticks.trans {first second : Nat} (hFirst : Ticks s middle db key first)
    (hSecond : Ticks middle t db key second) : Ticks s t db key (max first second) := by
  refine ⟨by rw [hSecond.writeClock, hFirst.writeClock, max_assoc], ?_⟩
  rw [hSecond.live, hFirst.live]
  exact filter_expired (hSecond.writeClock ▸ le_max_left ..) _

theorem ticks_of_return {A : Type} {a b : A} (hRun : (machine lua).Runs s (return a) t b) :
    Ticks s t db key 0 := by
  have hView := (view_of_runs_done hRun).1
  have hClock : t.writeClock = s.writeClock := congrArg View.writeClock hView
  refine ⟨hClock.trans (Nat.max_zero _).symm, ?_⟩
  rw [hClock]
  exact (congrFun₂ (congrArg View.live hView) db key).trans (filter_expired le_rfl _).symm

theorem ticks_of_applyEntry {mode : UpdateType} {entry : LogEntry} {reply : Value}
    (hSpares : entry.Spares lua db key s mode)
    (hRun : (machine lua).Runs s (applyEntry mode entry) t reply) :
    Ticks s t db key entry.clock := by
  obtain ⟨logId, payload⟩ := entry
  cases payload with
  | blank | membership => exact ticks_of_return hRun
  | normal request =>
    obtain ⟨hPasses, hCalled⟩ := hSpares request rfl
    obtain ⟨middle, clock, hTick, hRequest⟩ := hRun.exists_of_bind
    have hMiddle : middle.view = s.view.tick request.splitU64.1 := hTick.settles (shows_view lua)
      (show Library.Program.Settles _ (fun view _ => view = _) _ _ from
        (settles_setWriteClock _).mpr rfl)
    have hKept : t.writeClock = middle.writeClock ∧ t.live db key = middle.live db key := by
      refine kept_of_not_names hPasses.1 ?_ hRequest ?_
      · intro before called hReach hCalls
        exact (hCalled before called (hTick.then_reaches hReach) hCalls).1
      · rintro - hDb (hKey | ⟨before, called, hReach, hCalls, hKey⟩)
        · exact hPasses.2 hDb hKey
        · exact (hCalled before called (hTick.then_reaches hReach) hCalls).2 hDb hKey
    have hClock := hKept.1.trans (congrArg View.writeClock hMiddle)
    refine ⟨hClock, ?_⟩
    rw [hKept.2, hClock]
    exact congrFun₂ (congrArg View.live hMiddle) db key

theorem AllSpare.tail {mode : UpdateType} {entry : LogEntry}
    {entries : List (UpdateType × LogEntry)} {reply : Value}
    (h : AllSpare lua db key s ((mode, entry) :: entries))
    (hFirst : (machine lua).Runs s (applyEntry mode entry) middle reply) :
    AllSpare lua db key middle entries := by
  intro earlier mode' entry' later hSplit after replies hRun
  refine h ((mode, entry) :: earlier) mode' entry' later (by rw [hSplit]; rfl) after
    (reply :: replies) ?_
  rw [List.mapM_cons]
  exact hFirst.bind (hRun.bind (.done _ _))

theorem ticks_of_applyEntries (entries : List (UpdateType × LogEntry)) {replies : List Value}
    (hSpare : AllSpare lua db key s entries)
    (hRun : (machine lua).Runs s (entries.mapM fun entry => applyEntry entry.1 entry.2) t replies) :
    Ticks s t db key (((entries.map Prod.snd).map LogEntry.clock).foldr max 0) := by
  induction entries generalizing s replies with
  | nil => exact ticks_of_return hRun
  | cons entry entries ih =>
    rw [List.mapM_cons] at hRun
    obtain ⟨middle, reply, hFirst, hRest⟩ := hRun.exists_of_bind
    obtain ⟨rest, -, hRest⟩ := hRest.of_bind_done
    have hHead := hSpare [] entry.1 entry.2 entries rfl s [] (.done s [])
    exact (ticks_of_applyEntry hHead hFirst).trans (ih (hSpare.tail hFirst) hRest)

/-- A key that no entry names, in its database or from a script it runs, keeps its value and
its deadline until the latest clock of the log reaches the deadline. -/
theorem untouched_by_log {batches : List Batch} {replies : List Value}
    (hSpare : AllSpare lua db key s (entriesWithMode batches))
    (hRun : (machine lua).Runs s (applyBatches batches) t replies) :
    Ticks s t db key (((batches.flatMap (·.entries)).map LogEntry.clock).foldr max 0) := by
  rw [applyBatches_eq] at hRun
  rw [← entriesWithMode_snd]
  exact ticks_of_applyEntries _ hSpare hRun

/-- Every script is `redis.call('LPUSH', 'l', 'b')`. -/
def pushScript : LuaMachine Bool where
  getOrCompileScript vm _ := .ok vm
  setGlobal vm _ _ := vm
  call _ _ := true
  advance vm := if vm then (.call ["LPUSH", "l", "b"], vm) else (.finish (.ok .nil), vm)
  resume _ _ := false

/-- LPUSH l b at the clock 7, by itself and from a script. -/
def pushLog : List Batch :=
  [⟨false, [⟨⟨1, 1, 1⟩, .normal (.new 7 0 (.base (.lPush ⟨bytes "l", [bytes "b"]⟩)))⟩,
    ⟨⟨1, 1, 2⟩, .normal (.new 7 0 (.redis (.redisEval ⟨[], 0, [], [], 2⟩)))⟩]⟩]

def holdingK : State Bool :=
  (State.new 1 false).setDatabase 0
    (Finmap.singleton (bytes "k") ⟨.new (.string (bytes "v")), none⟩)

theorem untouched_by_push : ∃ t replies,
    (machine pushScript).Runs holdingK (applyBatches pushLog) t replies ∧
      Ticks holdingK t 0 (bytes "k") 7 := by
  have hCalls (vm : Bool) (called : Operation) (hCalls : (pushScript.advance vm).1.Calls called) :
      Passes 0 (bytes "k") 0 called := by
    cases vm with
    | false => exact hCalls.elim
    | true =>
      cases hCalls.2
      exact ⟨rfl, fun _ => by decide +kernel⟩
  have hSpare : AllSpare pushScript 0 (bytes "k") holdingK (entriesWithMode pushLog) := by
    intro earlier mode entry later hSplit middle replies _
    have hMem : (mode, entry) ∈ entriesWithMode pushLog := hSplit ▸ List.mem_append_cons_self
    rcases List.mem_pair.mp hMem with hEntry | hEntry <;> cases hEntry
    · rintro _ ⟨⟩
      exact ⟨⟨rfl, fun _ => by decide +kernel⟩, fun before called _ => hCalls before.vm called⟩
    · rintro _ ⟨⟩
      exact ⟨⟨rfl, fun _ => by decide +kernel⟩, fun before called _ => hCalls before.vm called⟩
  have hRun : (execute pushScript .quiet 50 holdingK (applyBatches pushLog)).isSome = true := by
    decide +kernel
  obtain ⟨⟨t, replies⟩, hRun⟩ := Option.isSome_iff_exists.mp hRun
  exact ⟨t, replies, runs_of_execute hRun, untouched_by_log hSpare (runs_of_execute hRun)⟩

end CacheCat.StateMachine
