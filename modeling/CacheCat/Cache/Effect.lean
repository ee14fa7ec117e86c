import CacheCat.Cache.Request
import CacheCat.Cache.Visible
import CacheCat.Library.Contract

/-! What the handlers do to the live entries. The view of a cache leaves out what
no command can see: entries that have expired, the queue of a snapshot, and the
state of the Lua machine. Each handler takes the view to a known one and replies
with a known value. -/
namespace CacheCat

/-- The command that `execute_compute` runs for an operation. The others have
handlers of their own. -/
def BaseOperation.computeCommand (order : HashOrder) : BaseOperation → Option ComputeCommand
  | .set req => some req.computeCommand
  | .expire req => some req.computeCommand
  | .pExpire req => some req.computeCommand
  | .lPush req => some req.computeCommand
  | .incr req => some req.computeCommand
  | .incrBy req => some req.computeCommand
  | .append req => some req.computeCommand
  | .hSet req => some req.computeCommand
  | .hIncr req => some req.computeCommand
  | .zAdd req => some req.computeCommand
  | .sAdd req => some req.computeCommand
  | .persist req => some req.computeCommand
  | .insert req => some req.computeCommand
  | .hDel req => some req.computeCommand
  | .sRem req => some req.computeCommand
  | .setBit req => some req.computeCommand
  | .lPop req => some req.computeCommand
  | .rPush req => some req.computeCommand
  | .rPop req => some req.computeCommand
  | .lRem req => some req.computeCommand
  | .lSet req => some req.computeCommand
  | .decrBy req => some req.computeCommand
  | .hSetNx req => some req.computeCommand
  | .decr req => some req.computeCommand
  | .zRem req => some req.computeCommand
  | .lTrim req => some req.computeCommand
  | .bitField req => some req.computeCommand
  | .sPop req => some (req.computeCommand order)
  | .zPopMin req => some req.computeCommand
  | .zIncrBy req => some req.computeCommand
  | .hMSet req => some req.computeCommand
  | .pfAdd req => some req.computeCommand
  | .empty | .del _ | .unlink _ | .flushDB _ | .flushAll _ | .sInterStore _ => none

namespace Cache

open Library (Program)
open Mocha (ExpirePolicy MochaOperation resolveExpireAt)

@[ext] structure View where
  count : Nat
  writeClock : Nat
  readersLocked : Bool
  live : Nat → Bytes → Option Entry

def State.view {Vm : Type} (s : State Vm) : View :=
  ⟨s.count, s.writeClock, s.readersLocked, s.live⟩

namespace View

variable (view : View)

/-- The entry under a key after it has been written, if its deadline lies ahead. -/
def put (db : Nat) (key : Bytes) (entry : Entry) : View :=
  { view with live := fun other k =>
      if other = db ∧ k = key then (some entry).filter fun entry => !entry.expired view.writeClock
      else view.live other k }

def drop (db : Nat) (key : Bytes) : View :=
  { view with live := fun other k => if other = db ∧ k = key then none else view.live other k }

def clear (db : Nat) : View :=
  { view with live := fun other k => if other = db then none else view.live other k }

/-- The write clock moves forward, and what has expired by then is gone. -/
def tick (clock : Nat) : View :=
  { view with
    writeClock := max view.writeClock clock
    live := fun db key =>
      (view.live db key).filter fun entry => !entry.expired (max view.writeClock clock) }

def lock (locked : Bool) : View := { view with readersLocked := locked }

/-- What is visible under a key: the data and the deadline. -/
def visible (db : Nat) (key : Bytes) : Option (ValueObject × Option Nat) :=
  (view.live db key).map Entry.view

/-- What a mocha operation leaves under its key. -/
def store (db : Nat) (key : Bytes) : MochaOperation MyValue → View
  | .insert value expire => view.put db key ⟨value, resolveExpireAt view.writeClock expire⟩
  | .remove => view.drop db key
  | .abort => view

/-- The effects of the queries that the view decides, up to what the surroundings
put into a reply. -/
def effect (view : View) : (query : Query) → View → query.Answer → Prop
  | .databaseCount, after, answer => after = view ∧ answer = view.count
  | .getEntry db key, after, answer => after = view ∧ answer = view.live db key
  | .insertEntry db key value policy, after, _ =>
    after = view.put db key ⟨value, resolveExpireAt view.writeClock policy⟩
  | .remove db key, after, answer =>
    after = view.drop db key ∧ answer = (view.live db key).map (·.value)
  | .unlink db key, after, answer =>
    after = view.drop db key ∧ answer = (view.live db key).isSome
  | .clear db, after, _ => after = view.clear db
  | .activeExpireCycle _, after, _ => after = view
  | .environment, after, _ => after = view
  | .reply _ execute, after, answer => after = view ∧ ∃ env, answer = execute env
  | .push _, after, _ => after = view
  | .lockReaders, after, _ => view.readersLocked = false ∧ after = view.lock true
  | .unlockReaders, after, _ => after = view.lock false
  | .setWriteClock clock, after, answer =>
    after = view.tick clock ∧ answer = max view.writeClock clock
  | _, _, _ => False

@[simp] theorem lock_live (locked : Bool) : (view.lock locked).live = view.live := rfl

theorem put_live (db other : Nat) (key k : Bytes) (entry : Entry) :
    (view.put db key entry).live other k =
      if other = db ∧ k = key then (some entry).filter fun entry => !entry.expired view.writeClock
      else view.live other k := rfl

end View

/-- No live entry has reached its deadline. -/
def View.Unexpired (view : View) : Prop :=
  ∀ db key entry, view.live db key = some entry → entry.expired view.writeClock = false

/-! ### The machine shows its view -/

section

variable {Vm : Type} (s : State Vm)

theorem State.view_unexpired : s.view.Unexpired := by
  intro db key entry hLive
  have hDeadline := (Option.filter_eq_some_iff.mp hLive).2
  rwa [Bool.not_eq_true'] at hDeadline

theorem view_setDatabase_of_live {db : Nat} {map : Mocha.Table Bytes MyValue} {view : View}
    (hCount : view.count = s.count) (hClock : view.writeClock = s.writeClock)
    (hLocked : view.readersLocked = s.readersLocked)
    (hLive : ∀ other k, (s.setDatabase db map).live other k = view.live other k) :
    (s.setDatabase db map).view = view := by
  refine View.ext hCount.symm hClock.symm hLocked.symm ?_
  funext other k
  exact hLive other k

theorem view_dropExpired (db : Nat) (key : Bytes) : (s.dropExpired db key).view = s.view := by
  have hRest : (s.dropExpired db key).count = s.count ∧
      (s.dropExpired db key).writeClock = s.writeClock ∧
      (s.dropExpired db key).readersLocked = s.readersLocked := by
    unfold State.dropExpired
    split
    · exact ⟨rfl, rfl, rfl⟩
    · exact ⟨rfl, rfl, rfl⟩
  refine View.ext hRest.1 hRest.2.1 hRest.2.2 ?_
  funext other k
  exact s.live_dropExpired db other key k

theorem view_setWriteClock (clock : Nat) :
    ({ s with writeClock := max s.writeClock clock } : State Vm).view = s.view.tick clock := by
  refine View.ext rfl rfl rfl ?_
  funext db key
  exact s.live_setWriteClock db key _ (le_max_left ..)

/-- A performed query does what its effect says. -/
theorem effect_of_handle {lua : LuaMachine Vm} {env : Env} {query : Query} {t : State Vm}
    {answer : query.Answer} (hHandle : handle lua env s query = some (t, answer))
    (hEffect : ∃ after answer, s.view.effect query after answer) :
    s.view.effect query t.view answer := by
  cases query with
  | databaseCount => cases hHandle; exact ⟨rfl, rfl⟩
  | getEntry db key => cases hHandle; exact ⟨view_dropExpired s db key, rfl⟩
  | insertEntry db key value policy =>
    cases hHandle
    exact view_setDatabase_of_live s rfl rfl rfl fun other k => s.live_insert db other key k _
  | remove db key =>
    cases hHandle
    exact ⟨view_setDatabase_of_live s rfl rfl rfl fun other k => s.live_erase db other key k, rfl⟩
  | unlink db key =>
    cases hHandle
    exact ⟨view_setDatabase_of_live s rfl rfl rfl fun other k => s.live_unlinked db other key k,
      s.unlinked_snd db key⟩
  | clear db =>
    cases hHandle
    exact view_setDatabase_of_live s rfl rfl rfl fun other k => s.live_clear db other k
  | activeExpireCycle db =>
    cases hHandle
    exact view_setDatabase_of_live s rfl rfl rfl fun other k => s.live_reclaimed db other k
  | environment | push request | unlockReaders => cases hHandle; rfl
  | reply forScript execute => cases hHandle; exact ⟨rfl, env, rfl⟩
  | lockReaders =>
    obtain ⟨_, _, hFree, _⟩ := hEffect
    have hState : s.readersLocked = false := hFree
    simp only [handle, hState, Bool.false_eq_true, if_false, Option.some.injEq,
      Prod.mk.injEq] at hHandle
    obtain ⟨rfl, _⟩ := hHandle
    exact ⟨hFree, rfl⟩
  | setWriteClock clock =>
    cases hHandle
    exact ⟨view_setWriteClock s clock, rfl⟩
  | _ =>
    obtain ⟨_, _, hFalse⟩ := hEffect
    exact hFalse.elim

theorem handle_of_effect (lua : LuaMachine Vm) (env : Env) {query : Query} {after : View}
    {answer : query.Answer} (hEffect : s.view.effect query after answer) :
    procedure query = none ∧ ∃ t answer, handle lua env s query = some (t, answer) := by
  cases query with
  | lockReaders =>
    have hFree : s.readersLocked = false := hEffect.1
    exact ⟨rfl, _, _, if_neg (by simp [hFree])⟩
  | databaseCount | getEntry | insertEntry | remove | unlink | clear | activeExpireCycle
  | environment | reply | push | unlockReaders | setWriteClock =>
    exact ⟨rfl, _, _, rfl⟩
  | _ => exact hEffect.elim

theorem shows_view (lua : LuaMachine Vm) : (machine lua).Shows State.view View.effect where
  disturb s t hDisturb := by
    cases hDisturb with
    | expire db key => exact view_dropExpired s db key
    | interrupt => rfl
  answered s query after answer hEffect := by
    obtain ⟨hQuery, t, given, hHandle⟩ := handle_of_effect s lua .quiet hEffect
    exact ⟨hQuery, t, given, .quiet, hHandle⟩
  perform s query t answer := fun ⟨_, hHandle⟩ hEffect => effect_of_handle s hHandle hEffect

theorem view_of_runs_done {lua : LuaMachine Vm} {A : Type} {s t : State Vm} {a b : A}
    (hRun : (machine lua).Runs s (.done a) t b) : t.view = s.view ∧ b = a := by
  have hDone : (Program.done a : Action A).Settles View.effect
      (fun after result => after = s.view ∧ result = a) s.view := ⟨rfl, rfl⟩
  exact hRun.settles (shows_view lua) hDone

end

/-! ### Single queries -/

section

variable {view : View} (db : Nat) (key : Bytes)

@[simp] theorem settles_databaseCount {post : View → Nat → Prop} :
    (ask .databaseCount).Settles View.effect post view ↔ post view view.count :=
  Program.settles_call fun _ _ => Iff.rfl

@[simp] theorem settles_getEntry {post : View → Option Entry → Prop} :
    (ask (.getEntry db key)).Settles View.effect post view ↔ post view (view.live db key) :=
  Program.settles_call fun _ _ => Iff.rfl

variable {post : View → Unit → Prop}

@[simp] theorem settles_insertEntry (value : MyValue) (policy : ExpirePolicy) :
    (ask (.insertEntry db key value policy)).Settles View.effect post view ↔
      post (view.put db key ⟨value, resolveExpireAt view.writeClock policy⟩) () :=
  Program.settles_call fun _ _ => ⟨fun h => ⟨h, rfl⟩, And.left⟩

@[simp] theorem settles_remove {post : View → Option MyValue → Prop} :
    (ask (.remove db key)).Settles View.effect post view ↔
      post (view.drop db key) ((view.live db key).map (·.value)) :=
  Program.settles_call fun _ _ => Iff.rfl

@[simp] theorem settles_unlink {post : View → Bool → Prop} :
    (ask (.unlink db key)).Settles View.effect post view ↔
      post (view.drop db key) (view.live db key).isSome :=
  Program.settles_call fun _ _ => Iff.rfl

@[simp] theorem settles_clear :
    (ask (.clear db)).Settles View.effect post view ↔ post (view.clear db) () :=
  Program.settles_call fun _ _ => ⟨fun h => ⟨h, rfl⟩, And.left⟩

@[simp] theorem settles_environment {post : View → Env → Prop} :
    (ask .environment).Settles View.effect post view ↔ ∀ env, post view env := by
  exact ⟨fun h env => h.2 view env rfl,
    fun h => ⟨⟨view, .quiet, rfl⟩, fun after env hAfter => hAfter ▸ h env⟩⟩

@[simp] theorem settles_reply {post : View → Value → Prop} (forScript : Bool)
    (execute : Env → Value) :
    (ask (.reply forScript execute)).Settles View.effect post view ↔
      ∀ env, post view (execute env) := by
  constructor
  · intro h env
    exact h.2 view (execute env) ⟨rfl, env, rfl⟩
  · intro h
    refine ⟨⟨view, execute .quiet, rfl, .quiet, rfl⟩, ?_⟩
    rintro after answer ⟨rfl, env, rfl⟩
    exact h env

@[simp] theorem settles_push (request : AtomicRequest) :
    (ask (.push request)).Settles View.effect post view ↔ post view () :=
  Program.settles_call fun _ _ => ⟨fun h => ⟨h, rfl⟩, And.left⟩

@[simp] theorem settles_setWriteClock {post : View → Nat → Prop} (clock : Nat) :
    (ask (.setWriteClock clock)).Settles View.effect post view ↔
      post (view.tick clock) (max view.writeClock clock) :=
  Program.settles_call fun _ _ => Iff.rfl

@[simp] theorem settles_lockReaders :
    (ask .lockReaders).Settles View.effect post view ↔
      view.readersLocked = false ∧ post (view.lock true) () := by
  constructor
  · rintro ⟨⟨after, answer, hFree, rfl⟩, hPost⟩
    exact ⟨hFree, hPost _ () ⟨hFree, rfl⟩⟩
  · rintro ⟨hFree, hPost⟩
    refine ⟨⟨_, (), hFree, rfl⟩, ?_⟩
    rintro after answer ⟨_, rfl⟩
    exact hPost

@[simp] theorem settles_unlockReaders :
    (ask .unlockReaders).Settles View.effect post view ↔ post (view.lock false) () :=
  Program.settles_call fun _ _ => ⟨fun h => ⟨h, rfl⟩, And.left⟩

end

/-! ### Handlers -/

section

variable {view : View} {post : View → Value → Prop}

variable (forScript : Bool) (db : Nat)

@[simp] theorem settles_withDatabase (missing : Value) (body : Action Value) :
    (withDatabase db missing body).Settles View.effect post view ↔
      if db < view.count then body.Settles View.effect post view else post view missing := by
  simp only [withDatabase, Program.settles_bind, settles_databaseCount]
  split <;> rfl

@[simp] theorem settles_store (key : Bytes) (operation : MochaOperation MyValue)
    {post : View → Unit → Prop} :
    (store db key operation).Settles View.effect post view ↔
      post (view.store db key operation) () := by
  cases operation with
  | insert value expire => exact settles_insertEntry db key value expire
  | remove => simp [store, View.store]
  | abort => rfl

@[simp] theorem settles_pushRequest (update : Update) (request : BaseOperation) (version : Nat)
    {post : View → Unit → Prop} :
    (pushRequest update request version).Settles View.effect post view ↔ post view () := by
  unfold pushRequest
  split
  · exact settles_push _
  · rfl

/-- On a missing key: what `init` makes, but an aborting `init` is answered by the
dispatcher. -/
theorem settles_initCompute (command : ComputeCommand) :
    (initCompute db command).Settles View.effect post view ↔
      post (view.store db command.key command.init.1)
        (if command.init.1 = .abort then keyNotFound else command.init.2) := by
  unfold initCompute
  split
  next hInit => simp [hInit, View.store]
  next hInit => simp [show command.init.1 ≠ .abort from hInit]

variable {update : Update} {command : ComputeCommand}

theorem settles_finishCompute (hMode : ∀ version, update.updateType ≠ .cas version)
    (request : BaseOperation) (key : Bytes) (current : Option Nat)
    (result : MochaOperation MyValue × Value) :
    (finishCompute update request key current result).Settles View.effect post view ↔
      post (view.store update.dbNumber key result.1) result.2 := by
  unfold finishCompute
  split
  next version hCas => exact absurd hCas (hMode version)
  · simp

/-- What a write command makes of the view, outside the replay of a queue. -/
def View.compute (view : View) (update : Update) (command : ComputeCommand) : View × Value :=
  match view.live update.dbNumber command.key with
  | none =>
    (view.store update.dbNumber command.key command.init.1,
      if command.init.1 = .abort then keyNotFound else command.init.2)
  | some entry =>
    (view.store update.dbNumber command.key (command.mutate entry update.writeClock).1,
      (command.mutate entry update.writeClock).2)

theorem compute_of_missing {content : ValueObject} {reply : Value}
    (hMissing : view.live update.dbNumber command.key = none)
    (hInit : command.init = (.insert (.new content) .persistent, reply)) :
    (view.compute update command).2 = reply ∧
      (view.compute update command).1.visible update.dbNumber command.key =
        some (content, none) := by
  simp [View.compute, hMissing, hInit, View.store, View.visible, View.put_live,
    Mocha.resolveExpireAt, Mocha.EntrySnapshot.expired, Option.filter_some, Entry.view, MyValue.new]

theorem View.compute_of_live {entry : Entry} {operation : MochaOperation MyValue} {reply : Value}
    (hLive : view.live update.dbNumber command.key = some entry)
    (hMutate : command.mutate entry update.writeClock = (operation, reply)) :
    view.compute update command = (view.store update.dbNumber command.key operation, reply) := by
  simp only [View.compute, hLive, hMutate]

theorem View.Unexpired.compute_keep (hUnexpired : view.Unexpired) {entry : Entry} {value : MyValue}
    {reply : Value} (hLive : view.live update.dbNumber command.key = some entry)
    (hMutate : command.mutate entry update.writeClock =
      (.insert value entry.getExpirePolicy, reply)) :
    (view.compute update command).1.visible update.dbNumber command.key =
      some (value.data, entry.expireAt) := by
  have hDeadline := hUnexpired _ _ _ hLive
  simp only [Mocha.EntrySnapshot.expired] at hDeadline
  rw [View.compute_of_live hLive hMutate]
  simp [View.store, View.visible, View.put_live, Mocha.resolveExpireAt_getExpirePolicy,
    Mocha.EntrySnapshot.expired, hDeadline, Option.filter_some, Entry.view]

theorem settles_executeCompute (hMode : ∀ version, update.updateType ≠ .cas version)
    (hDb : update.dbNumber < view.count) (request : BaseOperation) (command : ComputeCommand) :
    (executeCompute update request command).Settles View.effect post view ↔
      post (view.compute update command).1 (view.compute update command).2 := by
  simp only [executeCompute, settles_withDatabase, if_pos hDb, Program.settles_bind,
    settles_getEntry, View.compute]
  cases view.live update.dbNumber command.key with
  | none => exact settles_initCompute ..
  | some entry => exact settles_finishCompute hMode ..

@[simp] theorem settles_withReadersLocked (body : Action Value) :
    (withReadersLocked body).Settles View.effect post view ↔
      view.readersLocked = false ∧
        body.Settles View.effect (fun after reply => post (after.lock false) reply)
          (view.lock true) := by
  simp [withReadersLocked]

/-- The entry that a read finds: a live one that has not expired at the read clock. -/
def View.found (view : View) (db : Nat) (readClock : Option Nat) (key : Bytes) : Option Entry :=
  (view.live db key).filter fun entry => !readClock.any entry.expired

/-- The surroundings may show in the reply of a read. -/
theorem settles_executeRead {db : Nat} (hDb : db < view.count) (readClock : Option Nat)
    (command : ReadCommand) :
    (executeRead forScript db readClock command).Settles View.effect post view ↔
      ∀ env, post view (command.execute (view.found db readClock command.key) env) := by
  simp [executeRead, getWithReadClock, hDb, View.found]

theorem settles_executeMultiRead {db : Nat} (hDb : db < view.count) (readClock : Option Nat)
    (command : MultiReadCommand) :
    (executeMultiRead forScript db readClock command).Settles View.effect post view ↔
      ∀ env, post view (command.execute (command.keys.map (view.found db readClock)) env) := by
  have hEntry (key : Bytes) (post : View → Option Entry → Prop) :
      (getWithReadClock db key readClock).Settles View.effect post view ↔
        post view (view.found db readClock key) := by
    simp [getWithReadClock, View.found]
  rw [executeMultiRead, settles_withDatabase, if_pos hDb, Program.settles_bind,
    Program.settles_mapM hEntry, settles_reply]

end

/-! ### Runs of reads -/

section

variable {Vm : Type} (lua : LuaMachine Vm) (s : State Vm) {t : State Vm} (db : Nat)
    (readClock : Option Nat)

theorem runs_getWithReadClock (key : Bytes) :
    (machine lua).Runs s (getWithReadClock db key readClock) (s.dropExpired db key)
      (s.view.found db readClock key) :=
  .perform rfl ⟨.quiet, rfl⟩ (.done _ _)

theorem runs_getAll (keys : List Bytes) :
    ∃ t, (machine lua).Runs s (keys.mapM fun key => getWithReadClock db key readClock) t
      (keys.map (s.view.found db readClock)) ∧ t.view = s.view := by
  induction keys generalizing s with
  | nil => exact ⟨s, .done s _, rfl⟩
  | cons key keys ih =>
    have hFirst := runs_getWithReadClock lua s db readClock key
    obtain ⟨t, hRest, hView⟩ := ih (s.dropExpired db key)
    rw [view_dropExpired] at hRest hView
    refine ⟨t, ?_, hView⟩
    rw [List.mapM_cons]
    exact hFirst.bind (hRest.bind (.done t _))

variable {s db}

theorem runs_withDatabase (hDb : db < s.count) {missing reply : Value} {body : Action Value}
    (hBody : (machine lua).Runs s body t reply) :
    (machine lua).Runs s (withDatabase db missing body) t reply := by
  refine .perform rfl ⟨.quiet, rfl⟩ ?_
  change (machine lua).Runs s (if db < s.count then body else .done missing) t reply
  rw [if_pos hDb]
  exact hBody

/-- Every run of a read of one key answers in some surroundings, and each may be met. -/
theorem everyRun_read (post : Value → Prop) {operation : ReadOperation} {command : ReadCommand}
    (hHandler : readHandler operation = .one command) (hDb : db < s.count) (forScript : Bool) :
    ((machine lua).EveryRun s (readRequest forScript db readClock operation)
      fun _ reply => post reply) ↔
      ∀ env, post (command.execute (s.view.found db readClock command.key) env) := by
  simp only [readRequest, hHandler]
  constructor
  · rintro ⟨-, hPost⟩ env
    refine hPost (s.dropExpired db command.key) _ (runs_withDatabase lua hDb ?_)
    refine (runs_getWithReadClock lua s db readClock command.key).bind ?_
    exact .perform rfl ⟨env, rfl⟩ (.done _ _)
  · intro hPost
    have hSettles : (executeRead forScript db readClock command).Settles View.effect
        (fun _ reply => post reply) s.view := (settles_executeRead forScript hDb ..).mpr hPost
    exact (shows_view lua).everyRun hSettles

end

/-! ### Dispatch of the write commands -/

section

variable {view : View} {post : View → Value → Prop} {update : Update} {order : HashOrder}
    {operation : BaseOperation} {command : ComputeCommand}

theorem settles_baseRequest (hCommand : operation.computeCommand order = some command) :
    (baseRequest update operation).Settles View.effect post view ↔
      (executeCompute update operation command).Settles View.effect post view := by
  cases operation with
  | empty | del | unlink | flushDB | flushAll | sInterStore => cases hCommand
  | sPop req =>
    cases hCommand
    simp only [baseRequest, Program.settles_bind, settles_environment]
    constructor
    · intro h
      exact req.computeCommand_order Env.quiet.order order ▸ h .quiet
    · intro h env
      exact req.computeCommand_order order env.order ▸ h
  | _ => cases hCommand; rfl

variable {Vm : Type} {lua : LuaMachine Vm} {s : State Vm}

/-- Every run of a write command leaves what `View.compute` says. -/
theorem everyRun_write (post : View → Value → Prop)
    (hCommand : operation.computeCommand order = some command)
    (hMode : ∀ version, update.updateType ≠ .cas version) (hDb : update.dbNumber < s.count) :
    ((machine lua).EveryRun s (baseRequest update operation) fun t reply => post t.view reply) ↔
      post (s.view.compute update command).1 (s.view.compute update command).2 := by
  refine (shows_view lua).everyRun_iff ?_ post
  rw [settles_baseRequest hCommand, settles_executeCompute hMode hDb]
  exact ⟨rfl, rfl⟩

variable (post : Option (ValueObject × Option Nat) → Value → Prop)
    (hCommand : operation.computeCommand .sorted = some command)
    (hMode : ∀ version, update.updateType ≠ .cas version) (hDb : update.dbNumber < s.count)
    {entry : Entry} (hLive : s.live update.dbNumber command.key = some entry) {reply : Value}

include hCommand hMode hDb hLive

/-- A write that replaces the data of a live entry. -/
theorem everyRun_keep {value : MyValue} (hMutate : command.mutate entry update.writeClock =
      (.insert value entry.getExpirePolicy, reply)) :
    ((machine lua).EveryRun s (baseRequest update operation) fun t given =>
      post (t.visible update.dbNumber command.key) given) ↔
        post (some (value.data, entry.expireAt)) reply := by
  have hReply : (s.view.compute update command).2 = reply :=
    congrArg Prod.snd (View.compute_of_live hLive hMutate)
  rw [← s.view_unexpired.compute_keep hLive hMutate, ← hReply]
  exact everyRun_write (fun after => post (after.visible update.dbNumber command.key)) hCommand
    hMode hDb

/-- A write that refuses a live entry. -/
theorem everyRun_abort (hMutate : command.mutate entry update.writeClock = (.abort, reply)) :
    ((machine lua).EveryRun s (baseRequest update operation) fun t given =>
      post (t.visible update.dbNumber command.key) given) ↔
        post (s.visible update.dbNumber command.key) reply := by
  have hCompute : s.view.compute update command = (s.view, reply) :=
    View.compute_of_live hLive hMutate
  refine (everyRun_write (fun after => post (after.visible update.dbNumber command.key)) hCommand
    hMode hDb).trans ?_
  rw [hCompute]
  rfl

end

/-- A store with one value under one key. -/
def holding (data : ValueObject) : State Unit :=
  (State.new 1 ()).setDatabase 0 (((State.new 1 ()).databases 0).insert [107] ⟨.new data, none⟩)

end Cache
end CacheCat
