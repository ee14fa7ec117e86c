import CacheCat.Cache.Effect

/-! What a request asks for. Every handler looks at the maps, writes under the keys that
its command names, and in snapshot mode pushes to the queue; only a flush clears a map,
and only a script makes queries of its own. Whoever may ask all this may run the
request. -/
namespace CacheCat

/-- The keys that a write command may write to. -/
def BaseOperation.names (operation : BaseOperation) : List Bytes :=
  match operation with
  | .empty | .flushDB _ | .flushAll _ => []
  | .del req => [req.key]
  | .unlink req => [req.key]
  | .sInterStore req => [req.key]
  | operation => ((operation.computeCommand .sorted).map (·.key)).toList

namespace Cache

open Library (Program)
open Mocha (MochaOperation)

/-! ### Operation trees -/

/-- The two handlers that take the lock whoever calls them. -/
def BaseOperation.takesLock : BaseOperation → Bool
  | .flushDB _ => true
  | .flushAll _ => true
  | _ => false

/-- The pattern of KEYS stays inside its bounds on every key. -/
def ReadOperation.InBounds : ReadOperation → Prop
  | .keys params => ∀ key, Glob.isMatch params.pattern key ≠ none
  | _ => True

mutual

def hasEval : Operation → Bool
  | .base _ => false
  | .read _ => false
  | .redis operation => redisHasEval operation

def redisHasEval : RedisOperation → Bool
  | .redisEval _ => true
  | .redisExec operations => anyHasEval operations
  | _ => false

def anyHasEval : List Operation → Bool
  | [] => false
  | operation :: operations => hasEval operation || anyHasEval operations

end

/-- Neither a script nor a transaction. -/
def redisIsPlain : RedisOperation → Bool
  | .redisEval _ => false
  | .redisExec _ => false
  | _ => true

mutual

def noFlush : Operation → Bool
  | .base operation => !BaseOperation.takesLock operation
  | .read _ => true
  | .redis operation => redisNoFlush operation

def redisNoFlush : RedisOperation → Bool
  | .redisExec operations => allNoFlush operations
  | _ => true

def allNoFlush : List Operation → Bool
  | [] => true
  | operation :: operations => noFlush operation && allNoFlush operations

end

/-- The commands that store more than strings and what they have found. -/
def redisCombines : RedisOperation → Bool
  | .redisSUnionStore _ => true
  | .redisSDiffStore _ => true
  | _ => false

mutual

def names : Operation → List Bytes
  | .base operation => operation.names
  | .read _ => []
  | .redis operation => redisNames operation

/-- A script names the keys of the commands it calls, when it calls them. -/
def redisNames : RedisOperation → List Bytes
  | .redisSet params => [params.key]
  | .redisSetNx params => [params.key]
  | .redisSetEx params => [params.key]
  | .redisPSetEx params => [params.key]
  | .redisGetSet params => [params.key]
  | .redisMset params => params.pairs.map Prod.fst
  | .redisDel params => params.keys
  | .redisUnlink params => params.keys
  | .redisRename params => [params.key, params.newKey]
  | .redisRenameNx params => [params.key, params.newKey]
  | .redisSUnionStore params => [params.key]
  | .redisSDiffStore params => [params.key]
  | .redisExec operations => allNames operations
  | .redisEval _ => []

def allNames : List Operation → List Bytes
  | [] => []
  | operation :: operations => names operation ++ allNames operations

end

/-- The script calls an operation of a database. -/
def ScriptEvent.Calls (operation : Operation) : ScriptEvent → Prop
  | .call args => args ≠ [] ∧ RaftCommand.parseRequest (args.map .simpleString) = .ok operation
  | .pcall args => args ≠ [] ∧ RaftCommand.parseRequest (args.map .simpleString) = .ok operation
  | _ => False

/-! ### What is stored -/

/-- A value that the operation stores has the property. -/
def Stores (Good : ValueObject → Prop) : MochaOperation MyValue → Prop
  | .insert value _ => Good value.data
  | .remove => True
  | .abort => True

section

variable {Good : ValueObject → Prop}

theorem stores_bumpVersion {operation : MochaOperation MyValue} (hStores : Stores Good operation) :
    Stores Good (bumpVersion operation) := by
  cases operation <;> exact hStores

theorem stores_of_forall (hGood : ∀ data, Good data) (operation : MochaOperation MyValue) :
    Stores Good operation := by
  cases operation with
  | insert value expire => exact hGood value.data
  | remove | abort => trivial

end

/-- Whatever it finds, the command stores only values with the property. -/
structure StoresAlways (Good : ValueObject → Prop) (command : ComputeCommand) : Prop where
  init : Stores Good command.init.1
  mutate : ∀ entry clock, Stores Good (command.mutate entry clock).1

theorem storesAlways_of_forall {Good : ValueObject → Prop} (hGood : ∀ data, Good data)
    (command : ComputeCommand) : StoresAlways Good command :=
  ⟨stores_of_forall hGood _, fun _ _ => stores_of_forall hGood _⟩

/-- The same of a write command, whichever handler it has. -/
def BaseOperation.StoresOnly (Good : ValueObject → Prop) : BaseOperation → Prop
  | .sInterStore req => ∀ entries clock, Stores Good (req.computeCommand.mutate entries clock).1
  | operation => ∀ order command, operation.computeCommand order = some command →
      StoresAlways Good command

theorem BaseOperation.storesOnly_of_forall {Good : ValueObject → Prop} (hGood : ∀ data, Good data)
    (operation : BaseOperation) : BaseOperation.StoresOnly Good operation := by
  cases operation with
  | sInterStore req => exact fun _ _ => stores_of_forall hGood _
  | _ => exact fun _ command _ => storesAlways_of_forall hGood command

/-! ### Permissions -/

/-- In this mode requests go to the queue. -/
abbrev Update.Queues (update : Update) : Prop := update.updateType = .snapshot

/-- The queries of every handler. -/
def Query.Looks : Query → Prop
  | .databaseCount | .getEntry .. | .liveKeys .. | .activeExpireCycle _ | .environment | .len ..
  | .reply .. => True
  | _ => False

/-- The queries that only a running script makes. -/
def Query.OfScript : Query → Prop
  | .beginScript => True
  | .enterScript _ => True
  | .advanceScript => True
  | .resumeScript _ => True
  | .interrupted => True
  | .endScript _ => True
  | .runScript _ => True
  | _ => False

/-- Only the queries of scripts reach the Lua machine. -/
theorem vm_of_handle {Vm : Type} {lua : LuaMachine Vm} {env : Env} {s t : State Vm} {query : Query}
    (hScript : ¬ query.OfScript) {answer : query.Answer}
    (h : handle lua env s query = some (t, answer)) :
    t.vm = s.vm ∧ t.running = s.running ∧ t.interruptFlag = s.interruptFlag := by
  cases query with
  | getEntry db key =>
    cases h
    unfold State.dropExpired
    split <;> exact ⟨rfl, rfl, rfl⟩
  | lockReaders =>
    simp only [handle] at h
    split_ifs at h
    cases h
    exact ⟨rfl, rfl, rfl⟩
  | panic => cases h
  | beginScript | enterScript params | advanceScript | resumeScript reply | interrupted
  | endScript finished | runScript update => exact absurd trivial hScript
  | _ =>
    cases h
    exact ⟨rfl, rfl, rfl⟩

/-- The queries of a script that runs under the update. -/
def Query.ScriptOf (update : Update) : Query → Prop
  | .runScript again => again = update
  | query => query.OfScript

section

variable (rely : (query : Query) → query.Answer → Prop) (allowed : Query → Prop)
    (Good : ValueObject → Prop)

/-- Where there is the database, values with the property may be put under the key. -/
def MayPut (db : Nat) (key : Bytes) : Prop :=
  ∀ count, rely .databaseCount count → db < count →
    (∀ value policy, Good value.data → allowed (.insertEntry db key value policy)) ∧
      allowed (.remove db key) ∧ allowed (.unlink db key)

/-- What every handler of an update needs. What it finds has the property, and so has a
string that SET stores. -/
structure Permits (update : Update) : Prop where
  looks : ∀ query : Query, query.Looks → allowed query
  pushes : update.Queues → ∀ request, allowed (.push request)
  finds : ∀ db key entry, rely (.getEntry db key) (some entry) → Good entry.value.data
  strings : ∀ req : SetReq, Good req.data

def MayLock : Prop := allowed .lockReaders ∧ allowed .unlockReaders

/-- Where there is the database, KEYS may panic. -/
def MayPanic (db : Nat) : Prop :=
  ∀ count, rely .databaseCount count → db < count → allowed .panic

end

section

variable {rely : (query : Query) → query.Answer → Prop} {allowed : Query → Prop}
    {Good : ValueObject → Prop}

theorem ask_relies {query : Query} {A : Type} {rest : query.Answer → Action A}
    (hQuery : allowed query)
    (hRest : ∀ answer, rely query answer → (rest answer).Relies rely allowed) :
    (ask query >>= rest).Relies rely allowed :=
  ⟨hQuery, hRest⟩

variable {key : Bytes} {body : Action Value} {external : Bool} {params : SetParams}

theorem store_relies {db : Nat} {operation : MochaOperation MyValue}
    (hInsert : ∀ value policy, Good value.data → allowed (.insertEntry db key value policy))
    (hRemove : allowed (.remove db key)) (hStores : Stores Good operation) :
    (store db key operation).Relies rely allowed := by
  cases operation with
  | insert value expire => exact ⟨hInsert value expire hStores, fun _ _ => trivial⟩
  | remove => exact ⟨hRemove, fun _ _ => trivial⟩
  | abort => trivial

theorem removeKeys_relies {remove : Bytes → Action Value} {keys : List Bytes}
    (hRemove : ∀ key ∈ keys, (remove key).Relies rely allowed) (count : Int) :
    (removeKeys remove keys count).Relies rely allowed := by
  induction keys generalizing count with
  | nil => trivial
  | cons key keys ih =>
    have hRest (count : Int) : (removeKeys remove keys count).Relies rely allowed :=
      ih (fun other hOther => hRemove other (List.mem_cons_of_mem _ hOther)) count
    refine (hRemove key List.mem_cons_self).bind fun reply => ?_
    split
    · trivial
    · exact hRest _
    · exact hRest _

theorem withReadersLocked_relies (hLock : MayLock allowed) (hBody : body.Relies rely allowed) :
    (withReadersLocked body).Relies rely allowed :=
  ask_relies hLock.1 fun _ _ => hBody.bind fun _ => ask_relies hLock.2 fun _ _ => trivial

theorem lockIf_relies (hLock : external = true → MayLock allowed)
    (hBody : body.Relies rely allowed) : (lockIf external body).Relies rely allowed := by
  cases external with
  | false => exact hBody
  | true => exact withReadersLocked_relies (hLock rfl) hBody

theorem execLua_relies {update : Update} (params : EvalParams)
    (hScript : ∀ query : Query, query.ScriptOf update → allowed query) :
    (execLua update params).Relies rely allowed := by
  refine ask_relies (hScript .beginScript trivial) fun _ _ => ?_
  refine ask_relies (hScript (.enterScript params) trivial) fun entered _ => ?_
  have hEnd (finished : Bool) (reply : Value) :
      (ask (.endScript finished) >>= fun _ => .done reply : Action Value).Relies rely allowed :=
    ask_relies (hScript (.endScript finished) trivial) fun _ _ => trivial
  cases entered with
  | error error => exact hEnd false _
  | ok _ => exact ask_relies (hScript (.runScript update) rfl) fun _ _ => hEnd true _

variable {update : Update} (h : Permits rely allowed Good update)

include h

theorem withDatabase_relies {db : Nat} {missing : Value}
    (hBody : ∀ count, rely .databaseCount count → db < count → body.Relies rely allowed) :
    (withDatabase db missing body).Relies rely allowed := by
  refine ⟨h.looks .databaseCount trivial, fun count hCount => ?_⟩
  change (if db < count then body else .done missing).Relies rely allowed
  split
  next hDb => exact hBody count hCount hDb
  · trivial

theorem getEntry_relies {db : Nat} {A : Type} {rest : Option Entry → Action A}
    (hRest : ∀ found, rely (.getEntry db key) found → (rest found).Relies rely allowed) :
    (ask (.getEntry db key) >>= rest).Relies rely allowed :=
  ask_relies (h.looks (.getEntry ..) trivial) hRest

theorem forEachDatabase_relies {action : Nat → Action Unit}
    (hAction : ∀ db, (action db).Relies rely allowed) :
    (forEachDatabase action).Relies rely allowed :=
  ask_relies (h.looks .databaseCount trivial) fun _ _ => .forM fun db _ => hAction db

variable (expiresAt : Nat) (existing : ExistingKey)
    (combine : Finset Bytes → Finset Bytes → Finset Bytes) (keys : List Bytes)
    (request : BaseOperation)

theorem pushRequest_relies (version : Nat) :
    (pushRequest update request version).Relies rely allowed := by
  unfold pushRequest
  split
  next hMode => exact ⟨h.pushes hMode _, fun _ _ => trivial⟩
  · trivial

theorem finishCompute_relies (current : Option Nat) {result : MochaOperation MyValue × Value}
    (hInsert : ∀ value policy, Good value.data →
      allowed (.insertEntry update.dbNumber key value policy))
    (hRemove : allowed (.remove update.dbNumber key)) (hStores : Stores Good result.1) :
    (finishCompute update request key current result).Relies rely allowed := by
  unfold finishCompute
  split
  · split
    · exact (store_relies hInsert hRemove (stores_bumpVersion hStores)).bind fun _ => trivial
    · trivial
  · refine (store_relies hInsert hRemove hStores).bind fun _ => ?_
    exact (pushRequest_relies h ..).bind fun _ => trivial

theorem executeCompute_relies {command : ComputeCommand}
    (hWrite : MayPut rely allowed Good update.dbNumber command.key)
    (hCommand : StoresAlways Good command) :
    (executeCompute update request command).Relies rely allowed := by
  refine withDatabase_relies h fun count hCount hDb => ?_
  obtain ⟨hInsert, hRemove, -⟩ := hWrite count hCount hDb
  refine getEntry_relies h fun found _ => ?_
  cases found with
  | none =>
    change (initCompute update.dbNumber command).Relies rely allowed
    unfold initCompute
    split
    · trivial
    · exact (store_relies hInsert hRemove hCommand.init).bind fun _ => trivial
  | some entry =>
    exact finishCompute_relies h request _ hInsert hRemove (hCommand.mutate entry _)

theorem executeMultiReadCompute_relies {command : MultiReadComputeCommand}
    (hWrite : MayPut rely allowed Good update.dbNumber command.writeKey)
    (hCommand : ∀ entries clock, Stores Good (command.mutate entries clock).1) :
    (executeMultiReadCompute update request command).Relies rely allowed := by
  refine withDatabase_relies h fun count hCount hDb => ?_
  obtain ⟨hInsert, hRemove, -⟩ := hWrite count hCount hDb
  have hFinish (current : Option Nat) (entries : List (Option Entry)) :
      (finishCompute update request command.writeKey current
        (command.mutate entries update.writeClock)).Relies rely allowed :=
    finishCompute_relies h request current hInsert hRemove (hCommand entries _)
  have hEntry (key : Bytes) : (ask (.getEntry update.dbNumber key)).Relies rely allowed :=
    ⟨h.looks (.getEntry ..) trivial, fun _ _ => trivial⟩
  refine Program.Relies.bind (.mapM hEntry) fun entries => ?_
  split
  · exact getEntry_relies h fun _ _ => hFinish _ entries
  · exact hFinish none entries

theorem removeKey_relies {remove : Action Bool}
    (hRemove : ∀ count, rely .databaseCount count → update.dbNumber < count →
      allowed (.remove update.dbNumber key) ∧ remove.Relies rely allowed) :
    (removeKey update request key remove).Relies rely allowed := by
  refine withDatabase_relies h fun count hCount hDb => ?_
  obtain ⟨hRemove, hBody⟩ := hRemove count hCount hDb
  split
  · refine getEntry_relies h fun entry _ => ?_
    split
    · exact ⟨hRemove, fun _ _ => trivial⟩
    · trivial
  · have hPush : (pushRemoval update request key).Relies rely allowed := by
      unfold pushRemoval
      split
      next hMode => exact getEntry_relies h fun _ _ => ⟨h.pushes hMode _, fun _ _ => trivial⟩
      · trivial
    exact hPush.bind fun _ => hBody.bind fun _ => trivial

theorem del_relies (req : DelReq) (hWrite : MayPut rely allowed Good update.dbNumber req.key) :
    (del update req).Relies rely allowed := by
  refine removeKey_relies h _ fun count hCount hDb => ?_
  obtain ⟨-, hRemove, -⟩ := hWrite count hCount hDb
  exact ⟨hRemove, hRemove, fun _ _ => trivial⟩

theorem unlink_relies (req : UnlinkReq)
    (hWrite : MayPut rely allowed Good update.dbNumber req.key) :
    (unlink update req).Relies rely allowed := by
  refine removeKey_relies h _ fun count hCount hDb => ?_
  obtain ⟨-, hRemove, hUnlink⟩ := hWrite count hCount hDb
  exact ⟨hRemove, hUnlink, fun _ _ => trivial⟩

/-- A flush takes the lock and clears maps. -/
theorem baseRequest_flush {operation : BaseOperation}
    (hFlush : BaseOperation.takesLock operation = true) (hClear : ∀ db, allowed (.clear db)) :
    ∃ body, body.Relies rely allowed ∧ baseRequest update operation = withReadersLocked body := by
  cases operation with
  | flushDB req =>
    refine ⟨_, withDatabase_relies h fun _ _ _ => ?_, rfl⟩
    exact (pushRequest_relies h ..).bind fun _ => ask_relies (hClear _) fun _ _ => trivial
  | flushAll req =>
    refine ⟨_, (pushRequest_relies h ..).bind fun _ => ?_, rfl⟩
    refine (forEachDatabase_relies h fun db => ?_).bind fun _ => trivial
    exact ⟨hClear db, fun _ _ => trivial⟩
  | _ => cases hFlush

theorem baseRequest_relies {operation : BaseOperation}
    (hFlush : BaseOperation.takesLock operation = true → MayLock allowed ∧
      ∀ db, allowed (.clear db))
    (hWrite : ∀ key ∈ operation.names, MayPut rely allowed Good update.dbNumber key)
    (hStores : BaseOperation.StoresOnly Good operation) :
    (baseRequest update operation).Relies rely allowed := by
  by_cases hTakes : BaseOperation.takesLock operation = true
  · obtain ⟨hLock, hClear⟩ := hFlush hTakes
    obtain ⟨body, hBody, hEq⟩ := baseRequest_flush h hTakes hClear
    rw [hEq]
    exact withReadersLocked_relies hLock hBody
  cases operation with
  | flushDB | flushAll => exact absurd rfl hTakes
  | empty =>
    refine (forEachDatabase_relies h fun db => ?_).bind fun _ => trivial
    exact ⟨h.looks (.activeExpireCycle db) trivial, fun _ _ => trivial⟩
  | del req => exact del_relies h req (hWrite _ (List.mem_singleton.mpr rfl))
  | unlink req => exact unlink_relies h req (hWrite _ (List.mem_singleton.mpr rfl))
  | sInterStore req =>
    exact executeMultiReadCompute_relies h _ (hWrite _ (List.mem_singleton.mpr rfl)) hStores
  | sPop req =>
    refine ask_relies (h.looks .environment trivial) fun env _ => ?_
    exact executeCompute_relies h _ (hWrite _ (List.mem_singleton.mpr rfl)) (hStores _ _ rfl)
  | _ =>
    exact executeCompute_relies h _ (hWrite _ (List.mem_singleton.mpr rfl)) (hStores .sorted _ rfl)

theorem readRequest_relies (forScript : Bool) (db : Nat) (readClock : Option Nat)
    {operation : ReadOperation}
    (hPanic : ReadOperation.InBounds operation ∨ MayPanic rely allowed db) :
    (readRequest forScript db readClock operation).Relies rely allowed := by
  have hReply (execute : Env → Value) : (ask (.reply forScript execute)).Relies rely allowed :=
    ⟨h.looks (.reply ..) trivial, fun _ _ => trivial⟩
  have hGet (key : Bytes) : (getWithReadClock db key readClock).Relies rely allowed :=
    getEntry_relies h fun _ _ => trivial
  unfold readRequest
  split
  · exact withDatabase_relies h fun _ _ _ => (hGet _).bind fun _ => hReply _
  · refine withDatabase_relies h fun _ _ _ => ?_
    exact Program.Relies.bind (.mapM hGet) fun _ => hReply _
  next params hHandler =>
    refine withDatabase_relies h fun count hCount hDb => ?_
    refine ask_relies (h.looks (.liveKeys ..) trivial) fun live _ => ?_
    split
    next hOutside =>
      refine ⟨hPanic.elim (fun hBounds => ?_) fun hPanic => hPanic count hCount hDb, nofun⟩
      obtain ⟨key, -, hNone⟩ := hOutside
      cases operation with
      | keys given =>
        cases hHandler
        exact absurd hNone (hBounds key)
      | _ => cases hHandler
    · exact hReply _
  · exact withDatabase_relies h fun _ _ _ => ask_relies (h.looks (.len ..) trivial)
      fun _ _ => trivial

/-! ### Commands made of several handlers -/

theorem set_relies (req : SetReq) (hWrite : MayPut rely allowed Good update.dbNumber req.key) :
    (set update req).Relies rely allowed :=
  executeCompute_relies h _ hWrite ⟨h.strings req, fun _ _ => h.strings req⟩

section

variable (hWrite : MayPut rely allowed Good update.dbNumber params.key)

include hWrite

theorem finishSet_relies : (finishSet update params expiresAt existing).Relies rely allowed := by
  have hPerform : (performSet update params expiresAt existing).Relies rely allowed :=
    (set_relies h ⟨params.key, _, _⟩ hWrite).bind fun _ => trivial
  unfold finishSet
  repeat' split
  all_goals first | exact hPerform | trivial

theorem lookupForSet_relies :
    (lookupForSet update params expiresAt existing).Relies rely allowed := by
  unfold lookupForSet
  split
  · refine withDatabase_relies h fun _ _ _ => getEntry_relies h fun found _ => ?_
    exact finishSet_relies h _ _ hWrite
  · exact finishSet_relies h _ _ hWrite

theorem redisSet_relies : (redisSet update params).Relies rely allowed := by
  unfold redisSet
  split
  · refine withDatabase_relies h fun _ _ _ => getEntry_relies h fun found _ => ?_
    exact lookupForSet_relies h _ _ hWrite
  · exact lookupForSet_relies h _ _ hWrite
  · exact lookupForSet_relies h _ _ hWrite

end

/-- What a rename moves has been found before. -/
theorem moveEntry_relies {newKey : Bytes} {entry : Entry} (reply : Value)
    (hEntry : Good entry.value.data) (hKey : MayPut rely allowed Good update.dbNumber key)
    (hNew : MayPut rely allowed Good update.dbNumber newKey) :
    (moveEntry update key newKey entry reply).Relies rely allowed :=
  (del_relies h ⟨key⟩ hKey).bind fun _ => Program.Relies.bind
    (executeCompute_relies h (.insert _) hNew ⟨hEntry, fun _ _ => hEntry⟩) fun _ => trivial

theorem combineSets_relies (results : Finset Bytes) :
    (combineSets update.dbNumber combine keys results).Relies rely allowed := by
  induction keys generalizing results with
  | nil => trivial
  | cons key keys ih =>
    refine getEntry_relies h fun found _ => ?_
    cases found with
    | none => exact ih results
    | some entry =>
      simp only
      split
      · trivial
      · exact ih _

theorem storeSet_relies {results : Finset Bytes}
    (hWrite : MayPut rely allowed Good update.dbNumber key)
    (hAdd : ∀ env : Env, StoresAlways Good (SAddReq.computeCommand ⟨key, env.order.list results⟩)) :
    (storeSet update key results).Relies rely allowed := by
  refine ask_relies (h.looks .environment trivial) fun env _ => getEntry_relies h fun target _ => ?_
  have hStore : (executeCompute update (.sAdd ⟨key, env.order.list results⟩)
      (SAddReq.computeCommand ⟨key, env.order.list results⟩)).Relies rely allowed :=
    executeCompute_relies h _ hWrite (hAdd env)
  split
  · exact (del_relies h ⟨key⟩ hWrite).bind fun _ => hStore
  · exact hStore

/-- The sets are combined and, if none of the sources is another value, stored. -/
theorem storeCombined_relies (start : Finset Bytes) (hGood : ∀ data, Good data)
    (hWrite : MayPut rely allowed Good update.dbNumber key) :
    (do
      match ← combineSets update.dbNumber combine keys start with
      | none => return notASet
      | some results => storeSet update key results : Action Value).Relies rely allowed := by
  refine (combineSets_relies h ..).bind fun combined => ?_
  cases combined with
  | none => trivial
  | some results => exact storeSet_relies h hWrite fun _ => storesAlways_of_forall hGood _

theorem redisSDiffStore_relies {params : SDiffStoreParams}
    (hLock : external = true → MayLock allowed) (hGood : ∀ data, Good data)
    (hWrite : MayPut rely allowed Good update.dbNumber params.key) :
    (redisSDiffStore update params external).Relies rely allowed := by
  refine lockIf_relies hLock (withDatabase_relies h fun _ _ _ => ?_)
  cases params.keys with
  | nil => trivial
  | cons first others =>
    refine getEntry_relies h fun found _ => ?_
    cases found with
    | none => exact storeCombined_relies h _ others _ hGood hWrite
    | some entry =>
      simp only
      cases entry.value.data.asSet with
      | none => trivial
      | some start => exact storeCombined_relies h _ others _ hGood hWrite

/-- Every command that is neither a transaction nor a script. -/
theorem flatRequest_relies (hLock : external = true → MayLock allowed) {operation : RedisOperation}
    (hPlain : redisIsPlain operation = true)
    (hGood : redisCombines operation = true → ∀ data, Good data)
    (hWrite : ∀ key ∈ redisNames operation, MayPut rely allowed Good update.dbNumber key) :
    (redisRequest update external operation).Relies rely allowed := by
  cases operation with
  | redisExec | redisEval => cases hPlain
  | redisSet params => exact redisSet_relies h (hWrite _ (by simp [redisNames]))
  | redisSetEx params | redisPSetEx params =>
    exact (set_relies h ⟨_, _, _⟩ (hWrite _ (by simp [redisNames]))).bind fun _ => trivial
  | redisSetNx params | redisGetSet params =>
    refine withDatabase_relies h fun _ _ _ => getEntry_relies h fun found _ => ?_
    split
    all_goals first
      | trivial
      | exact (set_relies h ⟨_, _, _⟩ (hWrite _ (by simp [redisNames]))).bind fun _ => trivial
  | redisMset params =>
    refine lockIf_relies hLock (Program.Relies.bind (.forM fun pair hPair => ?_) fun _ => trivial)
    exact (set_relies h ⟨_, _, _⟩ (hWrite _ (List.mem_map_of_mem hPair))).bind fun _ => trivial
  | redisDel params | redisUnlink params =>
    refine lockIf_relies hLock (removeKeys_relies (fun key hKey => ?_) 0)
    first
      | exact del_relies h ⟨key⟩ (hWrite key hKey)
      | exact unlink_relies h ⟨key⟩ (hWrite key hKey)
  | redisRename params =>
    refine lockIf_relies hLock (withDatabase_relies h fun _ _ _ => ?_)
    refine getEntry_relies h fun found hFound => ?_
    cases found with
    | none => trivial
    | some entry =>
      exact moveEntry_relies h _ (h.finds _ _ entry hFound) (hWrite _ (by simp [redisNames]))
        (hWrite _ (by simp [redisNames]))
  | redisRenameNx params =>
    refine lockIf_relies hLock (withDatabase_relies h fun _ _ _ => ?_)
    refine getEntry_relies h fun target _ => ?_
    cases target with
    | some _ => trivial
    | none =>
      refine getEntry_relies h fun found hFound => ?_
      cases found with
      | none => trivial
      | some entry =>
        exact moveEntry_relies h _ (h.finds _ _ entry hFound)
          (hWrite _ (by simp [redisNames])) (hWrite _ (by simp [redisNames]))
  | redisSUnionStore params =>
    refine lockIf_relies hLock (withDatabase_relies h fun _ _ _ => ?_)
    exact storeCombined_relies h _ _ _ (hGood rfl) (hWrite _ (by simp [redisNames]))
  | redisSDiffStore params =>
    exact redisSDiffStore_relies h hLock (hGood rfl) (hWrite _ (by simp [redisNames]))

end

section

variable {rely : (query : Query) → query.Answer → Prop} {allowed : Query → Prop} {update : Update}

/-- What a request asks for beyond what its handlers need: flushes, panics and scripts. -/
structure Admits (rely : (query : Query) → query.Answer → Prop) (allowed : Query → Prop)
    (update : Update) (flush eval : Prop) : Prop extends
    Permits rely allowed (fun _ => True) update where
  panics : MayPanic rely allowed update.dbNumber
  flushes : flush → MayLock allowed ∧ ∀ db, allowed (.clear db)
  scripts : eval → ∀ query : Query, query.ScriptOf update → allowed query

variable {flush eval : Prop}

mutual

/-- A request asks for nothing else. -/
theorem doRequest_relies (h : Admits rely allowed update flush eval) {external : Bool}
    (hLock : external = true → MayLock allowed) (operation : Operation)
    (hFlush : noFlush operation = true ∨ flush) (hEval : hasEval operation = true → eval)
    (hWrite : ∀ key ∈ names operation, MayPut rely allowed (fun _ => True) update.dbNumber key) :
    (doRequest update external operation).Relies rely allowed := by
  cases operation with
  | base operation =>
    refine baseRequest_relies h.toPermits (fun hTakes => h.flushes ?_) hWrite
      (BaseOperation.storesOnly_of_forall (fun _ => trivial) operation)
    exact hFlush.resolve_left (by simp [noFlush, hTakes])
  | read operation =>
    exact readRequest_relies h.toPermits _ _ _ (.inr h.panics)
  | redis operation =>
    exact redisRequest_relies h hLock operation hFlush hEval hWrite

theorem redisRequest_relies (h : Admits rely allowed update flush eval) {external : Bool}
    (hLock : external = true → MayLock allowed) (operation : RedisOperation)
    (hFlush : redisNoFlush operation = true ∨ flush) (hEval : redisHasEval operation = true → eval)
    (hWrite : ∀ key ∈ redisNames operation,
      MayPut rely allowed (fun _ => True) update.dbNumber key) :
    (redisRequest update external operation).Relies rely allowed := by
  cases operation with
  | redisExec operations =>
    refine lockIf_relies hLock ?_
    exact (execOperations_relies h operations hFlush hEval hWrite).bind fun _ => trivial
  | redisEval params => exact lockIf_relies hLock (execLua_relies params (h.scripts (hEval rfl)))
  | _ => exact flatRequest_relies h.toPermits hLock rfl (fun _ _ => trivial) hWrite

theorem execOperations_relies (h : Admits rely allowed update flush eval)
    (operations : List Operation) (hFlush : allNoFlush operations = true ∨ flush)
    (hEval : anyHasEval operations = true → eval)
    (hWrite : ∀ key ∈ allNames operations,
      MayPut rely allowed (fun _ => True) update.dbNumber key) :
    (execOperations update operations).Relies rely allowed := by
  cases operations with
  | nil => trivial
  | cons operation operations =>
    rw [allNoFlush, Bool.and_eq_true] at hFlush
    rw [anyHasEval, Bool.or_eq_true] at hEval
    refine Program.Relies.bind ?_ fun reply => Program.Relies.bind ?_ fun _ => trivial
    · refine doRequest_relies h (fun hEq => by cases hEq) operation (hFlush.imp_left And.left)
        (fun h => hEval (.inl h)) fun key hKey => ?_
      exact hWrite key (by simp [allNames, hKey])
    · refine execOperations_relies h operations (hFlush.imp_left And.right)
        (fun h => hEval (.inr h)) fun key hKey => ?_
      exact hWrite key (by simp [allNames, hKey])

end

/-! ### The loop of a script -/

/-- A call of the script is refused at once or does one operation, under any update. -/
inductive Answers (event : ScriptEvent) : (Update → Action ScriptReply) → Prop
  | refused (reply : ScriptReply) : Answers event fun _ => .done reply
  | performed {operation : Operation} (hCalls : event.Calls operation)
      (finish : Value → ScriptReply) :
        Answers event fun update => doRequest { update with forScript := true } false operation >>=
          fun reply => .done (finish reply)

/-- What `redis.call` hands to the script. -/
def ScriptReply.ofCall : Value → ScriptReply
  | .error text => .raise text
  | reply => .value reply

theorem redisCall_answers (args : List String) : Answers (.call args) (redisCall · args) := by
  unfold redisCall
  split
  · exact .refused _
  next hArgs =>
    split
    · exact .refused _
    next operation hParse =>
      have hCalls : ScriptEvent.Calls operation (.call args) := ⟨by simpa using hArgs, hParse⟩
      convert Answers.performed hCalls ScriptReply.ofCall using 4 with update reply
      cases reply <;> rfl

theorem redisPcall_answers (args : List String) : Answers (.pcall args) (redisPcall · args) := by
  unfold redisPcall
  split
  · exact .refused _
  next hArgs =>
    split
    · exact .refused _
    next operation hParse =>
      have hCalls : ScriptEvent.Calls operation (.pcall args) := ⟨by simpa using hArgs, hParse⟩
      exact .performed hCalls .value

/-- A script asks for its own queries and for what the operations ask that it calls. -/
theorem scriptLoop_relies (hScript : ∀ query : Query, query.ScriptOf update → allowed query)
    (hCalled : ∀ event, rely .advanceScript event → ∀ operation, event.Calls operation →
      (doRequest { update with forScript := true } false operation).Relies rely allowed) :
    (scriptLoop update).Relies rely allowed := by
  have hRun : (ask (.runScript update)).Relies rely allowed := ⟨hScript _ rfl, fun _ _ => trivial⟩
  have hResume (reply : ScriptReply) :
      (ask (.resumeScript reply) >>= fun _ => ask (.runScript update)).Relies rely allowed :=
    ask_relies (hScript (.resumeScript reply) trivial) fun _ _ => hRun
  have hAnswer {event : ScriptEvent} (hEvent : rely .advanceScript event)
      {program : Update → Action ScriptReply} (hProgram : Answers event program) :
      (program update).Relies rely allowed := by
    cases hProgram with
    | refused reply => trivial
    | performed hCalls finish => exact (hCalled event hEvent _ hCalls).bind fun _ => trivial
  refine ask_relies (hScript .advanceScript trivial) fun event hEvent => ?_
  cases event with
  | finish reply => trivial
  | hook =>
    refine ask_relies (hScript .interrupted trivial) fun interrupted _ => ?_
    cases interrupted with
    | false => exact hRun
    | true => exact hResume _
  | call args => exact (hAnswer hEvent (redisCall_answers args)).bind hResume
  | pcall args => exact (hAnswer hEvent (redisPcall_answers args)).bind hResume

end
end Cache
end CacheCat
