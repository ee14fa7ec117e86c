import CacheCat.Cache.Locks
import CacheCat.Cache.SetFamily

/-! Single write commands: everything but transactions and scripts. Each takes the view
to a known one and has a known reply, whatever the surroundings are and whether the lock
of the readers is taken for it or held already. -/
namespace CacheCat

/-- The command is neither a transaction nor a script. -/
def RedisOperation.isSingle : RedisOperation → Bool
  | .redisEval _ | .redisExec _ => false
  | _ => true

/-- The operation of an entry takes the lock of the readers. -/
def RedisOperation.takesLock : RedisOperation → Bool
  | .redisSet _ | .redisSetNx _ | .redisSetEx _ | .redisPSetEx _ | .redisGetSet _ => false
  | _ => true

/-- The elements of a set, in whatever order, make the set. -/
theorem SAddReq.foldl_insertMember (elements : List Bytes) (state : Finset Bytes × Nat) :
    (elements.foldl insertMember state).1 = state.1 ∪ elements.toFinset := by
  induction elements generalizing state with
  | nil => simp
  | cons element elements ih =>
    rw [List.foldl_cons, ih]
    simp [insertMember]

theorem HashOrder.toFinset_list (order : HashOrder) (keys : Finset Bytes) :
    (order.list keys).toFinset = keys := by
  ext key
  rw [List.mem_toFinset, order.mem_list]

namespace Cache

open Library (Program)

namespace View

variable (view : View) (update : Update)

/-! ### What the commands do -/

/-- DEL and UNLINK, one key after the other. -/
def removeAll (view : View) (db : Nat) : List Bytes → Int → View × Value
  | [], count => (view, .integer count)
  | key :: keys, count =>
    (view.drop db key).removeAll db keys (count + if (view.live db key).isSome then 1 else 0)

/-- An entry goes to another key with its deadline. -/
def move (key newKey : Bytes) (entry : Entry) : View :=
  ((view.drop update.dbNumber key).compute update
    (InsertReq.computeCommand ⟨newKey, entry.value.data, entry.expireAt.getD 0⟩)).1

def rename (params : RenameParams) : View × Value :=
  match view.live update.dbNumber params.key with
  | none => (view, noSuchKey)
  | some entry => (view.move update params.key params.newKey entry, .ok)

def renameNx (params : RenameNxParams) : View × Value :=
  if (view.live update.dbNumber params.newKey).isSome then (view, .integer 0)
  else
    match view.live update.dbNumber params.key with
    | none => (view, noSuchKey)
    | some entry => (view.move update params.key params.newKey entry, .integer 1)

/-- The target of SUNIONSTORE or SDIFFSTORE holds the set, be it empty, instead of what
was there; `none` stands for a source that is not a set. -/
def storeSet (db : Nat) (key : Bytes) : Option (Finset Bytes) → View × Value
  | none => (view, notASet)
  | some results => (view.put db key ⟨.new (.set results), none⟩, .integer results.card)

def sDiffStore (params : SDiffStoreParams) : View × Value :=
  match params.keys with
  | [] => (view, (ProtocolError.wrongArgCount "wrong number of arguments for command").toValue)
  | first :: others =>
    view.storeSet update.dbNumber params.key (differenceOf (view.live update.dbNumber first)
      (others.map (view.live update.dbNumber)))

def sInterStore (req : SInterStoreReq) : View × Value :=
  let result := req.computeCommand.mutate (req.keys.map (view.live update.dbNumber))
      update.writeClock
  (view.store update.dbNumber req.key result.1, result.2)

def getSet (params : GetSetParams) : View × Value :=
  let existing := ExistingKey.ofEntry (view.live update.dbNumber params.key)
  if existing = .otherType then (view, ProtocolError.wrongType.toValue)
  else (view.write update.dbNumber ⟨params.key, params.value, 0⟩, existing.oldValue)

def setNx (params : SetNxParams) : View × Value :=
  if (view.live update.dbNumber params.key).isSome then (view, .bulkString none)
  else (view.write update.dbNumber ⟨params.key, params.value, noExpiration⟩, .ok)

/-- A write command in a database that is there; the flushes are not among them. -/
def performBase : BaseOperation → View × Value
  | .empty | .flushDB _ | .flushAll _ => (view, .ok)
  | .del req => (view.drop update.dbNumber req.key,
    existed (view.live update.dbNumber req.key).isSome)
  | .unlink req =>
    (view.drop update.dbNumber req.key, existed (view.live update.dbNumber req.key).isSome)
  | .sInterStore req => view.sInterStore update req
  | operation =>
    (operation.computeCommand .sorted).elim (view, .ok) fun command => view.compute update command

def performRedis : RedisOperation → View × Value
  | .redisSet params =>
    (if params.refused (view.live update.dbNumber params.key) then view
      else view.write update.dbNumber
        (params.request update.writeClock (view.live update.dbNumber params.key)),
      params.response (view.live update.dbNumber params.key))
  | .redisSetNx params => view.setNx update params
  | .redisSetEx params =>
    (view.write update.dbNumber ⟨params.key, params.value,
      Text.wrapU64 (update.writeClock + params.expiration * 1000)⟩, .ok)
  | .redisPSetEx params =>
    (view.write update.dbNumber ⟨params.key, params.value,
      Text.wrapU64 (update.writeClock + params.expiration)⟩, .ok)
  | .redisGetSet params => view.getSet update params
  | .redisMset params =>
    (params.pairs.foldl (fun view pair => view.write update.dbNumber ⟨pair.1, pair.2, 0⟩) view, .ok)
  | .redisDel params => view.removeAll update.dbNumber params.keys 0
  | .redisUnlink params => view.removeAll update.dbNumber params.keys 0
  | .redisRename params => view.rename update params
  | .redisRenameNx params => view.renameNx update params
  | .redisSUnionStore params =>
    view.storeSet update.dbNumber params.key
      (unionOf (params.keys.map (view.live update.dbNumber)))
  | .redisSDiffStore params => view.sDiffStore update params
  | .redisEval _ | .redisExec _ => (view, .ok)

end View

variable (view : View) (update : Update)

/-- What is written without a deadline is visible. -/
theorem View.visible_put_self (db : Nat) (key : Bytes) (data : ValueObject) :
    (view.put db key ⟨.new data, none⟩).visible db key = some (data, none) := by
  simp [View.visible, View.put_live, Mocha.EntrySnapshot.expired, Option.filter_some, Entry.view,
    MyValue.new]

/-! ### That they do so -/

/-- In a database that is there the body does what `after` says. The lock of the readers
is no part of that. -/
structure Makes (body : Action Value) (db : Nat) (after : View → View × Value) : Prop where
  settles : ∀ (view : View) (post : View → Value → Prop), db < view.count →
    (body.Settles View.effect post view ↔ post (after view).1 (after view).2)
  lock : ∀ (view : View) (locked : Bool),
    after (view.lock locked) = ((after view).1.lock locked, (after view).2)

theorem lockIf_false (body : Action Value) : lockIf false body = body := rfl

theorem View.lock_self : view.lock view.readersLocked = view := rfl

theorem Makes.readersLocked {body : Action Value} {db : Nat} {after : View → View × Value}
    (hMakes : Makes body db after) (view : View) :
    (after view).1.readersLocked = view.readersLocked := by
  have hSame := hMakes.lock view view.readersLocked
  rw [View.lock_self] at hSame
  rw [hSame]
  rfl

/-- It makes no difference whether the command takes the lock. -/
theorem Makes.settles_lockIf {body : Action Value} {db : Nat} {after : View → View × Value}
    (hMakes : Makes body db after) {view : View} {post : View → Value → Prop} {external : Bool}
    (hDb : db < view.count) (hFree : external = true → view.readersLocked = false) :
    (lockIf external body).Settles View.effect post view ↔ post (after view).1 (after view).2 := by
  cases external with
  | false => exact hMakes.settles view post hDb
  | true =>
    have hFree := hFree rfl
    have hLocked : db < (view.lock true).count := hDb
    have hBack : ((after view).1.lock true).lock false = (after view).1 := by
      have hUnlocked := (hMakes.readersLocked view).trans hFree
      rw [← hUnlocked]
      rfl
    rw [lockIf, if_pos rfl, settles_withReadersLocked, hMakes.settles _ _ hLocked, hMakes.lock,
      hBack, and_iff_right hFree]

theorem View.store_lock (db : Nat) (key : Bytes) (operation : Mocha.MochaOperation MyValue)
    (locked : Bool) :
    (view.lock locked).store db key operation = (view.store db key operation).lock locked := by
  cases operation <;> rfl

theorem View.compute_lock (command : ComputeCommand) (locked : Bool) :
    (view.lock locked).compute update command =
      ((view.compute update command).1.lock locked, (view.compute update command).2) := by
  unfold View.compute
  rw [View.lock_live]
  cases view.live update.dbNumber command.key with
  | none | some entry => simp only [View.store_lock]

theorem View.move_lock (key newKey : Bytes) (entry : Entry) (locked : Bool) :
    (view.lock locked).move update key newKey entry =
      (view.move update key newKey entry).lock locked := by
  have hDrop : (view.lock locked).drop update.dbNumber key =
      (view.drop update.dbNumber key).lock locked := rfl
  rw [View.move, hDrop, View.compute_lock]
  rfl

/-- The loop of DEL and UNLINK. -/
theorem makes_removeKeys {update : Update} {remove : Bytes → Action Value}
    (hRemove : ∀ (view : View) (post : View → Value → Prop) (key : Bytes),
      update.dbNumber < view.count → ((remove key).Settles View.effect post view ↔
        post (view.drop update.dbNumber key) (existed (view.live update.dbNumber key).isSome)))
    (keys : List Bytes) (count : Int) :
    Makes (removeKeys remove keys count) update.dbNumber
      fun view => view.removeAll update.dbNumber keys count where
  settles view post hDb := by
    induction keys generalizing view count with
    | nil => rfl
    | cons key keys ih =>
      have hRest : update.dbNumber < (view.drop update.dbNumber key).count := hDb
      rw [removeKeys, Program.settles_bind, hRemove _ _ _ hDb]
      exact ih _ _ hRest
  lock view locked := by
    induction keys generalizing view count with
    | nil => rfl
    | cons key keys ih => exact ih _ (view.drop update.dbNumber key)

/-- One more source of SUNIONSTORE or SDIFFSTORE. -/
def combineEntry (combine : Finset Bytes → Finset Bytes → Finset Bytes) (results : Finset Bytes)
    (entry : Option Entry) : Option (Finset Bytes) :=
  entry.elim (some results) fun entry => (entry.value.data.asSet).map (combine results)

theorem settles_combineSets (combine : Finset Bytes → Finset Bytes → Finset Bytes)
    (keys : List Bytes) (results : Finset Bytes) {db : Nat} {view : View}
    {post : View → Option (Finset Bytes) → Prop} :
    (combineSets db combine keys results).Settles View.effect post view ↔
      post view ((keys.map (view.live db)).foldlM (combineEntry combine) results) := by
  induction keys generalizing results with
  | nil => rfl
  | cons key keys ih =>
    rw [combineSets, Program.settles_bind, settles_getEntry, List.map_cons, List.foldlM_cons]
    cases view.live db key with
    | none => exact ih results
    | some entry =>
      simp only [combineEntry, Option.elim_some]
      cases entry.value.data.asSet with
      | none => rfl
      | some set => exact ih (combine results set)

section

variable {update : Update} (hMode : ∀ version, update.updateType ≠ .cas version)

include hMode

variable {view : View} {post : View → Value → Prop}

/-- DEL and UNLINK of one key; a request that goes to a queue does not show. -/
theorem settles_removeKey (request : BaseOperation) (key : Bytes) {remove : Action Bool}
    (hDb : update.dbNumber < view.count)
    (hRemove : ∀ post : View → Bool → Prop, remove.Settles View.effect post view ↔
      post (view.drop update.dbNumber key) (view.live update.dbNumber key).isSome) :
    (removeKey update request key remove).Settles View.effect post view ↔
      post (view.drop update.dbNumber key) (existed (view.live update.dbNumber key).isSome) := by
  have hPush {after : View → Unit → Prop} :
      (pushRemoval update request key).Settles View.effect after view ↔ after view () := by
    unfold pushRemoval
    split
    · simp
    · rfl
  rw [removeKey, settles_withDatabase, if_pos hDb]
  split
  next version hCas => exact absurd hCas (hMode version)
  · rw [Program.settles_bind, hPush, Program.settles_bind, hRemove]
    rfl

theorem settles_del (hDb : update.dbNumber < view.count) (req : DelReq) :
    (del update req).Settles View.effect post view ↔
      post (view.drop update.dbNumber req.key)
        (existed (view.live update.dbNumber req.key).isSome) := by
  refine settles_removeKey hMode _ _ hDb fun post => ?_
  simp

theorem settles_unlinkOne (hDb : update.dbNumber < view.count) (req : UnlinkReq) :
    (unlink update req).Settles View.effect post view ↔
      post (view.drop update.dbNumber req.key)
        (existed (view.live update.dbNumber req.key).isSome) := by
  refine settles_removeKey hMode _ _ hDb fun post => ?_
  simp

/-- A rename: the source is gone before the target is written. -/
theorem settles_moveEntry (hDb : update.dbNumber < view.count) (key newKey : Bytes) (entry : Entry)
    (reply : Value) :
    (moveEntry update key newKey entry reply).Settles View.effect post view ↔
      post (view.move update key newKey entry) reply := by
  have hRest : update.dbNumber < (view.drop update.dbNumber key).count := hDb
  rw [moveEntry, Program.settles_bind, settles_del hMode hDb, Program.settles_bind, insert,
    settles_executeCompute hMode hRest]
  rfl

theorem makes_redisRename (params : RenameParams) :
    Makes (redisRename update params false) update.dbNumber (·.rename update params) where
  settles view post hDb := by
    rw [redisRename, lockIf_false, settles_withDatabase, if_pos hDb, Program.settles_bind,
      settles_getEntry, View.rename]
    cases view.live update.dbNumber params.key with
    | none => rfl
    | some entry => exact settles_moveEntry hMode hDb _ _ _ _
  lock view locked := by
    rw [View.rename, View.rename, View.lock_live]
    cases view.live update.dbNumber params.key with
    | none => rfl
    | some entry => simp only [View.move_lock]

theorem makes_redisRenameNx (params : RenameNxParams) :
    Makes (redisRenameNx update params false) update.dbNumber (·.renameNx update params) where
  settles view post hDb := by
    rw [redisRenameNx, lockIf_false, settles_withDatabase, if_pos hDb, Program.settles_bind,
      settles_getEntry, View.renameNx]
    cases view.live update.dbNumber params.newKey with
    | some target => rfl
    | none =>
      rw [Program.settles_bind, settles_getEntry]
      cases view.live update.dbNumber params.key with
      | none => rfl
      | some entry => exact settles_moveEntry hMode hDb _ _ _ _
  lock view locked := by
    rw [View.renameNx, View.renameNx, View.lock_live]
    split
    · rfl
    · cases view.live update.dbNumber params.key with
      | none => rfl
      | some entry => simp only [View.move_lock]

/-! ### Stored sets -/

/-- The result of SUNIONSTORE or SDIFFSTORE replaces the target. -/
theorem settles_storeSet (hDb : update.dbNumber < view.count) (key : Bytes)
    (results : Finset Bytes) : (storeSet update key results).Settles View.effect post view ↔
      post (view.put update.dbNumber key ⟨.new (.set results), none⟩) (.integer results.card) := by
  have hAdd (dropped : View) (order : HashOrder) (hCount : update.dbNumber < dropped.count)
      (hMissing : dropped.live update.dbNumber key = none) :
      (executeCompute update (.sAdd ⟨key, order.list results⟩)
          (SAddReq.computeCommand ⟨key, order.list results⟩)).Settles View.effect post dropped ↔
        post (dropped.put update.dbNumber key ⟨.new (.set results), none⟩)
          (.integer results.card) := by
    have hMade : ((order.list results).foldl SAddReq.insertMember (∅, 0)).1 = results := by
      rw [SAddReq.foldl_insertMember, order.toFinset_list]
      simp
    have hKey : (SAddReq.computeCommand ⟨key, order.list results⟩).key = key := rfl
    rw [settles_executeCompute hMode hCount, View.compute, hKey, hMissing]
    simp only [SAddReq.computeCommand, collectionCommand, hMade, order.length_list, View.store,
      Mocha.resolveExpireAt, reduceCtorEq, if_false]
  rw [storeSet, Program.settles_bind, settles_environment]
  simp only [Program.settles_bind, settles_getEntry]
  have hEnv {made : Env → Prop} {result : Prop} (h : ∀ env, made env ↔ result) :
      (∀ env, made env) ↔ result :=
    ⟨fun hMade => (h .quiet).mp (hMade .quiet), fun hResult env => (h env).mpr hResult⟩
  cases hTarget : view.live update.dbNumber key with
  | none => exact hEnv fun env => hAdd view env.order hDb hTarget
  | some entry =>
    have hCount : update.dbNumber < (view.drop update.dbNumber key).count := hDb
    have hDropped : (view.drop update.dbNumber key).live update.dbNumber key = none :=
      if_pos ⟨rfl, rfl⟩
    have hPut (entry : Entry) : (view.drop update.dbNumber key).put update.dbNumber key entry =
        view.put update.dbNumber key entry := by
      refine View.ext rfl rfl rfl ?_
      funext db k
      simp only [View.put, View.drop]
      split <;> rfl
    refine hEnv fun env => ?_
    rw [Option.isSome_some, if_pos rfl, Program.settles_bind, settles_del hMode hDb]
    rw [← hPut]
    exact hAdd _ env.order hCount hDropped

theorem makes_storeCombined (key : Bytes) (combine : Finset Bytes → Finset Bytes → Finset Bytes)
    (keys : List Bytes) (start : Finset Bytes) :
    Makes (do
      match ← combineSets update.dbNumber combine keys start with
      | none => return notASet
      | some results => storeSet update key results) update.dbNumber
      fun view => view.storeSet update.dbNumber key
        ((keys.map (view.live update.dbNumber)).foldlM (combineEntry combine) start) where
  settles view post hDb := by
    rw [Program.settles_bind, settles_combineSets]
    cases (keys.map (view.live update.dbNumber)).foldlM (combineEntry combine) start with
    | none => rfl
    | some results => exact settles_storeSet hMode hDb key results
  lock view locked := by
    rw [View.lock_live]
    cases (keys.map (view.live update.dbNumber)).foldlM (combineEntry combine) start <;> rfl

theorem makes_redisSUnionStore (params : SUnionStoreParams) :
    Makes (redisSUnionStore update params false) update.dbNumber
      fun view => view.storeSet update.dbNumber params.key
        (unionOf (params.keys.map (view.live update.dbNumber))) where
  settles view post hDb := by
    rw [redisSUnionStore, lockIf_false, settles_withDatabase, if_pos hDb]
    exact (makes_storeCombined hMode params.key _ _ _).settles view post hDb
  lock := (makes_storeCombined hMode params.key (· ∪ ·) params.keys ∅).lock

theorem makes_redisSDiffStore (params : SDiffStoreParams) :
    Makes (redisSDiffStore update params false) update.dbNumber (·.sDiffStore update params) where
  settles view post hDb := by
    rw [redisSDiffStore, lockIf_false, settles_withDatabase, if_pos hDb, View.sDiffStore]
    cases params.keys with
    | nil => rfl
    | cons first others =>
      simp only
      rw [Program.settles_bind, settles_getEntry, differenceOf]
      cases view.live update.dbNumber first with
      | none => exact (makes_storeCombined hMode params.key _ _ _).settles view post hDb
      | some entry =>
        simp only [Option.elim_some]
        cases entry.value.data.asSet with
        | none => rfl
        | some start => exact (makes_storeCombined hMode params.key _ _ _).settles view post hDb
  lock view locked := by
    rw [View.sDiffStore, View.sDiffStore, View.lock_live]
    cases params.keys with
    | nil => rfl
    | cons first others =>
      simp only
      cases differenceOf (view.live update.dbNumber first)
        (others.map (view.live update.dbNumber)) <;> rfl

theorem settles_sInterStore (hDb : update.dbNumber < view.count) (request : BaseOperation)
    (req : SInterStoreReq) :
    (executeMultiReadCompute update request req.computeCommand).Settles View.effect post view ↔
      post (view.sInterStore update req).1 (view.sInterStore update req).2 := by
  have hEntries {post : View → List (Option Entry) → Prop} (keys : List Bytes) :
      (getEntries update.dbNumber keys).Settles View.effect post view ↔
        post view (keys.map (view.live update.dbNumber)) :=
    Program.settles_mapM (fun key _ => settles_getEntry _ key) keys
  rw [executeMultiReadCompute, settles_withDatabase, if_pos hDb, Program.settles_bind, hEntries]
  split
  next version hCas => exact absurd hCas (hMode version)
  · exact settles_finishCompute hMode ..

/-! ### All of them -/

theorem settles_performBase (hDb : update.dbNumber < view.count) {operation : BaseOperation}
    (hFlush : BaseOperation.takesLock operation = false) :
    (baseRequest update operation).Settles View.effect post view ↔
      post (view.performBase update operation).1 (view.performBase update operation).2 := by
  have hCompute {command : ComputeCommand}
      (hCommand : operation.computeCommand .sorted = some command) :
      (baseRequest update operation).Settles View.effect post view ↔
        post (view.compute update command).1 (view.compute update command).2 := by
    rw [settles_baseRequest hCommand, settles_executeCompute hMode hDb]
  cases operation with
  | flushDB | flushAll => cases hFlush
  | empty =>
    have hCycle (post : View → Unit → Prop) :
        (forEachDatabase fun db => ask (.activeExpireCycle db)).Settles View.effect post view ↔
          post view () := by
      rw [forEachDatabase, Program.settles_bind, settles_databaseCount]
      rw [Program.settles_forM (fun view _ => view) (fun _ => True) (fun _ _ _ => trivial) _ _
        trivial]
      · simp
      · intro view db post _
        exact Program.settles_call fun _ _ => ⟨fun h => ⟨h, rfl⟩, And.left⟩
    rw [baseRequest, Program.settles_bind, hCycle]
    rfl
  | del req => exact settles_del hMode hDb req
  | unlink req => exact settles_unlinkOne hMode hDb req
  | sInterStore req => exact settles_sInterStore hMode hDb _ req
  | _ => exact hCompute rfl

theorem makes_redisMset (params : MsetParams) :
    Makes (redisMset update params false) update.dbNumber
      fun view => (params.pairs.foldl
        (fun view pair => view.write update.dbNumber ⟨pair.1, pair.2, 0⟩) view, .ok) where
  settles view post hDb := by
    rw [redisMset, lockIf_false, Program.settles_bind, Program.settles_forM
      (fun view pair => view.write update.dbNumber ⟨pair.1, pair.2, 0⟩)
      (fun view => update.dbNumber < view.count) (fun _ _ hCount => hCount) _ params.pairs hDb]
    · rfl
    · intro view pair post hCount
      simp [settles_set hMode hCount]
  lock view locked := by
    rw [← List.foldl_hom (fun view : View => view.lock locked)]
    intro view pair
    rfl

theorem settles_performRedis {external : Bool} (hDb : update.dbNumber < view.count)
    {operation : RedisOperation} (hSingle : operation.isSingle = true)
    (hFree : external = true → operation.takesLock = true → view.readersLocked = false) :
    (redisRequest update external operation).Settles View.effect post view ↔
      post (view.performRedis update operation).1 (view.performRedis update operation).2 := by
  have hLocked {body : Action Value} {after : View → View × Value}
      (hMakes : Makes body update.dbNumber after) (hLock : operation.takesLock = true) :
      (lockIf external body).Settles View.effect post view ↔ post (after view).1 (after view).2 :=
    hMakes.settles_lockIf hDb fun hExternal => hFree hExternal hLock
  rw [redisRequest.eq_def]
  cases operation with
  | redisSet params => exact settles_redisSet hMode hDb params
  | redisSetNx params =>
    simp only [settles_redisSetNx hMode hDb, View.performRedis, View.setNx]
    split <;> rfl
  | redisSetEx params => exact settles_redisSetEx hMode hDb params
  | redisPSetEx params => exact settles_redisPSetEx hMode hDb params
  | redisGetSet params =>
    simp only [settles_redisGetSet hMode hDb, View.performRedis, View.getSet]
    split <;> rfl
  | redisMset params => exact hLocked (makes_redisMset hMode params) rfl
  | redisDel params =>
    exact hLocked (makes_removeKeys (fun _ _ key hDb => settles_del hMode hDb ⟨key⟩) params.keys 0)
      rfl
  | redisUnlink params =>
    exact hLocked (makes_removeKeys (fun _ _ key hDb => settles_unlinkOne hMode hDb ⟨key⟩)
      params.keys 0) rfl
  | redisRename params => exact hLocked (makes_redisRename hMode params) rfl
  | redisRenameNx params => exact hLocked (makes_redisRenameNx hMode params) rfl
  | redisSUnionStore params => exact hLocked (makes_redisSUnionStore hMode params) rfl
  | redisSDiffStore params => exact hLocked (makes_redisSDiffStore hMode params) rfl
  | redisEval | redisExec => cases hSingle

/-- A single command comes to its end and does what its denotation says. -/
theorem runs_performRedis {Vm : Type} (lua : LuaMachine Vm) {s : State Vm} {external : Bool}
    (hDb : update.dbNumber < s.count) {operation : RedisOperation}
    (hSingle : operation.isSingle = true)
    (hFree : external = true → operation.takesLock = true → s.readersLocked = false) :
    (∃ t reply, (machine lua).Runs s (doRequest update external (.redis operation)) t reply) ∧
    ∀ t reply, (machine lua).Runs s (doRequest update external (.redis operation)) t reply →
      t.view = (s.view.performRedis update operation).1 ∧
        reply = (s.view.performRedis update operation).2 := by
  have hSettles : (redisRequest update external operation).Settles View.effect
      (fun after reply => after = (s.view.performRedis update operation).1 ∧
        reply = (s.view.performRedis update operation).2) s.view := by
    rw [settles_performRedis hMode hDb hSingle hFree]
    exact ⟨rfl, rfl⟩
  exact ⟨(shows_view lua).exists_run hSettles, fun _ _ hRun =>
    hRun.settles (shows_view lua) hSettles⟩

end
end Cache
end CacheCat
