import CacheCat.Cache.Frame

/-! Error replies. A single command that replies an error has changed nothing that is
visible. -/
namespace CacheCat

open Mocha (MochaOperation)

/-! ### Write commands -/

/-- An error goes with no change. -/
structure ComputeCommand.RefusesOnError (command : ComputeCommand) : Prop where
  mutate : ∀ entry clock text, (command.mutate entry clock).2 = .error text →
    (command.mutate entry clock).1 = .abort
  init : ∀ text, command.init.2 = .error text → command.init.1 = .abort

theorem refusesOnError_collectionCommand {Collection : Type} {key : Bytes}
    {kind : ValueObject → Option Collection} {wrap : Collection → ValueObject} {wrongType : Value}
    {change : Nat → Collection → Outcome Collection × Value}
    {init : MochaOperation MyValue × Value}
    (hChange : ∀ clock content text, (change clock content).2 = .error text →
      (change clock content).1 = .refuse)
    (hInit : ∀ text, init.2 = .error text → init.1 = .abort) :
    (collectionCommand key kind wrap wrongType change init).RefusesOnError where
  mutate entry clock text hError := by
    simp only [collectionCommand] at hError ⊢
    cases hKind : kind entry.value.data with
    | none => rfl
    | some content =>
      simp only [hKind] at hError ⊢
      rw [hChange clock content text hError]
      rfl
  init := hInit

theorem refusesOnError_counterCommand (key : Bytes) (step : Int → Int) (start : Int) :
    (counterCommand key step start).RefusesOnError where
  mutate entry clock text := by
    simp only [counterCommand]
    repeat' split
    all_goals first | exact fun _ => rfl | rintro ⟨⟩
  init text hError := by cases hError

theorem refusesOnError_expireCommand (key : Bytes) (deadline : Nat → Nat)
    (condition : Option ExpireCondition) :
    (expireCommand key deadline condition).RefusesOnError where
  mutate entry clock text hError := by
    simp only [expireCommand] at hError
    split at hError <;> cases hError
  init text hError := by cases hError

variable {operation : BaseOperation}

/-- No write command replies an error after it has made a change. -/
theorem BaseOperation.refusesOnError {order : HashOrder} {command : ComputeCommand}
    (hCommand : operation.computeCommand order = some command) : command.RefusesOnError := by
  cases operation <;> obtain ⟨⟩ := hCommand
  case incr req | incrBy req | decr req | decrBy req => exact refusesOnError_counterCommand ..
  case expire req | pExpire req => exact refusesOnError_expireCommand ..
  case set req | insert req => exact ⟨by rintro _ _ _ ⟨⟩, by rintro _ ⟨⟩⟩
  case persist req | append req | setBit req | bitField req | pfAdd req =>
    refine ⟨fun entry clock text => ?_, by rintro _ ⟨⟩⟩
    simp only [PersistReq.computeCommand, AppendReq.computeCommand, SetBitReq.computeCommand,
      BitFieldReq.computeCommand, PfAddReq.computeCommand]
    repeat' split
    all_goals first | exact fun _ => rfl | rintro ⟨⟩
  case lPush req | rPush req | lPop req | rPop req | lRem req | lTrim req | hSet req | hMSet req
    | zAdd req | zRem req | sAdd req =>
    exact refusesOnError_collectionCommand (by rintro _ _ _ ⟨⟩) (by rintro _ ⟨⟩)
  case lSet req | hIncr req | hDel req | hSetNx req | zPopMin req | zIncrBy req | sRem req =>
    refine refusesOnError_collectionCommand (fun clock content text => ?_) fun text => ?_
    all_goals
      try dsimp only [ZPopMinReq.response]
      repeat' split
      all_goals first | exact fun _ => rfl | rintro ⟨⟩
  case sPop req =>
    have hMissing (text : String) : req.missingKeyResponse ≠ .error text := by
      unfold SPopReq.missingKeyResponse
      split <;> rintro ⟨⟩
    have hPopped (members : List Bytes) (text : String) :
        req.poppedResponse members ≠ .error text := by
      unfold SPopReq.poppedResponse
      split <;> rintro ⟨⟩
    refine refusesOnError_collectionCommand (fun clock set text hError => ?_) fun text hError => ?_
    · simp only at hError
      split_ifs at hError
      · exact absurd hError (hMissing text)
      · exact absurd hError (hPopped _ text)
      · exact absurd hError (hPopped _ text)
    · rfl

/-- A command other than a read, a transaction or a script. -/
def Operation.isSingleWrite : Operation → Bool
  | .base _ => true
  | .read _ => false
  | .redis operation => operation.isSingle

namespace Cache

open Library (Program)

/-! ### In a database that is there -/

section

variable {view : View} {update : Update} {text : String}

theorem View.compute_of_error {command : ComputeCommand} (hCommand : command.RefusesOnError)
    (hError : (view.compute update command).2 = .error text) :
    (view.compute update command).1 = view := by
  unfold View.compute at hError ⊢
  cases hLive : view.live update.dbNumber command.key with
  | none =>
    simp only [hLive] at hError ⊢
    have hInit : command.init.1 = .abort := by
      by_contra hInit
      rw [if_neg hInit] at hError
      exact hInit (hCommand.init text hError)
    rw [hInit]
    rfl
  | some entry =>
    simp only [hLive] at hError ⊢
    rw [hCommand.mutate entry update.writeClock text hError]
    rfl

theorem View.sInterStore_of_error {req : SInterStoreReq}
    (hError : (view.sInterStore update req).2 = .error text) :
    (view.sInterStore update req).1 = view := by
  simp only [View.sInterStore, SInterStoreReq.computeCommand] at hError ⊢
  split at hError
  · rfl
  · split_ifs at hError

theorem View.performBase_of_error (hError : (view.performBase update operation).2 = .error text) :
    (view.performBase update operation).1 = view := by
  have hCompute {command : ComputeCommand}
      (hCommand : operation.computeCommand .sorted = some command)
      (hError : (view.compute update command).2 = .error text) :
      (view.compute update command).1 = view :=
    View.compute_of_error (BaseOperation.refusesOnError hCommand) hError
  cases operation with
  | empty | flushDB | flushAll => rfl
  | del req | unlink req => cases hError
  | sInterStore req => exact View.sInterStore_of_error hError
  | _ => exact hCompute rfl hError

theorem ExistingKey.oldValue_ne_error (existing : ExistingKey) (text : String) :
    existing.oldValue ≠ .error text := by
  cases existing <;> nofun

theorem View.removeAll_reply (db : Nat) (keys : List Bytes) (count : Int) :
    ∃ total, (view.removeAll db keys count).2 = .integer total := by
  induction keys generalizing view count with
  | nil => exact ⟨count, rfl⟩
  | cons key keys ih => exact ih _

theorem View.storeSet_of_error {db : Nat} {key : Bytes} {combined : Option (Finset Bytes)}
    (hError : (view.storeSet db key combined).2 = .error text) :
    (view.storeSet db key combined).1 = view := by
  cases combined with
  | none => rfl
  | some results => cases hError

theorem View.performRedis_of_error {operation : RedisOperation}
    (hError : (view.performRedis update operation).2 = .error text) :
    (view.performRedis update operation).1 = view := by
  cases operation with
  | redisSet params =>
    simp only [View.performRedis, SetParams.response] at hError
    split_ifs at hError with hGet hRefused
    · exact absurd hError (ExistingKey.oldValue_ne_error _ _)
    · cases hError
  | redisSetNx params =>
    simp only [View.performRedis, View.setNx] at hError
    split_ifs at hError
    cases hError
  | redisSetEx | redisPSetEx | redisMset => cases hError
  | redisGetSet params =>
    simp only [View.performRedis, View.getSet] at hError ⊢
    split_ifs at hError ⊢
    · rfl
    · exact absurd hError (ExistingKey.oldValue_ne_error _ _)
  | redisDel params | redisUnlink params =>
    obtain ⟨total, hReply⟩ := view.removeAll_reply update.dbNumber params.keys 0
    simp only [View.performRedis, hReply] at hError
    cases hError
  | redisRename params | redisRenameNx params =>
    revert hError
    simp only [View.performRedis, View.rename, View.renameNx]
    repeat' split
    all_goals first | exact fun _ => rfl | rintro ⟨⟩
  | redisSUnionStore params => exact View.storeSet_of_error hError
  | redisSDiffStore params =>
    simp only [View.performRedis, View.sDiffStore] at hError ⊢
    split
    · rfl
    next hKeys =>
      simp only [hKeys] at hError
      exact View.storeSet_of_error hError
  | redisEval | redisExec => rfl

/-! ### Flushes -/

theorem settles_flushDb {post : View → Value → Prop} (req : FlushDBReq) :
    (flushDb update req).Settles View.effect post view ↔ view.readersLocked = false ∧
      if update.dbNumber < view.count then
        post (((view.lock true).clear update.dbNumber).lock false) .ok
      else post ((view.lock true).lock false) dbNotExist := by
  simp [flushDb, View.lock]

theorem settles_flushAll_reply (hFree : view.readersLocked = false) (req : FlushAllReq) :
    (flushAll update req).Settles View.effect (fun _ reply => reply = .ok) view := by
  rw [flushAll, settles_withReadersLocked]
  refine ⟨hFree, ?_⟩
  rw [Program.settles_bind, settles_pushRequest, forEachDatabase, Program.settles_bind,
    Program.settles_bind, settles_databaseCount, Program.settles_forM View.clear (fun _ => True)
      (fun _ _ _ => trivial) (fun _ db _ _ => settles_clear db) _ trivial]
  rfl

end

/-! ### Any single command -/

section

variable {Vm : Type} {lua : LuaMachine Vm} {s t : State Vm} {update : Update} {external : Bool}
    {text : String}

theorem readersLocked_of_redisRequest {operation : RedisOperation} {reply : Value}
    (hRun : (machine lua).Runs s (redisRequest update true operation) t reply)
    (hLock : operation.takesLock = true) : s.readersLocked = false := by
  cases operation with
  | redisSet | redisSetNx | redisSetEx | redisPSetEx | redisGetSet => cases hLock
  | _ => exact readersLocked_of_runs hRun

theorem visible_of_flush_error (hFlush : BaseOperation.takesLock operation = true)
    (hRun : (machine lua).Runs s (baseRequest update operation) t (.error text)) :
    t.visible = s.visible := by
  cases operation with
  | flushDB req =>
    have hFree : s.readersLocked = false := readersLocked_of_runs hRun
    have hSettles : (flushDb update req).Settles View.effect
        (fun after reply => reply = .ok ∨ after.visible = s.view.visible) s.view := by
      rw [settles_flushDb]
      refine ⟨hFree, ?_⟩
      split
      · exact .inl rfl
      · exact .inr rfl
    rcases hRun.settles (shows_view lua) hSettles with hReply | hSame
    · cases hReply
    · exact hSame
  | flushAll req =>
    have hFree : s.readersLocked = false := readersLocked_of_runs hRun
    have hReply := hRun.settles (shows_view lua) (settles_flushAll_reply hFree req)
    cases hReply
  | _ => cases hFlush

theorem visible_of_missing {operation : Operation} {reply : Value}
    (hDb : ¬ update.dbNumber < s.count) (hFlush : noFlush operation = true)
    (hEval : hasEval operation = false)
    (hRun : (machine lua).Runs s (doRequest update external operation) t reply) :
    t.visible = s.visible := by
  funext db key
  rw [State.visible_eq, State.visible_eq, live_of_missing hDb hFlush hEval hRun]

theorem RedisOperation.flat_of_isSingle {operation : RedisOperation}
    (hSingle : operation.isSingle = true) :
    redisNoFlush operation = true ∧ redisHasEval operation = false := by
  cases operation with
  | redisEval | redisExec => cases hSingle
  | _ => exact ⟨rfl, rfl⟩

section

variable (hMode : ∀ version, update.updateType ≠ .cas version)

include hMode

theorem visible_of_base_error
    (hRun : (machine lua).Runs s (doRequest update external (.base operation)) t (.error text)) :
    t.visible = s.visible := by
  by_cases hFlush : BaseOperation.takesLock operation = true
  · exact visible_of_flush_error hFlush hRun
  rw [Bool.not_eq_true] at hFlush
  by_cases hDb : update.dbNumber < s.count
  · have hSettles : (baseRequest update operation).Settles View.effect
        (fun after reply => after = (s.view.performBase update operation).1 ∧
          reply = (s.view.performBase update operation).2) s.view := by
      rw [settles_performBase hMode hDb hFlush]
      exact ⟨rfl, rfl⟩
    obtain ⟨hView, hReply⟩ := hRun.settles (shows_view lua) hSettles
    rw [View.performBase_of_error hReply.symm] at hView
    exact congrArg View.visible hView
  · exact visible_of_missing hDb (by simpa [noFlush] using hFlush) rfl hRun

theorem visible_of_redis_error {operation : RedisOperation} (hSingle : operation.isSingle = true)
    (hRun : (machine lua).Runs s (doRequest update external (.redis operation)) t (.error text)) :
    t.visible = s.visible := by
  by_cases hDb : update.dbNumber < s.count
  · have hFree (hExternal : external = true) (hLock : operation.takesLock = true) :
        s.readersLocked = false := by
      rw [hExternal] at hRun
      exact readersLocked_of_redisRequest hRun hLock
    obtain ⟨hView, hReply⟩ := (runs_performRedis hMode lua hDb hSingle hFree).2 t _ hRun
    rw [View.performRedis_of_error hReply.symm] at hView
    exact congrArg View.visible hView
  · obtain ⟨hFlush, hEval⟩ := RedisOperation.flat_of_isSingle hSingle
    have hPlain : noFlush (.redis operation) = true := hFlush
    exact visible_of_missing hDb hPlain hEval hRun

/-- Errors change nothing: what is visible after a single command that replies an error is
what was visible before it. -/
theorem visible_of_error {operation : Operation} (hSingle : operation.isSingleWrite = true)
    (hRun : (machine lua).Runs s (doRequest update external operation) t (.error text)) :
    t.visible = s.visible := by
  cases operation with
  | read operation => cases hSingle
  | base operation => exact visible_of_base_error hMode hRun
  | redis operation => exact visible_of_redis_error hMode hSingle hRun

end
end

/-- A counter on a list. -/
theorem visible_of_error_incr :
    ∃ t, (machine LuaMachine.none).Runs (holding (.list [[97]]))
      (doRequest ⟨0, 0, .none, false⟩ true (.base (.incr ⟨[107]⟩))) t
      (.error "Key exists but is not an Integer") ∧
      t.visible = (holding (.list [[97]])).visible := by
  have hMode (version : Nat) : (⟨0, 0, .none, false⟩ : Update).updateType ≠ .cas version := nofun
  obtain ⟨t, hRun⟩ : ∃ t, (machine LuaMachine.none).Runs (holding (.list [[97]]))
      (doRequest ⟨0, 0, .none, false⟩ true (.base (.incr ⟨[107]⟩))) t
      (.error "Key exists but is not an Integer") := ⟨_, runs_quietly 10 rfl⟩
  exact ⟨t, hRun, visible_of_error hMode rfl hRun⟩

end Cache
end CacheCat
