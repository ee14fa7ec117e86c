import CacheCat.Cache.Refusal
import CacheCat.Command.Encodings

/-! Two states that differ only in how integers are encoded. The commands on strings,
bitmaps and hashes reply the same in both and lead to two such states again, but for two
that match on the encoding: APPEND and HINCRBY. -/
namespace CacheCat

/-! ### The commands -/

namespace BaseOperation

/-- The write commands on strings, bitmaps and hashes. -/
def onText : BaseOperation → Bool
  | .set _ | .incr _ | .incrBy _ | .decr _ | .decrBy _ | .append _ | .setBit _ | .bitField _
  | .pfAdd _ | .hSet _ | .hMSet _ | .hSetNx _ | .hIncr _ | .hDel _ => true
  | _ => false

/-- APPEND to a value that reads as an integer, and HINCRBY of such a field. -/
def SeesEncoding (operation : BaseOperation) (data : ValueObject) : Prop :=
  match operation with
  | .append _ => data.Integral
  | .hIncr req => ∃ map value, data = .hash map ∧ map.lookup req.field = some value ∧ value.Integral
  | _ => False

variable {operation : BaseOperation} {order : HashOrder} {command : ComputeCommand} {a b : Entry}

/-- Entries that differ in encodings only are treated alike, unless the command sees the
encoding. -/
theorem treats (hText : operation.onText = true)
    (hCommand : operation.computeCommand order = some command) (hRecoded : a.Recoded b)
    (hBlind : ¬ operation.SeesEncoding a.value.data) : command.Treats a b := by
  cases operation <;> obtain ⟨⟩ := hCommand
  case append req | pfAdd req =>
    apply ComputeCommand.treats_of_eq
    intro clock
    obtain ⟨⟨v, data⟩, expireAt⟩ := a
    obtain ⟨⟨w, data'⟩, expireAt'⟩ := b
    obtain ⟨hData, rfl, rfl⟩ := hRecoded
    cases hData with
    | same | hash => rfl
    | asString hFits | asInt hFits =>
      first
        | (simp only [PfAddReq.computeCommand, validateHeader_intBytes]; done)
        | exact absurd ⟨_, hFits, by simp⟩ hBlind
  case hIncr req =>
    refine treats_hashCommand hRecoded fun clock x y hHash hFields => ?_
    have hMap : a.value.data = .hash x := ValueObject.asHash_eq_some.mp hHash
    have hField := hFields req.field
    generalize hFound : x.lookup req.field = found at hField ⊢
    generalize y.lookup req.field = found' at hField ⊢
    cases hField with
    | none => exact ⟨.keep (hFields.insert _ (.same _)), rfl⟩
    | @some value _ hValue =>
      cases hValue with
      | same =>
        cases value with
        | int n => exact ⟨.keep (hFields.insert _ (.same _)), rfl⟩
        | str data => exact ⟨.refuse, rfl⟩
      | asStr hFits => exact absurd ⟨x, _, hMap, hFound, _, hFits, .inl rfl⟩ hBlind
      | asInt hFits => exact absurd ⟨x, _, hMap, hFound, _, hFits, .inr rfl⟩ hBlind
  case incr req | incrBy req | decr req | decrBy req => exact treats_counterCommand _ _ _ hRecoded
  case set req | setBit req | bitField req =>
    apply ComputeCommand.treats_of_eq
    intro clock
    simp only [SetReq.computeCommand, SetBitReq.computeCommand, BitFieldReq.computeCommand,
      hRecoded.version, hRecoded.data.text_eq, Mocha.EntrySnapshot.getExpirePolicy,
        hRecoded.expireAt]
  case hSet req =>
    refine treats_hashCommand hRecoded fun clock x y _ hFields => ?_
    obtain ⟨hAfter, hCount⟩ := hFields.foldl_insertField req.elements
    exact ⟨.keep hAfter, congrArg (fun n : Nat => Value.integer n) hCount⟩
  case hMSet req =>
    refine treats_hashCommand hRecoded fun clock x y _ hFields => ?_
    exact ⟨.keep (hFields.insertFields req), rfl⟩
  case hSetNx req =>
    refine treats_hashCommand hRecoded fun clock x y _ hFields => ?_
    rw [hFields.isSome_eq]
    split
    · exact ⟨.refuse, rfl⟩
    · exact ⟨.keep (hFields.insert _ (.same _)), rfl⟩
  case hDel req =>
    refine treats_hashCommand hRecoded fun clock x y _ hFields => ?_
    obtain ⟨hAfter, hCount⟩ := hFields.foldl_removeField req.fields
    simp only [hCount]
    split
    · exact ⟨.refuse, rfl⟩
    · exact ⟨.keep hAfter, rfl⟩
  all_goals cases hText

end BaseOperation

/-- The read commands on strings, bitmaps and hashes. -/
def ReadOperation.onText : ReadOperation → Bool
  | .get _ | .mGet _ | .strLen _ | .getBit _ | .bitCount _ | .bitPos _ | .pfCount _ | .hGet _
  | .hMGet _ | .hGetAll _ | .hKeys _ | .hVals _ | .hLen _ | .hExists _ => true
  | _ => false

namespace Cache

open Library (Program)

/-- A read replies the same to entries that differ in encodings only. -/
def ReadHandler.Blind : ReadHandler → Prop
  | .one command => ∀ x y env, Option.Rel Entry.Recoded x y →
    command.execute x env = command.execute y env
  | .many command => ∀ xs ys env, List.Forall₂ (Option.Rel Entry.Recoded) xs ys →
      command.execute xs env = command.execute ys env
  | _ => False

theorem blind_readHandler {operation : ReadOperation} (hText : operation.onText = true) :
    (readHandler operation).Blind := by
  cases operation with
  | get params => exact fun x y env hFound => getReply_recoded hFound
  | mGet params => exact fun xs ys env hFound => MgetParams.execute_recoded hFound
  | pfCount params => exact fun xs ys env hFound => PfcountParams.execute_recoded params hFound
  | strLen params =>
    intro x y env hFound
    cases hFound with
    | none => rfl
    | some hEntry => simp only [StrLenParams.execute, hEntry.data.text_eq]
  | getBit params | bitCount params | bitPos params =>
    exact fun x y env hFound => readText_recoded hFound _ _
  | hGet params | hMGet params | hGetAll params | hKeys params | hVals params | hLen params
  | hExists params =>
    refine fun x y env hFound => readHash_recoded hFound _ fun a b hFields => ?_
    simp only [hFields.keys_eq, hFields.isSome_eq, funext hFields.fieldReply_eq]
  | _ => cases hText

/-! ### Views that differ in encodings only -/

structure View.Recoded (a b : View) : Prop where
  count : a.count = b.count
  writeClock : a.writeClock = b.writeClock
  readersLocked : a.readersLocked = b.readersLocked
  live : ∀ db key, Option.Rel Entry.Recoded (a.live db key) (b.live db key)

namespace View.Recoded

variable {a b : View} (hViews : a.Recoded b)

include hViews

theorem symm : b.Recoded a :=
  ⟨hViews.count.symm, hViews.writeClock.symm, hViews.readersLocked.symm,
    fun db key => rel_symm Entry.Recoded.symm (hViews.live db key)⟩

variable (db : Nat) (key : Bytes)

theorem put {x y : Entry} (hEntry : x.Recoded y) : (a.put db key x).Recoded (b.put db key y) := by
  refine ⟨hViews.count, hViews.writeClock, hViews.readersLocked, fun other k => ?_⟩
  rw [View.put_live, View.put_live, ← hViews.writeClock]
  split
  · exact rel_filter (fun x y hEntry => by rw [expired_congr hEntry.expireAt]) (.some hEntry)
  · exact hViews.live other k

theorem drop : (a.drop db key).Recoded (b.drop db key) := by
  refine ⟨hViews.count, hViews.writeClock, hViews.readersLocked, fun other k => ?_⟩
  simp only [View.drop]
  split
  · exact .none
  · exact hViews.live other k

theorem store {x y : Mocha.MochaOperation MyValue} (hOperation : RecodedOperation x y) :
    (a.store db key x).Recoded (b.store db key y) := by
  cases hOperation with
  | insert hData expire =>
    refine hViews.put db key ⟨hData, rfl, ?_⟩
    rw [hViews.writeClock]
  | remove => exact hViews.drop db key
  | abort => exact hViews

/-- A write command on both. -/
theorem compute {update : Update} {command : ComputeCommand}
    (hTreats : ∀ x y, a.live update.dbNumber command.key = some x → x.Recoded y →
      command.Treats x y) :
    (a.compute update command).1.Recoded (b.compute update command).1 ∧
      (a.compute update command).2 = (b.compute update command).2 := by
  have hFound := hViews.live update.dbNumber command.key
  unfold View.compute
  generalize hLive : a.live update.dbNumber command.key = found at hFound ⊢
  generalize b.live update.dbNumber command.key = found' at hFound ⊢
  cases hFound with
  | none => exact ⟨hViews.store _ _ (.refl _), rfl⟩
  | some hEntry =>
    obtain ⟨hOperation, hReply⟩ := hTreats _ _ hLive hEntry update.writeClock
    exact ⟨hViews.store _ _ hOperation, hReply⟩

theorem write (req : SetReq) : (a.write db req).Recoded (b.write db req) := by
  have hFound := hViews.live db req.key
  unfold View.write
  generalize a.live db req.key = found at hFound ⊢
  generalize b.live db req.key = found' at hFound ⊢
  cases hFound with
  | none => exact hViews.put db req.key ⟨.same _, rfl, rfl⟩
  | some hEntry =>
    exact hViews.put db req.key ⟨.same _, congrArg (· + 1) hEntry.version, rfl⟩

end View.Recoded

theorem ExistingKey.ofEntry_recoded {x y : Option Entry} (hFound : Option.Rel Entry.Recoded x y) :
    ofEntry x = ofEntry y := by
  cases hFound with
  | none => rfl
  | some hEntry => simp only [ofEntry, hEntry.data.text_eq]

theorem SetParams.refused_recoded (params : SetParams) {x y : Option Entry}
    (hFound : Option.Rel Entry.Recoded x y) :
    params.refused x = params.refused y ∧ params.response x = params.response y ∧
      ∀ clock, params.request clock x = params.request clock y := by
  have hRefused : params.refused x = params.refused y := by
    cases hFound <;> rfl
  have hDeadline : x.bind (·.expireAt) = y.bind (·.expireAt) := by
    cases hFound with
    | none => rfl
    | some hEntry => exact hEntry.expireAt
  refine ⟨hRefused, ?_, fun clock => ?_⟩
  · rw [SetParams.response, SetParams.response, hRefused, ExistingKey.ofEntry_recoded hFound]
  · rw [SetParams.request, SetParams.request, SetParams.expiresAt, SetParams.expiresAt, hDeadline]

/-- SET and its relatives, which are all on strings. -/
def RedisOperation.onText : RedisOperation → Bool
  | .redisSet _ | .redisSetNx _ | .redisSetEx _ | .redisPSetEx _ | .redisGetSet _
  | .redisMset _ => true
  | _ => false

theorem View.Recoded.performRedis {a b : View} (hViews : a.Recoded b) (update : Update)
    {operation : RedisOperation} (hText : RedisOperation.onText operation = true) :
    (a.performRedis update operation).1.Recoded (b.performRedis update operation).1 ∧
      (a.performRedis update operation).2 = (b.performRedis update operation).2 := by
  cases operation with
  | redisSet params =>
    obtain ⟨hRefused, hResponse, hRequest⟩ :=
      SetParams.refused_recoded params (hViews.live update.dbNumber params.key)
    simp only [View.performRedis, hRefused, hResponse, hRequest]
    refine ⟨?_, trivial⟩
    split
    · exact hViews
    · exact hViews.write _ _
  | redisSetEx params | redisPSetEx params => exact ⟨hViews.write _ _, rfl⟩
  | redisSetNx params | redisGetSet params =>
    have hFound := hViews.live update.dbNumber params.key
    simp only [View.performRedis, View.setNx, View.getSet, rel_isSome hFound,
      ExistingKey.ofEntry_recoded hFound]
    split
    · exact ⟨hViews, rfl⟩
    · exact ⟨hViews.write _ _, rfl⟩
  | redisMset params =>
    refine ⟨List.foldl_rel (r := View.Recoded) hViews fun pair _ x y hWritten => ?_, rfl⟩
    exact hWritten.write _ _
  | _ => cases hText

/-! ### Requests -/

/-- What a client asks for: an operation that goes through the log, or a read with a clock
of its own. -/
inductive Served where
  | entry (update : Update) (external : Bool) (operation : Operation)
  | read (forScript : Bool) (db : Nat) (readClock : Option Nat) (operation : ReadOperation)

namespace Served

def program : Served → Action Value
  | .entry update external operation => doRequest update external operation
  | .read forScript db readClock operation => readRequest forScript db readClock operation

/-- The request comes from a client and not from the replay of a queue. -/
def FromClient : Served → Prop
  | .entry update _ _ => ∀ version, update.updateType ≠ .cas version
  | .read .. => True

/-- A command on strings, bitmaps or hashes. -/
def onText : Served → Bool
  | .entry _ _ (.base operation) => operation.onText
  | .entry _ _ (.read operation) => operation.onText
  | .entry _ _ (.redis operation) => RedisOperation.onText operation
  | .read _ _ _ operation => operation.onText

/-- In this view the command sees the encoding of a value. -/
def SeesEncoding (view : View) : Served → Prop
  | .entry update _ (.base operation) => update.dbNumber < view.count ∧
      ∃ key ∈ operation.names, ∃ entry, view.live update.dbNumber key = some entry ∧
        operation.SeesEncoding entry.value.data
  | _ => False

end Served

section

variable {Vm : Type} (lua : LuaMachine Vm)

/-- Whatever the program does from `s` it can do from `t`, with the same reply, and the
two states it leads to again differ in encodings only. -/
def FollowedBy (program : Action Value) (s t : State Vm) : Prop :=
  ∀ s' reply, (machine lua).Runs s program s' reply →
    ∃ t', (machine lua).Runs t program t' reply ∧ s'.view.Recoded t'.view

/-- No other encoding of the state makes a difference to the request. -/
def EncodingUnobservable (request : Served) (s : State Vm) : Prop :=
  ∀ t : State Vm, s.view.Recoded t.view →
    FollowedBy lua request.program s t ∧ FollowedBy lua request.program t s

end

variable {data : ValueObject}

section

variable {Vm : Type} {lua : LuaMachine Vm} {s t : State Vm}

/-- The two views lead to known ones, with one reply. -/
theorem followedBy_of_settles {program : Action Value} (after : View → View × Value)
    (hLeft : program.Settles View.effect
      (fun view reply => view = (after s.view).1 ∧ reply = (after s.view).2) s.view)
    (hRight : program.Settles View.effect
      (fun view reply => view = (after t.view).1 ∧ reply = (after t.view).2) t.view)
    (hAfter : (after s.view).1.Recoded (after t.view).1 ∧ (after s.view).2 = (after t.view).2) :
    FollowedBy lua program s t := by
  intro s' reply hRun
  obtain ⟨hView, rfl⟩ := hRun.settles (shows_view lua) hLeft
  obtain ⟨t', reply', hRun'⟩ := (shows_view lua).exists_run hRight
  obtain ⟨hView', rfl⟩ := hRun'.settles (shows_view lua) hRight
  refine ⟨t', ?_, ?_⟩
  · rw [hAfter.2]
    exact hRun'
  · rw [hView, hView']
    exact hAfter.1

/-! ### Write commands -/

/-- What a write command makes of a view, also where the database is missing. -/
def View.attempt (view : View) (update : Update) (command : ComputeCommand) : View × Value :=
  if update.dbNumber < view.count then view.compute update command else (view, keyNotFound)

variable {update : Update} {command : ComputeCommand} {entry : Entry} {operation : BaseOperation}
    {external : Bool}

theorem View.attempt_reply {view : View} (hDb : update.dbNumber < view.count)
    (hLive : view.live update.dbNumber command.key = some entry) :
    (view.attempt update command).2 = (command.mutate entry update.writeClock).2 := by
  rw [View.attempt, if_pos hDb, View.compute]
  simp only [hLive]

theorem settles_attempt (hMode : ∀ version, update.updateType ≠ .cas version) {order : HashOrder}
    (hCommand : operation.computeCommand order = some command) (view : View) :
    (baseRequest update operation).Settles View.effect
      (fun after reply => after = (view.attempt update command).1 ∧
        reply = (view.attempt update command).2) view := by
  rw [settles_baseRequest hCommand]
  unfold View.attempt
  split
  next hDb =>
    rw [settles_executeCompute hMode hDb]
    exact ⟨rfl, rfl⟩
  next hDb =>
    rw [executeCompute, settles_withDatabase, if_neg hDb]
    exact ⟨rfl, rfl⟩

theorem BaseOperation.computeCommand_of_onText (hText : operation.onText = true) :
    ∃ command, operation.computeCommand .sorted = some command ∧
      operation.names = [command.key] := by
  cases operation with
  | set | incr | incrBy | decr | decrBy | append | setBit | bitField | pfAdd | hSet | hMSet | hSetNx
  | hIncr | hDel => exact ⟨_, rfl, rfl⟩
  | _ => cases hText

/-- What the other encoding of a value reads as is the same. -/
theorem BaseOperation.SeesEncoding.recoded {a b : ValueObject} (hSees : operation.SeesEncoding a)
    (hRecoded : a.Recoded b) : operation.SeesEncoding b := by
  cases operation with
  | append req => exact hRecoded.integral hSees
  | hIncr req =>
    obtain ⟨x, value, rfl, hField, hIntegral⟩ := hSees
    have hHashes := hRecoded.asHash
    generalize hOther : b.asHash = found at hHashes
    cases hHashes with
    | @some _ y hFields =>
      have hFound := hFields req.field
      rw [hField] at hFound
      generalize hValue : y.lookup req.field = found at hFound
      cases hFound with
      | some hRecoded =>
        exact ⟨y, _, ValueObject.asHash_eq_some.mp hOther, hValue, hRecoded.integral hIntegral⟩
  | _ => exact hSees

theorem followedBy_base (hMode : ∀ version, update.updateType ≠ .cas version)
    (hText : operation.onText = true) (hViews : s.view.Recoded t.view)
    (hBlind : ¬ (Served.entry update external (.base operation)).SeesEncoding s.view) :
    FollowedBy lua (doRequest update external (.base operation)) s t := by
  obtain ⟨command, hCommand, hNames⟩ := BaseOperation.computeCommand_of_onText hText
  refine followedBy_of_settles (·.attempt update command) (settles_attempt hMode hCommand s.view)
    (settles_attempt hMode hCommand t.view) ?_
  unfold View.attempt
  rw [← hViews.count]
  split
  next hDb =>
    refine hViews.compute fun x y hLive hEntry => ?_
    refine BaseOperation.treats hText hCommand hEntry fun hSees => hBlind ⟨hDb, ?_⟩
    exact ⟨command.key, by simp [hNames], x, hLive, hSees⟩
  · exact ⟨hViews, rfl⟩

/-- What SET and its relatives reply where the database is missing. -/
def missingReply : RedisOperation → Value
  | .redisSet params =>
    if params.expiration = some .keepTTL ∨ params.mode.isSome ∨ params.get then dbNotExist else .ok
  | .redisSetNx _ | .redisGetSet _ => dbNotExist
  | _ => .ok

/-- What they make of a view, also where the database is missing. -/
def View.attemptRedis (view : View) (update : Update) (operation : RedisOperation) : View × Value :=
  if update.dbNumber < view.count then view.performRedis update operation
  else (view, missingReply operation)

section

variable {view : View} {post : View → Value → Prop} {update : Update}

section

variable (hDb : ¬ update.dbNumber < view.count)

include hDb

theorem settles_set_missing (req : SetReq) :
    (set update req).Settles View.effect post view ↔ post view keyNotFound := by
  rw [set, executeCompute, settles_withDatabase, if_neg hDb]

theorem settles_lookupForSet_missing (params : SetParams) (expiresAt : Nat) :
    (lookupForSet update params expiresAt .none).Settles View.effect post view ↔
      post view (if params.mode.isSome ∨ params.get then dbNotExist else .ok) := by
  unfold lookupForSet
  by_cases hAsked : params.mode.isSome ∨ params.get
  · rw [if_pos ⟨rfl, hAsked⟩, settles_withDatabase, if_neg hDb, if_pos hAsked]
  · rw [if_neg fun hBoth => hAsked hBoth.2]
    simp only [not_or, Bool.not_eq_true, Option.isSome_eq_false_iff,
      Option.isNone_iff_eq_none] at hAsked
    simp only [finishSet, hAsked.1, performSet, Program.settles_bind, settles_set_missing hDb,
      hAsked.2]
    rfl

theorem settles_redisSet_missing (params : SetParams) :
    (redisSet update params).Settles View.effect post view ↔
      post view (missingReply (.redisSet params)) := by
  unfold redisSet missingReply
  cases hExpiration : params.expiration with
  | none => simpa [hExpiration] using settles_lookupForSet_missing hDb params noExpiration
  | some expiration =>
    cases expiration with
    | keepTTL => simp [settles_withDatabase, hDb, hExpiration]
    | _ => simpa [hExpiration] using settles_lookupForSet_missing hDb params _

theorem settles_redisMset_missing {external : Bool}
    (hFree : external = true → view.readersLocked = false) (params : MsetParams) :
    (redisMset update params external).Settles View.effect post view ↔ post view .ok := by
  have hLoop {view : View} {post : View → Value → Prop} (hDb : ¬ update.dbNumber < view.count) :
      (do
        params.pairs.forM fun pair => do
          let _ ← set update ⟨pair.1, pair.2, 0⟩
          return ()
        return .ok : Action Value).Settles View.effect post view ↔ post view .ok := by
    rw [Program.settles_bind, Program.settles_forM (fun view _ => view)
      (fun view => ¬ update.dbNumber < view.count) (fun _ _ hDb => hDb) _ params.pairs hDb]
    · simp
    · intro view pair post hDb
      simp [settles_set_missing hDb]
  cases external with
  | false => exact hLoop hDb
  | true =>
    have hLocked : ¬ update.dbNumber < (view.lock true).count := hDb
    have hBack : (view.lock true).lock false = view := by
      rw [← hFree rfl]
      rfl
    rw [redisMset, lockIf, if_pos rfl, settles_withReadersLocked, hLoop hLocked, hBack,
      and_iff_right (hFree rfl)]

end

theorem settles_missing {external : Bool} {operation : RedisOperation}
    (hText : RedisOperation.onText operation = true) (hDb : ¬ update.dbNumber < view.count)
    (hFree : external = true → operation.takesLock = true → view.readersLocked = false) :
    (redisRequest update external operation).Settles View.effect post view ↔
      post view (missingReply operation) := by
  rw [redisRequest.eq_def]
  cases operation with
  | redisSet params => exact settles_redisSet_missing hDb params
  | redisSetNx params | redisGetSet params =>
    simp only [redisSetNx, redisGetSet, settles_withDatabase, if_neg hDb]
    rfl
  | redisSetEx params | redisPSetEx params =>
    simp only [redisSetEx, redisPSetEx, Program.settles_bind, settles_set_missing hDb]
    rfl
  | redisMset params => exact settles_redisMset_missing hDb (fun h => hFree h rfl) params
  | _ => cases hText

end

theorem followedBy_redis {operation : RedisOperation}
    (hMode : ∀ version, update.updateType ≠ .cas version)
    (hText : RedisOperation.onText operation = true) (hViews : s.view.Recoded t.view) :
    FollowedBy lua (doRequest update external (.redis operation)) s t := by
  have hSingle : operation.isSingle = true := by
    cases operation with
    | redisEval | redisExec => cases hText
    | _ => rfl
  by_cases hFree : external = true → operation.takesLock = true → s.readersLocked = false
  · have hFree' (hExternal : external = true) (hLock : operation.takesLock = true) :
        t.view.readersLocked = false := hViews.readersLocked ▸ hFree hExternal hLock
    have hSettles (view : View)
        (hFree : external = true → operation.takesLock = true → view.readersLocked = false) :
        (redisRequest update external operation).Settles View.effect
          (fun after reply => after = (view.attemptRedis update operation).1 ∧
            reply = (view.attemptRedis update operation).2) view := by
      unfold View.attemptRedis
      split
      next hDb =>
        rw [settles_performRedis hMode hDb hSingle hFree]
        exact ⟨rfl, rfl⟩
      next hDb =>
        rw [settles_missing hText hDb hFree]
        exact ⟨rfl, rfl⟩
    refine followedBy_of_settles (·.attemptRedis update operation) (hSettles s.view hFree)
      (hSettles t.view hFree') ?_
    unfold View.attemptRedis
    rw [← hViews.count]
    split
    · exact hViews.performRedis update hText
    · exact ⟨hViews, rfl⟩
  · -- the lock is held, and the command waits for it in vain
    intro s' reply hRun
    refine absurd (fun hExternal hLock => ?_) hFree
    rw [hExternal] at hRun
    exact readersLocked_of_redisRequest hRun hLock

/-! ### Reads -/

theorem View.Recoded.found {a b : View} (hViews : a.Recoded b) (db : Nat) (readClock : Option Nat)
    (key : Bytes) : Option.Rel Entry.Recoded (a.found db readClock key)
    (b.found db readClock key) := by
  exact rel_filter (fun x y hEntry => by rw [expired_congr hEntry.expireAt]) (hViews.live db key)

/-- Both states answer as their views say, in any surroundings. -/
theorem followedBy_of_replies {program : Action Value} (replies : View → Env → Value)
    (hViews : s.view.Recoded t.view)
    (hLeft : program.Settles View.effect
      (fun after reply => after = s.view ∧ ∃ env, reply = replies s.view env) s.view)
    (hRight : ∀ env, ∃ t', (machine lua).Runs t program t' (replies t.view env) ∧ t'.view = t.view)
    (hSame : ∀ env, replies s.view env = replies t.view env) : FollowedBy lua program s t := by
  intro s' reply hRun
  obtain ⟨hView, env, rfl⟩ := hRun.settles (shows_view lua) hLeft
  obtain ⟨t', hRun', hView'⟩ := hRight env
  rw [hSame env]
  refine ⟨t', hRun', ?_⟩
  rw [hView, hView']
  exact hViews

theorem followedBy_read {operation : ReadOperation} (hText : operation.onText = true)
    (hViews : s.view.Recoded t.view) (forScript : Bool) (db : Nat) (readClock : Option Nat) :
    FollowedBy lua (readRequest forScript db readClock operation) s t := by
  have hBlind := blind_readHandler hText
  have hThere (hDb : db < s.count) : db < t.count := lt_of_lt_of_eq hDb hViews.count
  have hMissing (hDb : ¬ db < s.view.count) (body : Action Value) :
      FollowedBy lua (withDatabase db keyNotFound body) s t := by
    have hDb' : ¬ db < t.view.count := hViews.count ▸ hDb
    refine followedBy_of_settles (fun view => (view, keyNotFound)) ?_ ?_ ⟨hViews, rfl⟩
    · rw [settles_withDatabase, if_neg hDb]
      exact ⟨rfl, rfl⟩
    · rw [settles_withDatabase, if_neg hDb']
      exact ⟨rfl, rfl⟩
  unfold readRequest
  cases hHandler : readHandler operation with
  | one command =>
    rw [hHandler] at hBlind
    by_cases hDb : db < s.count
    · refine followedBy_of_replies
        (fun view => command.execute (view.found db readClock command.key))
        hViews ?_ (fun env => ?_) fun env => hBlind _ _ env (hViews.found db readClock command.key)
      · rw [settles_executeRead forScript hDb]
        exact fun env => ⟨rfl, env, rfl⟩
      · refine ⟨t.dropExpired db command.key, runs_withDatabase lua (hThere hDb) ?_,
          view_dropExpired t _ _⟩
        refine (runs_getWithReadClock lua t db readClock command.key).bind ?_
        exact .perform rfl ⟨env, rfl⟩ (.done _ _)
    · exact hMissing hDb _
  | many command =>
    rw [hHandler] at hBlind
    by_cases hDb : db < s.count
    · refine followedBy_of_replies
        (fun view => command.execute (command.keys.map (view.found db readClock))) hViews ?_
        (fun env => ?_) fun env => hBlind _ _ env ?_
      · rw [settles_executeMultiRead forScript hDb]
        exact fun env => ⟨rfl, env, rfl⟩
      · obtain ⟨t', hEntries, hView⟩ := runs_getAll lua t db readClock command.keys
        refine ⟨t', runs_withDatabase lua (hThere hDb) (hEntries.bind ?_), hView⟩
        exact .perform rfl ⟨env, rfl⟩ (.done _ _)
      · rw [List.forall₂_map_left_iff, List.forall₂_map_right_iff]
        exact List.forall₂_same.mpr fun key _ => hViews.found db readClock key
    · exact hMissing hDb _
  | keys | dbSize =>
    rw [hHandler] at hBlind
    exact hBlind.elim

/-! ### What sees an encoding -/

/-- The state with other data under a key. -/
def State.recode (s : State Vm) (db : Nat) (key : Bytes) (entry : Entry) (data : ValueObject) :
    State Vm :=
  s.setDatabase db ((s.databases db).insert key ⟨⟨entry.value.version, data⟩, entry.expireAt⟩)

theorem State.live_recode {db : Nat} {key : Bytes} (data : ValueObject)
    (hLive : s.live db key = some entry) (other : Nat) (k : Bytes) :
    (s.recode db key entry data).live other k = if other = db ∧ k = key then
      some ⟨⟨entry.value.version, data⟩, entry.expireAt⟩ else s.live other k := by
  have hEntry : entry.expired s.writeClock = false := s.view_unexpired db key entry hLive
  have hShown : (!(⟨⟨entry.value.version, data⟩, entry.expireAt⟩ : Entry).expired s.writeClock) =
      true :=
    congrArg not hEntry
  rw [State.recode, State.live_insert, Option.filter_some, if_pos hShown]

theorem recoded_recode {db : Nat} {key : Bytes} (hLive : s.live db key = some entry)
    (hData : entry.value.data.Recoded data) : s.view.Recoded (s.recode db key entry data).view := by
  refine ⟨rfl, rfl, rfl, fun other k => ?_⟩
  change Option.Rel _ (s.live other k) ((s.recode db key entry data).live other k)
  rw [State.live_recode data hLive]
  split
  next hKey =>
    rw [hKey.1, hKey.2, hLive]
    exact .some ⟨hData, rfl, rfl⟩
  · cases s.live other k with
    | none => exact .none
    | some entry => exact .some ⟨.same _, rfl, rfl⟩

section

variable (hMode : ∀ version, update.updateType ≠ .cas version) (hDb : update.dbNumber < s.count)

include hMode hDb

/-- A command whose replies to two encodings differ tells them apart. -/
theorem not_unobservable {order : HashOrder}
    (hCommand : operation.computeCommand order = some command)
    (hLive : s.live update.dbNumber command.key = some entry)
    (hData : entry.value.data.Recoded data) (hReply : (command.mutate entry update.writeClock).2 ≠
      (command.mutate ⟨⟨entry.value.version, data⟩, entry.expireAt⟩ update.writeClock).2) :
    ¬ EncodingUnobservable lua (.entry update external (.base operation)) s := by
  intro hSame
  obtain ⟨hFollows, -⟩ := hSame _ (recoded_recode hLive hData)
  have hOther := State.live_recode data hLive update.dbNumber command.key
  rw [if_pos ⟨rfl, rfl⟩] at hOther
  obtain ⟨s', reply, hRun⟩ := (shows_view lua).exists_run (settles_attempt hMode hCommand s.view)
  obtain ⟨t', hRun', -⟩ := hFollows s' reply hRun
  obtain ⟨-, hLeft⟩ := hRun.settles (shows_view lua) (settles_attempt hMode hCommand s.view)
  obtain ⟨-, hRight⟩ := hRun'.settles (shows_view lua) (settles_attempt hMode hCommand _)
  rw [View.attempt_reply hDb hLive] at hLeft
  rw [View.attempt_reply hDb hOther] at hRight
  exact hReply (hLeft.symm.trans hRight)

theorem not_unobservable_append {req : AppendReq}
    (hLive : s.live update.dbNumber req.key = some entry) (hIntegral : entry.value.data.Integral) :
    ¬ EncodingUnobservable lua (.entry update external (.base (.append req))) s := by
  have hCommand : (BaseOperation.append req).computeCommand .sorted = some req.computeCommand := rfl
  obtain ⟨⟨version, data⟩, expireAt⟩ := entry
  obtain ⟨n, hFits, rfl | rfl⟩ := hIntegral
  · exact not_unobservable hMode hDb hCommand hLive (.asString hFits) nofun
  · exact not_unobservable hMode hDb hCommand hLive (.asInt hFits) nofun

theorem not_unobservable_hIncr {req : HIncrReq}
    (hLive : s.live update.dbNumber req.key = some entry) {map : HashObject} {value : HashValue}
    (hMap : entry.value.data = .hash map) (hField : map.lookup req.field = some value)
    (hIntegral : value.Integral) :
    ¬ EncodingUnobservable lua (.entry update external (.base (.hIncr req))) s := by
  have hCommand : (BaseOperation.hIncr req).computeCommand .sorted = some req.computeCommand := rfl
  have hRecoded {other : HashValue} (hValue : value.Recoded other) :
      HashObject.Recoded map (map.insert req.field other) := by
    intro field
    by_cases hSame : field = req.field
    · rw [hSame, Finmap.lookup_insert, hField]
      exact .some hValue
    · rw [Finmap.lookup_insert_of_ne _ hSame]
      exact HashObject.Recoded.refl map field
  obtain ⟨⟨version, data⟩, expireAt⟩ := entry
  cases hMap
  obtain ⟨n, hFits, rfl | rfl⟩ := hIntegral
  on_goal 1 => have hOther := hRecoded (.asStr hFits)
  on_goal 2 => have hOther := hRecoded (.asInt hFits)
  all_goals
    refine not_unobservable hMode hDb hCommand hLive (ValueObject.Recoded.hash hOther) ?_
    simp [HIncrReq.computeCommand, collectionCommand, ValueObject.asHash, hField]

end

end

section

variable {Vm : Type} {lua : LuaMachine Vm} {s : State Vm} {request : Served}

theorem Served.SeesEncoding.recoded {a b : View} (hSees : request.SeesEncoding a)
    (hViews : a.Recoded b) : request.SeesEncoding b := by
  cases request with
  | read => exact hSees.elim
  | entry update external operation =>
    cases operation with
    | read | redis => exact hSees.elim
    | base operation =>
      obtain ⟨hDb, key, hKey, entry, hLive, hEntry⟩ := hSees
      have hFound := hViews.live update.dbNumber key
      rw [hLive] at hFound
      generalize hOther : b.live update.dbNumber key = found at hFound
      cases hFound with
      | some hRecoded =>
        exact ⟨lt_of_lt_of_eq hDb hViews.count, key, hKey, _, hOther,
          BaseOperation.SeesEncoding.recoded hEntry hRecoded.data⟩

theorem followedBy_of_blind (hText : request.onText = true) (hClient : request.FromClient)
    {s t : State Vm} (hBlind : ¬ request.SeesEncoding s.view) (hViews : s.view.Recoded t.view) :
    FollowedBy lua request.program s t := by
  cases request with
  | read forScript db readClock operation => exact followedBy_read hText hViews _ _ _
  | entry update external operation =>
    cases operation with
    | base operation => exact followedBy_base hClient hText hViews hBlind
    | redis operation => exact followedBy_redis hClient hText hViews
    | read operation =>
      exact followedBy_read hText hViews _ _ _

/-- For commands on strings, bitmaps and hashes encodings are unobservable exactly if the
command is no APPEND to a value that reads as an integer and no HINCRBY of such a field. -/
theorem encodingUnobservable_iff (hText : request.onText = true) (hClient : request.FromClient) :
    EncodingUnobservable lua request s ↔ ¬ request.SeesEncoding s.view := by
  constructor
  · intro hSame hSees
    cases request with
    | read => exact hSees
    | entry update external operation =>
      cases operation with
      | read | redis => exact hSees
      | base operation =>
        obtain ⟨hDb, key, hKey, entry, hLive, hEntry⟩ := hSees
        cases operation with
        | append req =>
          cases List.mem_singleton.mp hKey
          exact not_unobservable_append hClient hDb hLive hEntry hSame
        | hIncr req =>
          cases List.mem_singleton.mp hKey
          obtain ⟨map, value, hMap, hField, hIntegral⟩ := hEntry
          exact not_unobservable_hIncr hClient hDb hLive hMap hField hIntegral hSame
        | _ => exact hEntry
  · intro hBlind t hViews
    refine ⟨followedBy_of_blind hText hClient hBlind hViews,
      followedBy_of_blind hText hClient (fun hSees => hBlind ?_) hViews.symm⟩
    exact hSees.recoded hViews.symm

end

/-- A counter on a number. -/
theorem encodingUnobservable_incr : EncodingUnobservable LuaMachine.none
    (.entry ⟨0, 0, .none, false⟩ true (.base (.incr ⟨[107]⟩))) (holding (.int 5)) := by
  have hClient : (Served.entry ⟨0, 0, .none, false⟩ true (.base (.incr ⟨[107]⟩))).FromClient :=
    nofun
  refine (encodingUnobservable_iff rfl hClient).mpr ?_
  rintro ⟨-, key, -, entry, -, hSees⟩
  exact hSees

theorem recoded_holding {other : ValueObject} (hRecoded : data.Recoded other) :
    (holding data).view.Recoded (holding other).view := by
  refine ⟨rfl, rfl, rfl, fun db key => ?_⟩
  change Option.Rel _ ((holding data).live db key) ((holding other).live db key)
  rw [holding, holding, State.live_insert, State.live_insert]
  split
  · exact .some ⟨hRecoded, rfl, rfl⟩
  · exact .none

/-- APPEND extends the text 5 and refuses the number 5. HINCRBY counts on from the 5 that
HSET has written and refuses the 5 of HMSET. -/
theorem encodings_observed :
    (holding (.int 5)).view.Recoded (holding (.string [53])).view ∧
    (∃ t, (machine LuaMachine.none).Runs (holding (.string [53]))
      (doRequest ⟨0, 0, .none, false⟩ true (.base (.append ⟨[107], [49]⟩))) t (.integer 2)) ∧
    (∃ t, (machine LuaMachine.none).Runs (holding (.int 5))
      (doRequest ⟨0, 0, .none, false⟩ true (.base (.append ⟨[107], [49]⟩))) t
      (.error "Key exists but is not a String")) ∧
    (∃ t u, (machine LuaMachine.none).Runs (State.new 1 ())
        (doRequest ⟨0, 0, .none, false⟩ true (.base (.hSet ⟨[107], [([102], [53])]⟩))) t
        (.integer 1) ∧
      (machine LuaMachine.none).Runs t
        (doRequest ⟨0, 0, .none, false⟩ true (.base (.hIncr ⟨[107], [102], 1⟩))) u (.integer 6)) ∧
    ∃ t u, (machine LuaMachine.none).Runs (State.new 1 ())
        (doRequest ⟨0, 0, .none, false⟩ true (.base (.hMSet ⟨[107], [([102], [53])]⟩))) t .ok ∧
      (machine LuaMachine.none).Runs t
        (doRequest ⟨0, 0, .none, false⟩ true (.base (.hIncr ⟨[107], [102], 1⟩))) u
        (.error "ERR hash value is not an integer") := by
  have hRecoded : ValueObject.Recoded (.int 5) (.string (Text.intBytes 5)) := .asString (by decide)
  have hSet : ∃ t, execute LuaMachine.none .quiet 10 (State.new 1 ())
      (doRequest ⟨0, 0, .none, false⟩ true (.base (.hSet ⟨[107], [([102], [53])]⟩))) =
        some (t, .integer 1) := ⟨_, rfl⟩
  -- the digits are read in the kernel
  have hCount : ((execute LuaMachine.none .quiet 10 (State.new 1 ())
      (doRequest ⟨0, 0, .none, false⟩ true (.base (.hSet ⟨[107], [([102], [53])]⟩)))).bind
        fun first =>
        (execute LuaMachine.none .quiet 10 first.1
          (doRequest ⟨0, 0, .none, false⟩ true (.base (.hIncr ⟨[107], [102], 1⟩)))).map
            fun second =>
            match second.2 with
            | .integer n => n
            | _ => 0) = some 6 := by decide +kernel
  obtain ⟨v, hSet⟩ := hSet
  rw [hSet] at hCount
  obtain ⟨⟨v', reply⟩, hIncr, hReply⟩ := Option.map_eq_some_iff.mp hCount
  obtain rfl : reply = .integer 6 := by
    cases reply with
    | integer n => exact congrArg Value.integer hReply
    | _ => cases hReply
  refine ⟨recoded_holding hRecoded, ⟨_, runs_quietly 10 rfl⟩, ⟨_, runs_quietly 10 rfl⟩,
    ⟨v, v', runs_of_execute hSet, runs_of_execute hIncr⟩, ?_⟩
  exact ⟨_, _, runs_quietly 10 rfl, runs_quietly 10 rfl⟩

end Cache
end CacheCat
