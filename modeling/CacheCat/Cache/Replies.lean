import CacheCat.Cache.RequestAgreement
import CacheCat.Protocol.Complaints

/-! The replies of the data handlers. Keys, fields, members and values are sent as
payloads; what is sent as a line is a text of the program. -/
namespace CacheCat

open Protocol

variable {proto : Nat}

@[simp] theorem ProtocolError.lines_toValue {error : ProtocolError} (hPlain : error.Plain) :
    error.toValue.Lines proto :=
  hPlain.lines

/-! ### Writes to one key -/

/-- Both replies of a write: to a key that is there, and to one that is not. -/
structure ComputeCommand.Lined (proto : Nat) (command : ComputeCommand) : Prop where
  mutate (entry : Entry) (clock : Nat) : (command.mutate entry clock).2.Lines proto
  init : command.init.2.Lines proto

theorem collectionCommand_lined {Collection : Type} {key : Bytes}
    {view : ValueObject → Option Collection} {wrap : Collection → ValueObject} {wrongType : Value}
    {update : Nat → Collection → Outcome Collection × Value}
    {init : Mocha.MochaOperation MyValue × Value}
    (hWrongType : wrongType.Lines proto)
    (hUpdate : ∀ clock content, (update clock content).2.Lines proto) (hInit : init.2.Lines proto) :
    (collectionCommand key view wrap wrongType update init).Lined proto where
  mutate entry clock := by
    simp only [collectionCommand]
    split
    · exact hWrongType
    · exact hUpdate _ _
  init := hInit

variable (key : Bytes) (order : HashOrder) (req : SPopReq)

theorem counterCommand_lined (step : Int → Int) (start : Int) :
    (counterCommand key step start).Lined proto where
  mutate entry clock := by
    simp only [counterCommand]
    repeat' split
    all_goals simp
  init := by simp [counterCommand]

theorem expireCommand_lined (deadline : Nat → Nat) (condition : Option ExpireCondition) :
    (expireCommand key deadline condition).Lined proto where
  mutate entry clock := by
    simp only [expireCommand]
    split <;> simp
  init := by simp [expireCommand]

@[simp] theorem lines_notAList : notAList.Lines proto := by simp [notAList]

theorem SPopReq.lines_missingKeyResponse : req.missingKeyResponse.Lines proto := by
  unfold missingKeyResponse
  split <;> simp

theorem SPopReq.lines_poppedResponse (members : List Bytes) :
    (req.poppedResponse members).Lines proto := by
  unfold poppedResponse
  split <;> simp

theorem SPopReq.lined : (req.computeCommand order).Lined proto := by
  refine collectionCommand_lined (by simp) (fun _ set => ?_) req.lines_missingKeyResponse
  split
  · simp
  · split
    · exact req.lines_missingKeyResponse
    · exact req.lines_poppedResponse _

@[simp] theorem ZIncrByReq.lines_notANumber : notANumber.Lines proto := by simp [notANumber]

theorem BitFieldReq.lines_executeLoop (data : Bytes) (operations : List BitFieldSubCommand) :
    ∀ reply ∈ (executeLoop data operations).2, reply.Lines proto := by
  have hNormalized (data : Bytes) (encoding : BitFieldEncoding) (offset : Nat)
      (normalized : Option Int) (reply : Int → Int) :
        (writeNormalized data encoding offset normalized reply).2.Lines proto := by
    cases normalized <;> simp [writeNormalized]
  have hOperation (data : Bytes) (operation : BitFieldSubCommand) :
      (executeOperation data operation).2.Lines proto := by
    cases operation <;> simp [executeOperation, hNormalized]
  induction operations generalizing data with
  | nil => simp [executeLoop]
  | cons operation rest ih =>
    simp only [executeLoop, List.mem_cons, forall_eq_or_imp]
    exact ⟨hOperation data operation, ih _⟩

theorem BitFieldReq.lined (req : BitFieldReq) : req.computeCommand.Lined proto where
  mutate entry clock := by
    simp only [computeCommand]
    split
    · simp
    · exact Value.lines_array.mpr (lines_executeLoop _ _)
  init := Value.lines_array.mpr (lines_executeLoop _ _)

@[simp] theorem lines_invalidHll : invalidHll.Lines proto := by simp [invalidHll]

@[simp] theorem HllDecodeError.lines_toValue (error : HllDecodeError) :
    error.toValue.Lines proto := by
  cases error <;> simp [toValue, corruptedHll]

theorem PfAddReq.lined (req : PfAddReq) : req.computeCommand.Lined proto where
  mutate entry clock := by
    simp only [computeCommand]
    repeat' split
    all_goals simp
  init := by simp [computeCommand]

/-! ### Reads -/

theorem readCollection_lines {Collection : Type} {view : ValueObject → Option Collection}
    {missing : Value} {reply : Collection → Value} (hMissing : missing.Lines proto)
    (hReply : ∀ content, (reply content).Lines proto) (entry : Option Entry) :
    (readCollection view missing reply entry).Lines proto := by
  cases entry with
  | none => exact hMissing
  | some entry =>
    rw [readCollection]
    cases view entry.value.data with
    | none => simp
    | some content => exact hReply content

theorem getReply_lines (entry : Option Entry) : (getReply entry).Lines proto := by
  unfold getReply
  split
  · simp
  · split <;> simp

@[simp] theorem lines_notASet : notASet.Lines proto := by simp [notASet]

@[simp] theorem lines_setReply (members : Finset Bytes) : (setReply order members).Lines proto := by
  simp [setReply]

/-- The reply of a command that combines sets. -/
theorem combined_lines (members : Option (Finset Bytes)) :
    (members.elim notASet (setReply order)).Lines proto := by
  cases members <;> simp

@[simp] theorem lines_fieldReply (map : HashObject) (field : Bytes) :
    (fieldReply map field).Lines proto :=
  Value.lines_bulkString _

@[simp] theorem lines_listingReply (withScores : Bool) (listing : List (Bytes × Float)) :
    (listingReply withScores listing).Lines proto := by
  cases withScores <;> simp [listingReply]

@[simp] theorem lines_rankReply (rank : Option Nat) : (rankReply rank).Lines proto := by
  cases rank <;> simp [rankReply]

theorem SRandMemberParams.execute_lines (params : SRandMemberParams) (env : Env)
    (entry : Option Entry) : (params.execute env entry).Lines proto := by
  have hEmpty : params.emptyResult.Lines proto := by
    unfold emptyResult
    split <;> simp
  refine readCollection_lines hEmpty (fun set => ?_) entry
  repeat' split
  all_goals simp [hEmpty]

@[simp] theorem BitPosParams.lines_outOfRange : outOfRange.Lines proto := by simp [outOfRange]

@[simp] theorem BitPosParams.lines_positionReply (position : Nat) :
    (positionReply position).Lines proto := by
  unfold positionReply
  split <;> simp

theorem BitPosParams.executeBytes_lines (params : BitPosParams) (data : Bytes) :
    (params.executeBytes data).Lines proto := by
  simp only [executeBytes]
  cases checkedUsize (data.length * 8)
  all_goals
    repeat' split
    all_goals simp

namespace PfcountParams

/-- The only replies other than a number are complaints about an object. -/
def Refuses (proto : Nat) {A : Type} (result : Except Value A) : Prop :=
  ∀ reply, result = .error reply → reply.Lines proto

theorem rawOf_refuses (entry : Entry) : Refuses proto (rawOf entry) := by
  unfold rawOf
  split <;> rintro _ ⟨⟩ <;> simp

theorem liftDecode_refuses {A : Type} (result : Except HllDecodeError A) :
    Refuses proto (liftDecode result) := by
  cases result with
  | error error =>
    rintro _ ⟨⟩
    simp
  | ok a => rintro _ ⟨⟩

theorem Refuses.bind {A B : Type} {result : Except Value A} {rest : A → Except Value B}
    (hResult : Refuses proto result) (hRest : ∀ a, Refuses proto (rest a)) :
    Refuses proto (result >>= rest) := by
  cases result with
  | error reply =>
    rintro _ ⟨⟩
    exact hResult reply rfl
  | ok a => exact hRest a

theorem single_refuses (entry : Option Entry) : Refuses proto (single entry) := by
  cases entry with
  | none => rintro _ ⟨⟩
  | some entry =>
    refine (rawOf_refuses entry).bind fun raw => (liftDecode_refuses _).bind fun cached => ?_
    cases cached with
    | some cardinality => rintro _ ⟨⟩
    | none => exact (liftDecode_refuses _).bind fun _ => by rintro _ ⟨⟩

theorem union_refuses (hll : RedisHll) (entries : List (Option Entry)) :
    Refuses proto (union hll entries) := by
  induction entries generalizing hll with
  | nil => rintro _ ⟨⟩
  | cons entry rest ih =>
    cases entry with
    | none => exact ih hll
    | some entry =>
      exact (rawOf_refuses entry).bind fun raw => (liftDecode_refuses _).bind fun _ => ih _

theorem execute_lines (params : PfcountParams) (values : List (Option Entry)) :
    (params.execute values).Lines proto := by
  have hRefuses : Refuses proto (if params.keys.length = 1 then single values.head?.join
      else (union .new values).map RedisHll.cardinality) := by
    split
    · exact single_refuses _
    · have hUnion : Refuses proto (union .new values) := union_refuses _ _
      cases hResult : union .new values with
      | ok hll => rintro _ ⟨⟩
      | error reply =>
        rintro _ ⟨⟩
        exact hUnion _ hResult
  simp only [execute]
  split
  · simp
  next hReply => exact hRefuses _ hReply

end PfcountParams

namespace Cache

/-- Whatever it finds and whatever surrounds it, the handler replies in lines. -/
def ReadHandler.Lined (proto : Nat) : ReadHandler → Prop
  | one command => ∀ entry env, (command.execute entry env).Lines proto
  | many command => ∀ entries env, (command.execute entries env).Lines proto
  | keys _ => True
  | dbSize => True

theorem readHandler_lined (operation : ReadOperation) : (readHandler operation).Lined proto := by
  have hText {missing : Value} {reply : Bytes → Value} (hMissing : missing.Lines proto)
      (hReply : ∀ data, (reply data).Lines proto) (entry : Option Entry) :
      (readText missing reply entry).Lines proto :=
    readCollection_lines hMissing hReply entry
  cases operation with
  | «exists» params => exact fun _ _ => Value.lines_integer _
  | get params => exact fun entry _ => getReply_lines entry
  | mGet params => exact fun entries _ => by simp [MgetParams.execute, getReply_lines]
  | strLen params | ttl params | pTtl params =>
    intro entry env
    cases entry with
    | none => exact Value.lines_integer _
    | some entry =>
      dsimp only [readHandler, StrLenParams.execute, TtlParams.execute, PTtlParams.execute]
      split <;> simp
  | type params =>
    intro entry env
    cases entry with
    | none => simp [TypeParams.execute]
    | some entry =>
      cases hData : entry.value.data <;> simp [TypeParams.execute, hData, ValueObject.typeString]
  | lIndex params =>
    refine fun entry _ => readCollection_lines (by simp) (fun list => ?_) entry
    dsimp only
    split <;> simp
  | memoryUsage params =>
    intro entry env
    cases entry <;> simp [MemoryUsageParams.execute]
  | sRandMember params => exact fun entry env => params.execute_lines env entry
  | sInter params | sUnion params => exact fun _ env => combined_lines env.order _
  | sDiff params =>
    intro entries env
    cases entries with
    | nil => simp [SDiffParams.execute]
    | cons first others => exact combined_lines env.order _
  | pfCount params => exact fun entries _ => params.execute_lines entries
  | keys params | dbSize params => trivial
  | bitPos params =>
    exact fun entry _ => hText (params.executeBytes_lines _) params.executeBytes_lines entry
  | getBit params | bitCount params => exact fun entry _ => hText (by simp) (fun _ => by simp) entry
  | zScore params =>
    refine fun entry _ => readCollection_lines (by simp) (fun zset => ?_) entry
    cases zset.zscore params.member <;> simp
  | lRange params | lLen params | hGet params | hMGet params | hGetAll params | hKeys params
  | hVals params | hLen params | hExists params | sMembers params | sIsMember params | sCard params
  | zRange params | zRangeByScore params | zCard params | zCount params | zRank params
  | zRevRank params =>
    exact fun entry _ => readCollection_lines (by simp) (fun _ => by simp) entry

/-! ### Handlers as programs -/

/-- The reply of a read is made from its entries in some surroundings. Nothing else
that a handler is answered gets into a line. -/
def Query.Answered : (query : Query) → query.Answer → Prop
  | .reply _ execute, value => ∃ env, value = execute env
  | _, _ => True

/-- The handler replies in lines. -/
def Lined (proto : Nat) (handler : Action Value) : Prop :=
  handler.Returns Query.Answered fun reply => reply.Lines proto

theorem Lined.pure {value : Value} (hValue : value.Lines proto) :
    Lined proto (Pure.pure value) := hValue

/-- Only the last step of a handler makes the reply. -/
theorem Lined.last {A : Type} {first : Action A} {rest : A → Action Value}
    (hRest : ∀ a, Lined proto (rest a)) : Lined proto (first >>= rest) :=
  Library.Program.Returns.last first hRest

theorem Lined.bind {handler : Action Value} {rest : Value → Action Value}
    (hHandler : Lined proto handler)
    (hRest : ∀ reply, reply.Lines proto → Lined proto (rest reply)) :
    Lined proto (handler >>= rest) :=
  Library.Program.Ensures.bind hHandler hRest

theorem Lined.reply {forScript : Bool} {execute : Env → Value}
    (hExecute : ∀ env, (execute env).Lines proto) :
    Lined proto (ask (.reply forScript execute)) := by
  refine ⟨trivial, ?_⟩
  rintro value ⟨env, rfl⟩
  exact hExecute env

variable {body : Action Value} {update : Update} {request : BaseOperation}

theorem Lined.withDatabase {db : Nat} {missing : Value} (hMissing : missing.Lines proto)
    (hBody : Lined proto body) :
    Lined proto (withDatabase db missing body) := by
  refine .last fun count => ?_
  split
  · exact hBody
  · exact .pure hMissing

theorem Lined.withReadersLocked (hBody : Lined proto body) :
    Lined proto (withReadersLocked body) :=
  .last fun _ => .bind hBody fun _ hReply => .last fun _ => .pure hReply

@[simp] theorem lines_keyNotFound : keyNotFound.Lines proto := by simp [keyNotFound]

@[simp] theorem lines_dbNotExist : dbNotExist.Lines proto := by simp [dbNotExist]

theorem readRequest_lined (forScript : Bool) (db : Nat) (readClock : Option Nat)
    (operation : ReadOperation) : Lined proto (readRequest forScript db readClock operation) := by
  have hHandler : (readHandler operation).Lined proto := readHandler_lined operation
  unfold readRequest
  cases hRead : readHandler operation with
  | one command =>
    rw [hRead] at hHandler
    exact .withDatabase (by simp) (.last fun entry => .reply (hHandler entry))
  | many command =>
    rw [hRead] at hHandler
    exact .withDatabase (by simp) (.last fun entries => .reply (hHandler entries))
  | keys params =>
    refine .withDatabase (by simp) (.last fun live => ?_)
    split
    · exact .last fun impossible => impossible.elim
    · exact .reply fun env => Value.lines_ofBytesList _
  | dbSize => exact .withDatabase (by simp) (.last fun size => .pure (by simp))

theorem finishCompute_lined {key : Bytes} {current : Option Nat}
    {result : Mocha.MochaOperation MyValue × Value} (hResult : result.2.Lines proto) :
    Lined proto (finishCompute update request key current result) := by
  unfold finishCompute
  split
  · split
    · exact .last fun _ => .pure hResult
    · exact .pure (by simp)
  · exact .last fun _ => .last fun _ => .pure hResult

theorem executeCompute_lined {command : ComputeCommand} (hCommand : command.Lined proto) :
    Lined proto (executeCompute update request command) := by
  refine .withDatabase (by simp) (.last fun entry => ?_)
  cases entry with
  | none =>
    dsimp only
    unfold initCompute
    split
    · exact .pure (by simp)
    · exact .last fun _ => .pure hCommand.init
  | some entry => exact finishCompute_lined (hCommand.mutate entry _)

theorem executeMultiReadCompute_lined {command : MultiReadComputeCommand}
    (hCommand : ∀ entries clock, (command.mutate entries clock).2.Lines proto) :
    Lined proto (executeMultiReadCompute update request command) := by
  refine .withDatabase (by simp) (.last fun entries => ?_)
  split
  · exact .last fun _ => finishCompute_lined (hCommand _ _)
  · exact finishCompute_lined (hCommand _ _)

theorem sInterStore_lines (req : SInterStoreReq) (entries : List (Option Entry)) (clock : Nat) :
    (req.computeCommand.mutate entries clock).2.Lines proto := by
  simp only [SInterStoreReq.computeCommand]
  split
  · simp
  · split <;> simp

theorem removeKey_lined (update : Update) (request : BaseOperation) (key : Bytes)
    (remove : Action Bool) : Lined proto (removeKey update request key remove) := by
  refine .withDatabase (by simp) ?_
  split
  · refine .last fun entry => ?_
    split
    · exact .last fun _ => .pure (by simp [existed])
    · exact .pure (by simp [existed])
  · exact .last fun _ => .last fun _ => .pure (by simp [existed])

theorem baseRequest_lined (update : Update) (operation : BaseOperation) :
    Lined proto (baseRequest update operation) := by
  cases operation with
  | empty => exact .last fun _ => .pure (by simp)
  | del req | unlink req => exact removeKey_lined update _ _ _
  | flushDB req =>
    refine .withReadersLocked (.withDatabase (by simp) ?_)
    exact .last fun _ => .last fun _ => .pure (by simp)
  | flushAll req => exact .withReadersLocked (.last fun _ => .last fun _ => .pure (by simp))
  | sPop req => exact .last fun env => executeCompute_lined (req.lined env.order)
  | sInterStore req => exact executeMultiReadCompute_lined (sInterStore_lines req)
  | incr req | incrBy req | decr req | decrBy req =>
    exact executeCompute_lined (counterCommand_lined _ _ _)
  | expire req | pExpire req => exact executeCompute_lined (expireCommand_lined _ _ _)
  | bitField req | pfAdd req => exact executeCompute_lined req.lined
  | set req | insert req => exact executeCompute_lined ⟨fun _ _ => Value.lines_ok, Value.lines_ok⟩
  | append req | persist req | setBit req =>
    refine executeCompute_lined ⟨fun entry clock => ?_, ?_⟩
    · dsimp only [AppendReq.computeCommand, PersistReq.computeCommand, SetBitReq.computeCommand]
      split <;> simp
    · simp [AppendReq.computeCommand, PersistReq.computeCommand, SetBitReq.computeCommand]
  | lPush req | rPush req | lPop req | rPop req | lRem req | lTrim req | hSet req | hMSet req
  | sAdd req | zAdd req | zRem req =>
    exact executeCompute_lined
      (collectionCommand_lined (by simp) (fun _ _ => by simp) (by simp))
  | lSet req | hIncr req | hDel req | hSetNx req | sRem req | zIncrBy req | zPopMin req =>
    refine executeCompute_lined (collectionCommand_lined (by simp) (fun _ content => ?_) ?_)
    all_goals
      dsimp -failIfUnchanged only [ZPopMinReq.response]
      repeat' split
      all_goals simp

/-! ### Commands made of several handlers -/

theorem Lined.lockIf {external : Bool} (hBody : Lined proto body) :
    Lined proto (lockIf external body) := by
  unfold Cache.lockIf
  split
  · exact .withReadersLocked hBody
  · exact hBody

@[simp] theorem lines_oldValue (existing : ExistingKey) : existing.oldValue.Lines proto := by
  cases existing <;> simp [ExistingKey.oldValue]

theorem finishSet_lined (update : Update) (params : SetParams) (expiresAt : Nat)
    (existing : ExistingKey) : Lined proto (finishSet update params expiresAt existing) := by
  have hPerform : Lined proto (performSet update params expiresAt existing) := by
    refine .last fun _ => .pure ?_
    split <;> simp
  unfold finishSet
  repeat' split
  all_goals first | exact hPerform | exact .pure (by simp)

theorem lookupForSet_lined (update : Update) (params : SetParams) (expiresAt : Nat)
    (existing : ExistingKey) : Lined proto (lookupForSet update params expiresAt existing) := by
  unfold lookupForSet
  split
  · exact .withDatabase (by simp) (.last fun _ => finishSet_lined update params expiresAt _)
  · exact finishSet_lined update params expiresAt existing

theorem redisSet_lined (update : Update) (params : SetParams) :
    Lined proto (redisSet update params) := by
  unfold redisSet
  split
  · exact .withDatabase (by simp) (.last fun entry => lookupForSet_lined update params _ _)
  · exact lookupForSet_lined update params _ _
  · exact lookupForSet_lined update params _ _

theorem moveEntry_lined {key newKey : Bytes} {entry : Entry} {reply : Value}
    (hReply : reply.Lines proto) : Lined proto (moveEntry update key newKey entry reply) :=
  .last fun _ => .last fun _ => .pure hReply

@[simp] theorem lines_noSuchKey : noSuchKey.Lines proto := by simp [noSuchKey]

theorem removeKeys_lined {remove : Bytes → Action Value} (hRemove : ∀ key, Lined proto (remove key))
    (keys : List Bytes) (count : Int) : Lined proto (removeKeys remove keys count) := by
  induction keys generalizing count with
  | nil => exact .pure (by simp)
  | cons key keys ih =>
    refine .bind (hRemove key) fun reply hReply => ?_
    split
    · exact .pure hReply
    · exact ih _
    · exact ih _

theorem storeSet_lined (update : Update) (key : Bytes) (results : Finset Bytes) :
    Lined proto (storeSet update key results) := by
  refine .last fun env => .last fun target => ?_
  have hAdd : Lined proto (baseRequest update (.sAdd ⟨key, env.order.list results⟩)) :=
    baseRequest_lined update _
  split
  · exact .last fun _ => hAdd
  · exact hAdd

theorem storeDifference_lined (update : Update) (key : Bytes) (others : List Bytes)
    (first : Option (Finset Bytes)) : Lined proto (storeDifference update key others first) := by
  cases first with
  | none => exact .pure (by simp)
  | some first =>
    refine .last fun results => ?_
    cases results with
    | none => exact .pure (by simp)
    | some results => exact storeSet_lined update key results

/-- The commands that neither run a script nor a transaction. -/
theorem plainRequest_lined (update : Update) (external : Bool) {operation : RedisOperation}
    (hPlain : redisIsPlain operation = true) :
    Lined proto (redisRequest update external operation) := by
  cases operation with
  | redisEval params | redisExec operations => cases hPlain
  | redisSet params => exact redisSet_lined update params
  | redisSetEx params | redisPSetEx params => exact .last fun _ => .pure (by simp)
  | redisMset params => exact .lockIf (.last fun _ => .pure (by simp))
  | redisDel params | redisUnlink params =>
    exact .lockIf (removeKeys_lined (fun _ => removeKey_lined update _ _ _) params.keys 0)
  | redisSetNx params | redisGetSet params =>
    refine .withDatabase (by simp) (.last fun entry => ?_)
    split
    all_goals first | exact .pure (by simp) | exact .last fun _ => .pure (by simp)
  | redisRename params | redisSUnionStore params =>
    refine .lockIf (.withDatabase (by simp) (.last fun found => ?_))
    cases found with
    | none => exact .pure (by simp)
    | some found =>
      first | exact moveEntry_lined (by simp) | exact storeSet_lined update params.key found
  | redisRenameNx params =>
    refine .lockIf (.withDatabase (by simp) (.last fun target => ?_))
    cases target with
    | some _ => exact .pure (by simp)
    | none =>
      refine .last fun entry => ?_
      cases entry with
      | none => exact .pure (by simp)
      | some entry => exact moveEntry_lined (by simp)
  | redisSDiffStore params =>
    refine .lockIf (.withDatabase (by simp) ?_)
    split
    · exact .pure (by simp)
    · refine .last fun entry => ?_
      cases entry with
      | none | some entry => exact storeDifference_lined update params.key _ _

mutual

/-- Without a script, whatever the request holds and whatever the database holds, the
reply is one frame as far as its lines are concerned. -/
theorem doRequest_lined (update : Update) (external : Bool) : (operation : Operation) →
    hasEval operation = false → Lined proto (doRequest update external operation)
  | .base operation, _ => baseRequest_lined update operation
  | .read operation, _ => readRequest_lined update.forScript update.dbNumber none operation
  | .redis operation, hEval => redisRequest_lined update external operation hEval

theorem redisRequest_lined (update : Update) (external : Bool) : (operation : RedisOperation) →
    redisHasEval operation = false → Lined proto (redisRequest update external operation)
  | .redisDel _, _ | .redisUnlink _, _ | .redisSet _, _ | .redisSetNx _, _ | .redisSetEx _, _
  | .redisPSetEx _, _ | .redisGetSet _, _ | .redisMset _, _ | .redisRename _, _
  | .redisRenameNx _, _ | .redisSUnionStore _, _ | .redisSDiffStore _, _ =>
    plainRequest_lined update external rfl
  | .redisExec operations, hEval => by
    refine .lockIf ?_
    refine Library.Program.Ensures.bind (execOperations_lined update operations hEval) ?_
    exact fun replies hReplies => Lined.pure (Value.lines_array.mpr hReplies)

theorem execOperations_lined (update : Update) : (operations : List Operation) →
    anyHasEval operations = false → (execOperations update operations).Returns Query.Answered
      fun replies => ∀ reply ∈ replies, reply.Lines proto
  | [], _ => by
    intro reply hMem
    cases hMem
  | operation :: operations, hEval => by
    simp only [anyHasEval, Bool.or_eq_false_iff] at hEval
    refine Library.Program.Ensures.bind (doRequest_lined update false operation hEval.1)
      fun reply hReply => ?_
    refine (execOperations_lined update operations hEval.2).bind fun replies hReplies => ?_
    intro other hMem
    rcases List.mem_cons.mp hMem with rfl | hMem
    · exact hReply
    · exact hReplies other hMem

end

/-- The same for a run of the request on any node. -/
theorem lines_of_runs {Vm : Type} {lua : LuaMachine Vm} {s t : State Vm} {handler : Action Value}
    {reply : Value} (hHandler : Lined proto handler) (hRun : (machine lua).Runs s handler t reply) :
    reply.Lines proto := by
  refine (hRun.ensures (fun _ => True) ?_ ?_ (fun _ _ _ _ => trivial) hHandler trivial).1
  · intro query body _ hBody
    cases query with
    | runScript update => exact Library.Program.Returns.trivial _
    | _ => cases hBody
  · rintro s query t answer - - ⟨env, hHandle⟩
    refine ⟨?_, trivial⟩
    cases query with
    | reply forScript execute =>
      cases hHandle
      exact ⟨env, rfl⟩
    | _ => trivial

end Cache
end CacheCat
