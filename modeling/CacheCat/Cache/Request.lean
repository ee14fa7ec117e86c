import CacheCat.Cache.Handlers
import CacheCat.Protocol.RaftCommand

/-! Dispatch of an operation to its handlers, the commands made of several
handlers, and the loop of a script. -/
namespace CacheCat.Cache

/-- The single handlers, as a write log entry or the replay of a queue calls them. -/
def baseRequest (update : Update) (operation : BaseOperation) : Action Value :=
  match operation with
  | .empty => do
      forEachDatabase fun db => ask (.activeExpireCycle db)
      return .ok
  | .set req => executeCompute update operation req.computeCommand
  | .expire req => executeCompute update operation req.computeCommand
  | .pExpire req => executeCompute update operation req.computeCommand
  | .lPush req => executeCompute update operation req.computeCommand
  | .del req => del update req
  | .incr req => executeCompute update operation req.computeCommand
  | .incrBy req => executeCompute update operation req.computeCommand
  | .append req => executeCompute update operation req.computeCommand
  | .hSet req => executeCompute update operation req.computeCommand
  | .hIncr req => executeCompute update operation req.computeCommand
  | .zAdd req => executeCompute update operation req.computeCommand
  | .sAdd req => executeCompute update operation req.computeCommand
  | .persist req => executeCompute update operation req.computeCommand
  | .insert req => executeCompute update operation req.computeCommand
  | .hDel req => executeCompute update operation req.computeCommand
  | .sRem req => executeCompute update operation req.computeCommand
  | .setBit req => executeCompute update operation req.computeCommand
  | .lPop req => executeCompute update operation req.computeCommand
  | .rPush req => executeCompute update operation req.computeCommand
  | .rPop req => executeCompute update operation req.computeCommand
  | .lRem req => executeCompute update operation req.computeCommand
  | .lSet req => executeCompute update operation req.computeCommand
  | .decrBy req => executeCompute update operation req.computeCommand
  | .hSetNx req => executeCompute update operation req.computeCommand
  | .decr req => executeCompute update operation req.computeCommand
  | .zRem req => executeCompute update operation req.computeCommand
  | .lTrim req => executeCompute update operation req.computeCommand
  | .flushDB req => flushDb update req
  | .flushAll req => flushAll update req
  | .bitField req => executeCompute update operation req.computeCommand
  | .sPop req => do
      let env ← ask .environment
      executeCompute update operation (req.computeCommand env.order)
  | .zPopMin req => executeCompute update operation req.computeCommand
  | .unlink req => unlink update req
  | .zIncrBy req => executeCompute update operation req.computeCommand
  | .hMSet req => executeCompute update operation req.computeCommand
  | .pfAdd req => executeCompute update operation req.computeCommand
  | .sInterStore req => executeMultiReadCompute update operation req.computeCommand

/-! ### Commands made of several handlers

Inside a transaction or a script the lock is already held, and `external` is
false. -/

def lockIf (external : Bool) (body : Action Value) : Action Value :=
  if external then withReadersLocked body else body

def set (update : Update) (req : SetReq) : Action Value :=
  executeCompute update (.set req) req.computeCommand

/-- `ExistingKey`: what a conditional SET finds under its key. -/
inductive ExistingKey where
  | none
  | data (text : Bytes)
  | otherType
deriving DecidableEq

def ExistingKey.ofEntry : Option Entry → ExistingKey
  | .none => .none
  | some entry => (entry.value.data.text).elim .otherType .data

/-- The reply of SET with the GET option. -/
def ExistingKey.oldValue : ExistingKey → Value
  | .data text => .bulkString (some text)
  | _ => .bulkString .none

/-- The deadline given by the options other than KEEPTTL, in wrapping `u64`. -/
def Expiration.expiresAt (now : Nat) : Expiration → Nat
  | .ex seconds => Text.wrapU64 (now + seconds * 1000)
  | .px millis => Text.wrapU64 (now + millis)
  | .exAt timestamp => Text.wrapU64 (timestamp * 1000)
  | .pxAt timestamp => timestamp
  | .keepTTL => noExpiration

def performSet (update : Update) (params : SetParams) (expiresAt : Nat) (existing : ExistingKey) :
    Action Value := do
  let _ ← set update ⟨params.key, params.value, expiresAt⟩
  return if params.get then existing.oldValue else .ok

/-- The end of SET, when the deadline and the existing key are known. -/
def finishSet (update : Update) (params : SetParams) (expiresAt : Nat) (existing : ExistingKey) :
    Action Value :=
  match params.mode with
  | some .nx =>
    if existing = .none then performSet update params expiresAt existing
    else return if params.get then existing.oldValue else .bulkString none
  | some .xx =>
    if existing = .none then return .bulkString none
    else performSet update params expiresAt existing
  | none => performSet update params expiresAt existing

/-- The second lookup, which is made when the first found nothing or was not made. -/
def lookupForSet (update : Update) (params : SetParams) (expiresAt : Nat) (existing : ExistingKey) :
    Action Value :=
  if existing = .none ∧ (params.mode.isSome ∨ params.get) then
    withDatabase update.dbNumber dbNotExist do
      let entry ← ask (.getEntry update.dbNumber params.key)
      finishSet update params expiresAt (.ofEntry entry)
  else finishSet update params expiresAt existing

def redisSet (update : Update) (params : SetParams) : Action Value :=
  match params.expiration with
  | some .keepTTL =>
    withDatabase update.dbNumber dbNotExist do
      let entry ← ask (.getEntry update.dbNumber params.key)
      lookupForSet update params (entry.bind (·.expireAt) |>.getD noExpiration) (.ofEntry entry)
  | some expiration => lookupForSet update params
    (Expiration.expiresAt update.writeClock expiration) .none
  | none => lookupForSet update params noExpiration .none

def redisSetNx (update : Update) (params : SetNxParams) : Action Value :=
  withDatabase update.dbNumber dbNotExist do
    match ← ask (.getEntry update.dbNumber params.key) with
    | some _ => return .bulkString none
    | none =>
      let _ ← set update ⟨params.key, params.value, noExpiration⟩
      return .ok

def redisSetEx (update : Update) (params : SetExParams) : Action Value := do
  let _ ← set update
    ⟨params.key, params.value, Text.wrapU64 (update.writeClock + params.expiration * 1000)⟩
  return .ok

def redisPSetEx (update : Update) (params : PSetExParams) : Action Value := do
  let _ ← set update
    ⟨params.key, params.value, Text.wrapU64 (update.writeClock + params.expiration)⟩
  return .ok

def redisGetSet (update : Update) (params : GetSetParams) : Action Value :=
  withDatabase update.dbNumber dbNotExist do
    match ExistingKey.ofEntry (← ask (.getEntry update.dbNumber params.key)) with
    | .otherType => return ProtocolError.wrongType.toValue
    | existing =>
      let _ ← set update ⟨params.key, params.value, 0⟩
      return existing.oldValue

def redisMset (update : Update) (params : MsetParams) (external : Bool) : Action Value :=
  lockIf external do
    params.pairs.forM fun pair => do
      let _ ← set update ⟨pair.1, pair.2, 0⟩
      return ()
    return .ok

def insert (update : Update) (req : InsertReq) : Action Value :=
  executeCompute update (.insert req) req.computeCommand

/-- The second half of both renames. -/
def moveEntry (update : Update) (key newKey : Bytes) (entry : Entry) (reply : Value) :
    Action Value := do
  let _ ← del update ⟨key⟩
  let _ ← insert update ⟨newKey, entry.value.data, entry.expireAt.getD 0⟩
  return reply

def noSuchKey : Value := .error "no such key"

def redisRename (update : Update) (params : RenameParams) (external : Bool) : Action Value :=
  lockIf external do
    withDatabase update.dbNumber dbNotExist do
      match ← ask (.getEntry update.dbNumber params.key) with
      | none => return noSuchKey
      | some entry => moveEntry update params.key params.newKey entry .ok

def redisRenameNx (update : Update) (params : RenameNxParams) (external : Bool) : Action Value :=
  lockIf external do
    withDatabase update.dbNumber dbNotExist do
      match ← ask (.getEntry update.dbNumber params.newKey) with
      | some _ => return .integer 0
      | none =>
        match ← ask (.getEntry update.dbNumber params.key) with
        | none => return noSuchKey
        | some entry => moveEntry update params.key params.newKey entry (.integer 1)

/-- The loop of DEL and UNLINK over several keys. -/
def removeKeys (remove : Bytes → Action Value) : List Bytes → Int → Action Value
  | [], count => return .integer count
  | key :: keys, count => do
      match ← remove key with
      | .error text => return .error text
      | .integer removed => removeKeys remove keys (count + removed)
      | _ => removeKeys remove keys count

def redisDel (update : Update) (params : DelParams) (external : Bool) : Action Value :=
  lockIf external (removeKeys (fun key => del update ⟨key⟩) params.keys 0)

def redisUnlink (update : Update) (params : UnlinkParams) (external : Bool) : Action Value :=
  lockIf external (removeKeys (fun key => unlink update ⟨key⟩) params.keys 0)

/-- The loop of the two *STORE commands that are made of several handlers; it ends
with `none` at the first value that is not a set. -/
def combineSets (db : Nat) (combine : Finset Bytes → Finset Bytes → Finset Bytes) :
    List Bytes → Finset Bytes → Action (Option (Finset Bytes))
  | [], results => return some results
  | key :: keys, results => do
      match ← ask (.getEntry db key) with
      | none => combineSets db combine keys results
      | some entry =>
        match ValueObject.asSet entry.value.data with
        | none => return none
        | some data => combineSets db combine keys (combine results data)

/-- The target is deleted, and the result is added in the order of iteration. -/
def storeSet (update : Update) (key : Bytes) (results : Finset Bytes) : Action Value := do
  let env ← ask .environment
  let target ← ask (.getEntry update.dbNumber key)
  if target.isSome then
    let _ ← del update ⟨key⟩
  let req : SAddReq := ⟨key, env.order.list results⟩
  executeCompute update (.sAdd req) req.computeCommand

def redisSUnionStore (update : Update) (params : SUnionStoreParams) (external : Bool) :
    Action Value :=
  lockIf external do
    withDatabase update.dbNumber dbNotExist do
      match ← combineSets update.dbNumber (· ∪ ·) params.keys ∅ with
      | none => return notASet
      | some results => storeSet update params.key results

/-- The other sources are taken off the first; `none` stands for one that is not a
set. -/
def storeDifference (update : Update) (key : Bytes) (others : List Bytes) :
    Option (Finset Bytes) → Action Value
  | none => return notASet
  | some first => do
      match ← combineSets update.dbNumber (· \ ·) others first with
      | none => return notASet
      | some results => storeSet update key results

/-- A missing first source leaves nothing to take members from, but the other
sources are still checked. -/
def redisSDiffStore (update : Update) (params : SDiffStoreParams) (external : Bool) :
    Action Value :=
  lockIf external do
    withDatabase update.dbNumber dbNotExist do
      match params.keys with
      | [] => return (ProtocolError.wrongArgCount "wrong number of arguments for command").toValue
      | first :: others =>
        match ← ask (.getEntry update.dbNumber first) with
        | none => storeDifference update params.key others (some ∅)
        | some entry =>
          storeDifference update params.key others (ValueObject.asSet entry.value.data)

/-! ### Scripts -/

/-- `Value::from_lua(res?, proto)`. -/
def scriptReply (proto : Nat) : Except LuaError LuaValue → Value
  | .error error => error.toProtocolError.toValue
  | .ok value => fromLua proto value

def execLua (update : Update) (params : EvalParams) : Action Value := do
  ask .beginScript
  match ← ask (.enterScript params) with
  | .error error =>
    ask (.endScript false)
    return error.toValue
  | .ok () =>
    let result ← ask (.runScript update)
    ask (.endScript true)
    return scriptReply params.proto result

/-! ### Dispatch -/

mutual

/-- `do_request`: `external` is true for the operation of a log entry itself. -/
def doRequest (update : Update) (external : Bool) : Operation → Action Value
  | .read operation => readRequest update.forScript update.dbNumber none operation
  | .base operation => baseRequest update operation
  | .redis operation => redisRequest update external operation

def redisRequest (update : Update) (external : Bool) : RedisOperation → Action Value
  | .redisDel params => redisDel update params external
  | .redisSet params => redisSet update params
  | .redisSetNx params => redisSetNx update params
  | .redisSetEx params => redisSetEx update params
  | .redisPSetEx params => redisPSetEx update params
  | .redisGetSet params => redisGetSet update params
  | .redisMset params => redisMset update params external
  | .redisRename params => redisRename update params external
  | .redisRenameNx params => redisRenameNx update params external
  | .redisEval params => lockIf external (execLua update params)
  | .redisExec operations => lockIf external do
      return .array (some (← execOperations update operations))
  | .redisSUnionStore params => redisSUnionStore update params external
  | .redisSDiffStore params => redisSDiffStore update params external
  | .redisUnlink params => redisUnlink update params external

/-- The loop of EXEC. -/
def execOperations (update : Update) : List Operation → Action (List Value)
  | [] => return []
  | operation :: operations => do
      let reply ← doRequest update false operation
      let replies ← execOperations update operations
      return reply :: replies

end

/-! ### The loop of a script -/

/-- `redis.call`: an error is raised in the script. -/
def redisCall (update : Update) (args : List String) : Action ScriptReply :=
  if args.isEmpty then return .raise "redis.call requires at least one argument"
  else
    match RaftCommand.parseRequest (args.map .simpleString) with
    | .error error => return .raise error.text
    | .ok operation => do
        match ← doRequest { update with forScript := true } false operation with
        | .error text => return .raise text
        | reply => return .value reply

/-- `redis.pcall`: an error is a value of the script. -/
def redisPcall (update : Update) (args : List String) : Action ScriptReply :=
  if args.isEmpty then return .raise "redis.pcall requires at least one argument"
  else
    match RaftCommand.parseRequest (args.map .simpleString) with
    | .error error => return .value (.error error.text)
    | .ok operation => do
        return .value (← doRequest { update with forScript := true } false operation)

/-- From one stop of the script to the next, and so on to its end. -/
def scriptLoop (update : Update) : Action (Except LuaError LuaValue) := do
  match ← ask .advanceScript with
  | .finish result => return result
  | .hook =>
    if ← ask .interrupted then
      ask (.resumeScript (.raise "script interrupted by host"))
    ask (.runScript update)
  | .call args =>
    let reply ← redisCall update args
    ask (.resumeScript reply)
    ask (.runScript update)
  | .pcall args =>
    let reply ← redisPcall update args
    ask (.resumeScript reply)
    ask (.runScript update)

open Library (Machine)

def procedure : (query : Query) → Option (Action query.Answer)
  | .runScript update => some (scriptLoop update)
  | _ => none

/-- A node: the surroundings are another at every query. -/
def machine {Vm : Type} (lua : LuaMachine Vm) : Machine (State Vm) Query Query.Answer where
  procedure := procedure
  perform s query t answer := ∃ env, handle lua env s query = some (t, answer)
  disturb := Disturbs

/-- The run of a program in fixed surroundings, if `fuel` is enough. -/
def execute {Vm A : Type} (lua : LuaMachine Vm) (env : Env) (fuel : Nat) (s : State Vm)
    (program : Action A) : Option (State Vm × A) :=
  (machine lua).interpret (handle lua env) fuel s program

theorem runs_of_execute {Vm A : Type} {lua : LuaMachine Vm} {env : Env} {fuel : Nat}
    {s t : State Vm} {program : Action A} {a : A}
    (hRun : execute lua env fuel s program = some (t, a)) : (machine lua).Runs s program t a := by
  refine Machine.runs_of_interpret (fun s query t answer hHandle => ?_) hRun
  exact ⟨env, hHandle⟩

theorem runs_quietly {Vm A : Type} {lua : LuaMachine Vm} {s t : State Vm} {program : Action A}
    {a : A} (fuel : Nat) (hRun : execute lua .quiet fuel s program = some (t, a)) :
    (machine lua).Runs s program t a :=
  runs_of_execute hRun

end CacheCat.Cache
