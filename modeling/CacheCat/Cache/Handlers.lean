import CacheCat.Cache.Machine
import CacheCat.Data.Glob

/-! The handlers of the operations on one database: the dispatcher of the write
commands with its three update modes, removal, flushing and the reads. -/
namespace CacheCat.Cache

open Mocha (MochaOperation)

def keyNotFound : Value := .error "Key not found"

def dbNotExist : Value := ProtocolError.dbNotExist.toValue

/-- `databases.get(db_number)`: go on if there is such a database. -/
def withDatabase (db : Nat) (missing : Value) (body : Action Value) : Action Value := do
  let count ← ask .databaseCount
  if db < count then body else return missing

def store (db : Nat) (key : Bytes) : MochaOperation MyValue → Action Unit
  | .insert value expire => ask (.insertEntry db key value expire)
  | .remove => do
      let _ ← ask (.remove db key)
      return ()
  | .abort => return ()

/-! ### Write commands -/

/-- The version that goes into the queue: one above the inserted value's. -/
def nextVersion : MochaOperation MyValue → Nat
  | .insert value _ => value.version + 1
  | .remove => 1
  | .abort => 1

/-- A replayed insert counts its version up. -/
def bumpVersion : MochaOperation MyValue → MochaOperation MyValue
  | .insert value expire => .insert { value with version := value.version + 1 } expire
  | .remove => .remove
  | .abort => .abort

/-- In snapshot mode the request also goes to the queue. -/
def pushRequest (update : Update) (request : BaseOperation) (version : Nat) : Action Unit :=
  match update.updateType with
  | .snapshot => ask (.push ⟨request, version, update.writeClock⟩)
  | _ => return ()

/-- Carry out the result of `mutate` in the mode of the update. -/
def finishCompute (update : Update) (request : BaseOperation) (key : Bytes) (current : Option Nat)
    (result : MochaOperation MyValue × Value) : Action Value :=
  match update.updateType with
  | .cas version =>
    -- the file may already hold the result of this request
    if current.map (· + 1) = some version then do
      store update.dbNumber key (bumpVersion result.1)
      return result.2
    else return .null
  | _ => do
      store update.dbNumber key result.1
      pushRequest update request (nextVersion result.1)
      return result.2

/-- A missing key: the value made by `init` is inserted, in every mode and without
a request in the queue. -/
def initCompute (db : Nat) (command : ComputeCommand) : Action Value :=
  match command.init.1 with
  | .abort => return keyNotFound
  | operation => do
      store db command.key operation
      return command.init.2

def executeCompute (update : Update) (request : BaseOperation) (command : ComputeCommand) :
    Action Value :=
  withDatabase update.dbNumber keyNotFound do
    match ← ask (.getEntry update.dbNumber command.key) with
    | none => initCompute update.dbNumber command
    | some entry =>
      finishCompute update request command.key (some entry.value.version)
        (command.mutate entry update.writeClock)

/-- Read the entries of several keys, one after the other. -/
def getEntries (db : Nat) (keys : List Bytes) : Action (List (Option Entry)) :=
  keys.mapM fun key => ask (.getEntry db key)

def executeMultiReadCompute (update : Update) (request : BaseOperation)
    (command : MultiReadComputeCommand) : Action Value :=
  withDatabase update.dbNumber keyNotFound do
    let entries ← getEntries update.dbNumber command.readKeys
    match update.updateType with
    | .cas _ =>
      let current ← ask (.getEntry update.dbNumber command.writeKey)
      finishCompute update request command.writeKey (current.map (·.value.version))
        (command.mutate entries update.writeClock)
    | _ =>
      finishCompute update request command.writeKey none
        (command.mutate entries update.writeClock)

/-! ### Removal -/

def existed (found : Bool) : Value := .integer (if found then 1 else 0)

/-- In snapshot mode a removal is queued before it is made. -/
def pushRemoval (update : Update) (request : BaseOperation) (key : Bytes) : Action Unit :=
  match update.updateType with
  | .snapshot => do
      let entry ← ask (.getEntry update.dbNumber key)
      ask (.push ⟨request, entry.elim 1 (·.value.version + 1), update.writeClock⟩)
  | _ => return ()

/-- The common part of `del` and `unlink`; only the plain removal differs. -/
def removeKey (update : Update) (request : BaseOperation) (key : Bytes) (remove : Action Bool) :
    Action Value :=
  withDatabase update.dbNumber dbNotExist do
    match update.updateType with
    | .cas version =>
      let entry ← ask (.getEntry update.dbNumber key)
      if entry.map (·.value.version + 1) = some version then do
        let _ ← ask (.remove update.dbNumber key)
        return existed true
      else return existed false
    | _ => do
        pushRemoval update request key
        return existed (← remove)

def del (update : Update) (req : DelReq) : Action Value :=
  removeKey update (.del req) req.key do
    return (← ask (.remove update.dbNumber req.key)).isSome

def unlink (update : Update) (req : UnlinkReq) : Action Value :=
  removeKey update (.unlink req) req.key (ask (.unlink update.dbNumber req.key))

/-- Hold the lock of the readers during the body. -/
def withReadersLocked (body : Action Value) : Action Value := do
  ask .lockReaders
  let reply ← body
  ask .unlockReaders
  return reply

def flushDb (update : Update) (req : FlushDBReq) : Action Value :=
  withReadersLocked do
    withDatabase update.dbNumber dbNotExist do
      pushRequest update (.flushDB req) 1
      ask (.clear update.dbNumber)
      return .ok

def forEachDatabase (action : Nat → Action Unit) : Action Unit := do
  let count ← ask .databaseCount
  (List.range count).forM action

def flushAll (update : Update) (req : FlushAllReq) : Action Value :=
  withReadersLocked do
    pushRequest update (.flushAll req) 1
    forEachDatabase fun db => ask (.clear db)
    return .ok

/-! ### Reads -/

/-- A read of one key. What the reply takes from the surroundings of the node is
its second argument. -/
structure ReadCommand where
  key : Bytes
  execute : Option Entry → Env → Value

structure MultiReadCommand where
  keys : List Bytes
  execute : List (Option Entry) → Env → Value

/-- The lookup tests the write clock, and then the read clock if there is one. -/
def getWithReadClock (db : Nat) (key : Bytes) (readClock : Option Nat) : Action (Option Entry) := do
  let entry ← ask (.getEntry db key)
  return entry.filter fun entry => !readClock.any entry.expired

/-- The handler that `read_request` calls for an operation. -/
inductive ReadHandler where
  | one (command : ReadCommand)
  | many (command : MultiReadCommand)
  | keys (params : KeysParams)
  | dbSize

def readHandler : ReadOperation → ReadHandler
  | .exists params => .many ⟨params.keys, fun e _ => ExistsParams.execute e⟩
  | .get params => .one ⟨params.key, fun e _ => getReply e⟩
  | .mGet params => .many ⟨params.keys, fun e _ => MgetParams.execute e⟩
  | .lRange params => .one ⟨params.key, fun e _ => params.execute e⟩
  | .zRange params => .one ⟨params.key, fun e _ => params.execute e⟩
  | .hGet params => .one ⟨params.key, fun e _ => params.execute e⟩
  | .sMembers params => .one ⟨params.key, fun e env => SMembersParams.execute env.order e⟩
  | .hMGet params => .one ⟨params.key, fun e _ => params.execute e⟩
  | .getBit params => .one ⟨params.key, fun e _ => params.execute e⟩
  | .zRangeByScore params => .one ⟨params.key, fun e _ => params.execute e⟩
  | .strLen params => .one ⟨params.key, fun e _ => StrLenParams.execute e⟩
  | .hGetAll params => .one ⟨params.key, fun e env => HGetAllParams.execute env.order e⟩
  | .hKeys params => .one ⟨params.key, fun e env => HKeysParams.execute env.order e⟩
  | .hVals params => .one ⟨params.key, fun e env => HValsParams.execute env.order e⟩
  | .lLen params => .one ⟨params.key, fun e _ => LLenParams.execute e⟩
  | .type params => .one ⟨params.key, fun e _ => TypeParams.execute e⟩
  | .lIndex params => .one ⟨params.key, fun e _ => params.execute e⟩
  | .sIsMember params => .one ⟨params.key, fun e _ => params.execute e⟩
  | .hExists params => .one ⟨params.key, fun e _ => params.execute e⟩
  | .pTtl params => .one ⟨params.key, fun e env => PTtlParams.execute env.nowMs e⟩
  | .ttl params => .one ⟨params.key, fun e env => TtlParams.execute env.nowMs e⟩
  | .hLen params => .one ⟨params.key, fun e _ => HLenParams.execute e⟩
  | .bitCount params => .one ⟨params.key, fun e _ => params.execute e⟩
  | .bitPos params => .one ⟨params.key, fun e _ => params.execute e⟩
  | .sCard params => .one ⟨params.key, fun e _ => SCardParams.execute e⟩
  | .sRandMember params => .one ⟨params.key, fun e env => params.execute env e⟩
  | .sInter params => .many ⟨params.keys, fun e env => SInterParams.execute env.order e⟩
  | .sUnion params => .many ⟨params.keys, fun e env => SUnionParams.execute env.order e⟩
  | .sDiff params => .many ⟨params.keys, fun e env => SDiffParams.execute env.order e⟩
  | .keys params => .keys params
  | .zScore params => .one ⟨params.key, fun e _ => params.execute e⟩
  | .zCard params => .one ⟨params.key, fun e _ => ZCardParams.execute e⟩
  | .zCount params => .one ⟨params.key, fun e _ => params.execute e⟩
  | .zRank params => .one ⟨params.key, fun e _ => params.execute e⟩
  | .zRevRank params => .one ⟨params.key, fun e _ => params.execute e⟩
  | .dbSize _ => .dbSize
  | .memoryUsage params => .one ⟨params.key, fun e env => params.execute env e⟩
  | .pfCount params => .many ⟨params.keys, fun e _ => params.execute e⟩

section

variable (forScript : Bool) (db : Nat) (readClock : Option Nat)

def executeRead (command : ReadCommand) : Action Value :=
  withDatabase db keyNotFound do
    let entry ← getWithReadClock db command.key readClock
    ask (.reply forScript (command.execute entry))

def executeMultiRead (command : MultiReadCommand) : Action Value :=
  withDatabase db keyNotFound do
    let entries ← command.keys.mapM fun key => getWithReadClock db key readClock
    ask (.reply forScript (command.execute entries))

def dbsize : Action Value :=
  withDatabase db dbNotExist do
    return .integer (← ask (.len forScript db))

/-- The keys are listed in the order of iteration; the matcher may panic on one of
them. -/
def keys (params : KeysParams) : Action Value :=
  withDatabase db dbNotExist do
    let live ← ask (.liveKeys db readClock)
    if ∃ key ∈ live, Glob.isMatch params.pattern key = none then
      nomatch ← ask .panic
    else
      ask (.reply forScript fun env =>
        .ofBytesList ((env.order.list live).filter (Glob.isMatch params.pattern · = some true)))

def readRequest (operation : ReadOperation) : Action Value :=
  match readHandler operation with
  | .one command => executeRead forScript db readClock command
  | .many command => executeMultiRead forScript db readClock command
  | .keys params => keys forScript db readClock params
  | .dbSize => dbsize forScript db

end
end CacheCat.Cache
