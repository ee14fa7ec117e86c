import CacheCat.Cache.Operation

/-! The commands that can be put into the log, with the operation each of them
stands for, and the table of the commands that a script may call. -/
namespace CacheCat

open Parsed

/-- An argument of a script may also be an integer. -/
def scriptArg : Value → Option Bytes
  | .bulkString (some data) => some data
  | .simpleString text => some (bytes text)
  | .integer i => some (Text.intBytes i)
  | _ => none

/-- The common form of EVAL and EVALSHA: what names the script, the number of the
keys, the keys and the arguments. -/
def parseScriptCall (command what : String) (items : List Value) :
    Parsed (List Char × Nat × List Bytes × List Bytes) := do
  if items.length < 3 then .error (.wrongArgCount command)
  let script ← okOr (item items 1).asStrLossy (.invalidArgument what)
  let numkeys ← tryParseUsize (item items 2)
  if items.length - 3 < numkeys then .error (.invalidArgument "not enough keys specified")
  let keys ← okOr (((items.drop 3).take numkeys).mapM Value.stringBytesClone)
    (.invalidArgument "key")
  let args ← okOr ((items.drop (3 + numkeys)).mapM scriptArg) (.invalidArgument "argument")
  pure (script, numkeys, keys, args)

def EvalParams.parse (items : List Value) : Parsed EvalParams := do
  let (script, numkeys, keys, args) ← parseScriptCall "eval" "script" items
  pure ⟨script, numkeys, keys, args, 2⟩

/-- The implementations of `RaftCommand`. -/
inductive RaftCommand where
  | append | bitCount | bitField | bitPos | dbSize | decr | decrBy | del | eval | exists | expire
  | flushAll | flushDB | get | getBit | getSet | hDel | hExists | hGet | hGetAll | hIncrBy | hKeys
  | hLen | hMGet | hMSet | hSet | hSetNx | hVals | incr | incrBy | keys | lIndex | lLen | lPop
  | lPush | lRange | lRem | lSet | lTrim | memoryUsage | mGet | mSet | persist | pExpire | pfAdd
  | pfCount | pSetEx | pTtl | rename | renameNx | rPop | rPush | sAdd | sCard | sDiff | sDiffStore
  | set | setBit | setEx | setNx | sInter | sInterStore | sIsMember | sMembers | sPop | sRandMember
  | sRem | strLen | sUnion | sUnionStore | ttl | type | unlink | zAdd | zCard | zCount | zIncrBy
  | zPopMin | zRange | zRangeByScore | zRank | zRem | zRevRank | zScore
deriving DecidableEq

namespace RaftCommand

def base {Req : Type} (make : Req → BaseOperation) (parsed : Parsed Req) : Parsed Operation :=
  parsed.map fun req => .base (make req)

def read {Params : Type} (make : Params → ReadOperation) (parsed : Parsed Params) :
    Parsed Operation :=
  parsed.map fun params => .read (make params)

def redis {Params : Type} (make : Params → RedisOperation) (parsed : Parsed Params) :
    Parsed Operation :=
  parsed.map fun params => .redis (make params)

/-- One key is a single handler, several keys are a sequence of them. -/
def oneOrMany (keys : List Bytes) (one : Bytes → BaseOperation) (many : RedisOperation) :
    Operation :=
  match keys with
  | [key] => .base (one key)
  | _ => .redis many

/-- `raft_request`: the operation that the items of a request stand for. -/
def raftRequest (items : List Value) : RaftCommand → Parsed Operation
  | append => base .append (AppendReq.parse items)
  | bitCount => read .bitCount (BitCountParams.parse items)
  | bitField => base .bitField (BitFieldReq.parse items)
  | bitPos => read .bitPos (BitPosParams.parse items)
  | dbSize => read .dbSize (DbsizeParams.parse items)
  | decr => base .decr (DecrReq.parse items)
  | decrBy => base .decrBy (DecrByReq.parse items)
  | del => (DelParams.parse items).map fun params =>
    oneOrMany params.keys (fun key => .del ⟨key⟩) (.redisDel params)
  | eval => redis .redisEval (EvalParams.parse items)
  | «exists» => read .exists (ExistsParams.parse items)
  | expire => base .expire (ExpireReq.parse items)
  | flushAll => base .flushAll (FlushAllReq.parse items)
  | flushDB => base .flushDB (FlushDBReq.parse items)
  | get => read .get (GetParams.parse items)
  | getBit => read .getBit (GetBitParams.parse items)
  | getSet => redis .redisGetSet (GetSetParams.parse items)
  | hDel => base .hDel (HDelReq.parse items)
  | hExists => read .hExists (HExistsParams.parse items)
  | hGet => read .hGet (HGetParams.parse items)
  | hGetAll => read .hGetAll (HGetAllParams.parse items)
  | hIncrBy => base .hIncr (HIncrReq.parse items)
  | hKeys => read .hKeys (HKeysParams.parse items)
  | hLen => read .hLen (HLenParams.parse items)
  | hMGet => read .hMGet (HMGetParams.parse items)
  | hMSet => base .hMSet (HMSetReq.parse items)
  | hSet => base .hSet (HSetReq.parse items)
  | hSetNx => base .hSetNx (HSetNxReq.parse items)
  | hVals => read .hVals (HValsParams.parse items)
  | incr => base .incr (IncrReq.parse items)
  | incrBy => base .incrBy (IncrByReq.parse items)
  | keys => read .keys (KeysParams.parse items)
  | lIndex => read .lIndex (LIndexParams.parse items)
  | lLen => read .lLen (LLenParams.parse items)
  | lPop => base .lPop (LPopReq.parse items)
  | lPush => base .lPush (LPushReq.parse items)
  | lRange => read .lRange (LRangeParams.parse items)
  | lRem => base .lRem (LRemReq.parse items)
  | lSet => base .lSet (LSetReq.parse items)
  | lTrim => base .lTrim (LTrimReq.parse items)
  | memoryUsage => read .memoryUsage (MemoryUsageParams.parse items)
  | mGet => read .mGet (MgetParams.parse items)
  | mSet => redis .redisMset (MsetParams.parse items)
  | persist => base .persist (PersistReq.parse items)
  | pExpire => base .pExpire (PExpireReq.parse items)
  | pfAdd => base .pfAdd (PfAddReq.parse items)
  | pfCount => read .pfCount (PfcountParams.parse items)
  | pSetEx => redis .redisPSetEx (PSetExParams.parse items)
  | pTtl => read .pTtl (PTtlParams.parse items)
  | rename => redis .redisRename (RenameParams.parse items)
  | renameNx => redis .redisRenameNx (RenameNxParams.parse items)
  | rPop => base .rPop (RPopReq.parse items)
  | rPush => base .rPush (RPushReq.parse items)
  | sAdd => base .sAdd (SAddReq.parse items)
  | sCard => read .sCard (SCardParams.parse items)
  | sDiff => read .sDiff (SDiffParams.parse items)
  | sDiffStore => redis .redisSDiffStore (SDiffStoreParams.parse items)
  | set => redis .redisSet (SetParams.parse items)
  | setBit => base .setBit (SetBitReq.parse items)
  | setEx => redis .redisSetEx (SetExParams.parse items)
  | setNx => redis .redisSetNx (SetNxParams.parse items)
  | sInter => read .sInter (SInterParams.parse items)
  | sInterStore => base .sInterStore (SInterStoreReq.parse items)
  | sIsMember => read .sIsMember (SIsMemberParams.parse items)
  | sMembers => read .sMembers (SMembersParams.parse items)
  | sPop => base .sPop (SPopReq.parse items)
  | sRandMember => read .sRandMember (SRandMemberParams.parse items)
  | sRem => base .sRem (SRemReq.parse items)
  | strLen => read .strLen (StrLenParams.parse items)
  | sUnion => read .sUnion (SUnionParams.parse items)
  | sUnionStore => redis .redisSUnionStore (SUnionStoreParams.parse items)
  | ttl => read .ttl (TtlParams.parse items)
  | type => read .type (TypeParams.parse items)
  | unlink => (UnlinkParams.parse items).map fun params =>
    oneOrMany params.keys (fun key => .unlink ⟨key⟩) (.redisUnlink params)
  | zAdd => base .zAdd (ZAddReq.parse items)
  | zCard => read .zCard (ZCardParams.parse items)
  | zCount => read .zCount (ZCountParams.parse items)
  | zIncrBy => base .zIncrBy (ZIncrByReq.parse items)
  | zPopMin => base .zPopMin (ZPopMinReq.parse items)
  | zRange => read .zRange (ZRangeParams.parse items)
  | zRangeByScore => read .zRangeByScore (ZRangeByScoreParams.parse items)
  | zRank => read .zRank (ZRankParams.parse items)
  | zRem => base .zRem (ZRemReq.parse items)
  | zRevRank => read .zRevRank (ZRevRankParams.parse items)
  | zScore => read .zScore (ZScoreParams.parse items)

/-- `init_lua`: the commands registered for scripts. -/
def initLua : String → Option RaftCommand
  | "GET" => some get
  | "SET" => some set
  | "DEL" => some del
  | "INCR" => some incr
  | "INCRBY" => some incrBy
  | "MSET" => some mSet
  | "MGET" => some mGet
  | "LPUSH" => some lPush
  | "LRANGE" => some lRange
  | "EXPIRE" => some expire
  | "PEXPIRE" => some pExpire
  | "APPEND" => some append
  | "HSET" => some hSet
  | "HGET" => some hGet
  | "HGETALL" => some hGetAll
  | "HKEYS" => some hKeys
  | "ZADD" => some zAdd
  | "ZRANGE" => some zRange
  | "ZRANGEBYSCORE" => some zRangeByScore
  | "SADD" => some sAdd
  | "HINCRBY" => some hIncrBy
  | "EXISTS" => some «exists»
  | "PERSIST" => some persist
  | "RENAME" => some rename
  | "RENAMENX" => some renameNx
  | "SMEMBERS" => some sMembers
  | "HMGET" => some hMGet
  | "EVAL" => some eval
  | "SREM" => some sRem
  | "SETBIT" => some setBit
  | "GETBIT" => some getBit
  | "LPOP" => some lPop
  | "RPOP" => some rPop
  | "PSETEX" => some pSetEx
  | "SETEX" => some setEx
  | "SETNX" => some setNx
  | "STRLEN" => some strLen
  | "HVALS" => some hVals
  | "LLEN" => some lLen
  | "RPUSH" => some rPush
  | "TYPE" => some type
  | "LINDEX" => some lIndex
  | "LREM" => some lRem
  | "LSET" => some lSet
  | "SISMEMBER" => some sIsMember
  | "HEXISTS" => some hExists
  | "DECRBY" => some decrBy
  | "PTTL" => some pTtl
  | "TTL" => some ttl
  | "HLEN" => some hLen
  | "HSETNX" => some hSetNx
  | "DECR" => some decr
  | "GETSET" => some getSet
  | "ZREM" => some zRem
  | "LTRIM" => some lTrim
  | "FLUSHDB" => some flushDB
  | "BITCOUNT" => some bitCount
  | "BITPOS" => some bitPos
  | "SCARD" => some sCard
  | "BITFIELD" => some bitField
  | "SPOP" => some sPop
  | "SRANDMEMBER" => some sRandMember
  | "SINTER" => some sInter
  | "SUNION" => some sUnion
  | "SDIFF" => some sDiff
  | "SINTERSTORE" => some sInterStore
  | "SUNIONSTORE" => some sUnionStore
  | "SDIFFSTORE" => some sDiffStore
  | "KEYS" => some keys
  | "ZSCORE" => some zScore
  | "ZCARD" => some zCard
  | "ZRANK" => some zRank
  | "ZPOPMIN" => some zPopMin
  | "UNLINK" => some unlink
  | "ZREVRANK" => some zRevRank
  | "ZINCRBY" => some zIncrBy
  | "DBSIZE" => some dbSize
  | "PFCOUNT" => some pfCount
  | "PFADD" => some pfAdd
  | _ => none

/-- `parse_request` of the script's factory; the items are not empty. -/
def parseRequest (items : List Value) : Parsed Operation :=
  let name := match item items 0 with
    | .bulkString (some data) => some (Text.toUppercase (Text.fromUtf8Lossy data))
    | .simpleString text => some (Text.toUppercase text.toList)
    | _ => none
  match name with
  | none => .error (.invalidArgument "command")
  | some name =>
    match initLua name with
    | some command => command.raftRequest items
    | none => .error (.unknownCommand name)

theorem isEmpty_of_parseRequest {args : List String} {operation : Operation}
    (hArgs : parseRequest (args.map .simpleString) = .ok operation) : args.isEmpty = false := by
  cases args with
  | nil => cases hArgs
  | cons arg args => rfl

end RaftCommand
end CacheCat
