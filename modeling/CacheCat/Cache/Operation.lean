import CacheCat.Command.Bitmaps
import CacheCat.Command.Hashes
import CacheCat.Command.HyperLogLogs
import CacheCat.Command.Sets
import CacheCat.Command.SortedSets

/-! The operations that a log entry may carry. -/
namespace CacheCat

/-- A write that touches the store through one handler. -/
inductive BaseOperation where
  | empty
  | del (req : DelReq)
  | expire (req : ExpireReq)
  | pExpire (req : PExpireReq)
  | persist (req : PersistReq)
  | insert (req : InsertReq)
  | flushDB (req : FlushDBReq)
  | flushAll (req : FlushAllReq)
  | set (req : SetReq)
  | incr (req : IncrReq)
  | incrBy (req : IncrByReq)
  | append (req : AppendReq)
  | setBit (req : SetBitReq)
  | bitField (req : BitFieldReq)
  | decrBy (req : DecrByReq)
  | decr (req : DecrReq)
  | lPush (req : LPushReq)
  | rPush (req : RPushReq)
  | lPop (req : LPopReq)
  | rPop (req : RPopReq)
  | lRem (req : LRemReq)
  | lSet (req : LSetReq)
  | lTrim (req : LTrimReq)
  | hSet (req : HSetReq)
  | hIncr (req : HIncrReq)
  | hDel (req : HDelReq)
  | hSetNx (req : HSetNxReq)
  | hMSet (req : HMSetReq)
  | zAdd (req : ZAddReq)
  | zRem (req : ZRemReq)
  | zPopMin (req : ZPopMinReq)
  | sAdd (req : SAddReq)
  | sRem (req : SRemReq)
  | sPop (req : SPopReq)
  | unlink (req : UnlinkReq)
  | zIncrBy (req : ZIncrByReq)
  | pfAdd (req : PfAddReq)
  | sInterStore (req : SInterStoreReq)
deriving DecidableEq

inductive ReadOperation where
  | exists (params : ExistsParams)
  | get (params : GetParams)
  | mGet (params : MgetParams)
  | lRange (params : LRangeParams)
  | zRange (params : ZRangeParams)
  | hGet (params : HGetParams)
  | sMembers (params : SMembersParams)
  | hMGet (params : HMGetParams)
  | getBit (params : GetBitParams)
  | zRangeByScore (params : ZRangeByScoreParams)
  | strLen (params : StrLenParams)
  | hGetAll (params : HGetAllParams)
  | hKeys (params : HKeysParams)
  | hVals (params : HValsParams)
  | lLen (params : LLenParams)
  | type (params : TypeParams)
  | lIndex (params : LIndexParams)
  | sIsMember (params : SIsMemberParams)
  | hExists (params : HExistsParams)
  | pTtl (params : PTtlParams)
  | ttl (params : TtlParams)
  | hLen (params : HLenParams)
  | bitCount (params : BitCountParams)
  | bitPos (params : BitPosParams)
  | sCard (params : SCardParams)
  | sRandMember (params : SRandMemberParams)
  | sInter (params : SInterParams)
  | sUnion (params : SUnionParams)
  | sDiff (params : SDiffParams)
  | keys (params : KeysParams)
  | zScore (params : ZScoreParams)
  | zCard (params : ZCardParams)
  | zCount (params : ZCountParams)
  | zRank (params : ZRankParams)
  | zRevRank (params : ZRevRankParams)
  | dbSize (params : DbsizeParams)
  | memoryUsage (params : MemoryUsageParams)
  | pfCount (params : PfcountParams)

/-- A script with its arguments; `proto` is the protocol of the calling client. -/
structure EvalParams where
  script : List Char
  numkeys : Nat
  keys : List Bytes
  args : List Bytes
  proto : Nat

mutual

inductive Operation where
  | base (operation : BaseOperation)
  | read (operation : ReadOperation)
  | redis (operation : RedisOperation)

/-- A command that is made of several handlers, among them the transaction and
the script, which contain operations themselves. -/
inductive RedisOperation where
  | redisSet (params : SetParams)
  | redisSetNx (params : SetNxParams)
  | redisSetEx (params : SetExParams)
  | redisPSetEx (params : PSetExParams)
  | redisGetSet (params : GetSetParams)
  | redisMset (params : MsetParams)
  | redisDel (params : DelParams)
  | redisRename (params : RenameParams)
  | redisRenameNx (params : RenameNxParams)
  | redisEval (params : EvalParams)
  | redisExec (operations : List Operation)
  | redisSUnionStore (params : SUnionStoreParams)
  | redisSDiffStore (params : SDiffStoreParams)
  | redisUnlink (params : UnlinkParams)

end

/-- An operation applied while a snapshot is being built, with the version it
leaves the key at. -/
structure AtomicRequest where
  request : BaseOperation
  version : Nat
  writeClock : Nat
deriving DecidableEq

end CacheCat
