import CacheCat.Command.Lists

/-! Sorted set commands. -/
namespace CacheCat

open Parsed

/-! ### Writes -/

structure ZAddReq where
  key : Bytes
  args : ZAddArgs
deriving DecidableEq

namespace ZAddReq

/-- The leading flags, and the items after them. -/
def parseFlags (args : ZAddArgs) : List Value → ZAddArgs × List Value
  | [] => (args, [])
  | item :: rest =>
    match item.asStrLossy.map Text.toUppercase with
    | some "NX" => parseFlags { args with nx := true } rest
    | some "XX" => parseFlags { args with xx := true } rest
    | some "GT" => parseFlags { args with gt := true } rest
    | some "LT" => parseFlags { args with lt := true } rest
    | some "CH" => parseFlags { args with ch := true } rest
    | _ => (args, item :: rest)

/-- Score and member pairs; their number has been checked before. -/
def parseMembers : List Value → Parsed (List (Bytes × Float))
  | score :: member :: rest => do
      let score ← okOr (score.asStrLossy.bind Text.parseF64)
          (.custom "ERR value is not a valid float")
      let member ← okOr member.stringBytesClone (.invalidArgument "member")
      pure ((member, score) :: (← parseMembers rest))
  | _ => pure []

def parse (items : List Value) : Parsed ZAddReq := do
  if items.length < 4 then .error (.wrongArgCount "zadd")
  let key ← argument items 1 "key"
  let (args, remaining) := parseFlags ⟨[], false, false, false, false, false⟩ (items.drop 2)
  if args.nx && args.xx then
    .error (.custom "ERR XX and NX options at the same time are not compatible")
  if args.gt && args.lt then
    .error (.custom "ERR GT and LT options at the same time are not compatible")
  if remaining.isEmpty || remaining.length % 2 ≠ 0 then .error (.wrongArgCount "zadd")
  let members ← parseMembers remaining
  pure ⟨key, { args with members := members }⟩

def computeCommand (req : ZAddReq) : ComputeCommand :=
  collectionCommand req.key ValueObject.asZSet .zset (.error "zadd: key is not a zset")
    (fun _ zset =>
      let added := zset.zadd req.args
      (.keep added.1, .integer added.2))
    (.insert (.new (.zset (SortedSet.new.zadd req.args).1)) .persistent,
      .integer (SortedSet.new.zadd req.args).2)

end ZAddReq

structure ZIncrByReq where
  key : Bytes
  increment : Float
  member : Bytes
deriving DecidableEq

namespace ZIncrByReq

def parse (items : List Value) : Parsed ZIncrByReq := do
  if items.length ≠ 4 then .error (.wrongArgCount "zincrby")
  let key ← argument items 1 "key"
  let data ← argument items 2 "increment"
  let text ← okOr (Text.fromUtf8 data) (.invalidArgument "increment")
  let increment ← okOr (Text.parseF64 text) (.invalidArgument "increment")
  if increment.isNaN then .error (.invalidArgument "increment")
  let member ← argument items 3 "member"
  pure ⟨key, increment, member⟩

def notANumber : Value := .error "ERR resulting score is not a number (NaN)"

def computeCommand (req : ZIncrByReq) : ComputeCommand :=
  collectionCommand req.key ValueObject.asZSet .zset ProtocolError.wrongType.toValue
    (fun _ zset =>
      match zset.zincrby req.member req.increment with
      | some (zset, score) => (.keep zset, .double score)
      | none => (.refuse, notANumber))
    (match SortedSet.new.zincrby req.member req.increment with
      | some (zset, score) => (.insert (.new (.zset zset)) .persistent, .double score)
      | none => (.abort, notANumber))

end ZIncrByReq

structure ZPopMinReq where
  key : Bytes
  count : Option Nat
deriving DecidableEq

namespace ZPopMinReq

def parse (items : List Value) : Parsed ZPopMinReq := do
  if items.length ≠ 2 ∧ items.length ≠ 3 then .error (.wrongArgCount "zpopmin")
  let count ← if items.length = 3 then (tryParseUsize (item items 2)).map some else pure none
  let key ← argument items 1 "key"
  pure ⟨key, count⟩

def response (req : ZPopMinReq) (popped : List (Bytes × Float)) : Value :=
  match req.count, popped with
  | none, [] => .array (some [])
  | none, (member, score) :: _ => .array (some [.bulkString (some member), .double score])
  | some _, _ => .memberScores popped

/-- A set that becomes empty stays. -/
def computeCommand (req : ZPopMinReq) : ComputeCommand :=
  collectionCommand req.key ValueObject.asZSet .zset (.error "zadd: key is not a zset")
    (fun _ zset =>
      let popped := zset.zpopMin req.count
      (.keep popped.1, req.response popped.2))
    (.abort, .array (some []))

end ZPopMinReq

structure ZRemReq where
  key : Bytes
  members : List Bytes
deriving DecidableEq

namespace ZRemReq

def parse (items : List Value) : Parsed ZRemReq := do
  if items.length < 3 then .error (.wrongArgCount "zrem")
  let key ← argument items 1 "key"
  pure ⟨key, ← restArguments items 2 "member"⟩

def computeCommand (req : ZRemReq) : ComputeCommand :=
  collectionCommand req.key ValueObject.asZSet .zset (.error "zrem: key is not a zset")
    (fun _ zset =>
      let removed := zset.zrem req.members
      (if removed.1.isEmpty then .drop else .keep removed.1, .integer removed.2))
    (.abort, .integer 0)

end ZRemReq

/-! ### Reads -/

/-- A listing with or without the scores. -/
def listingReply (withScores : Bool) (listing : List (Bytes × Float)) : Value :=
  if withScores then .memberScores listing else .ofBytesList (listing.map Prod.fst)

structure ZRangeParams where
  key : Bytes
  start : Int
  stop : Int
  withScores : Bool

/-- Items after the bounds that are not WITHSCORES are ignored. -/
def ZRangeParams.parse (items : List Value) : Parsed ZRangeParams := do
  if items.length < 4 then .error (.wrongArgCount "zrange")
  let key ← argument items 1 "key"
  let start ← tryParseI64 (item items 2)
  let stop ← tryParseI64 (item items 3)
  let withScores := (items.drop 4).any fun item =>
    item.asStrLossy.map Text.toUppercase = some "WITHSCORES"
  pure ⟨key, start, stop, withScores⟩

def ZRangeParams.execute (params : ZRangeParams) : Option Entry → Value :=
  readCollection ValueObject.asZSet (.array (some [])) fun zset =>
    listingReply params.withScores (zset.zrange params.start params.stop)

structure ZRangeByScoreParams where
  key : Bytes
  min : Float
  max : Float
  withScores : Bool
  limit : Option (Nat × Nat)

namespace ZRangeByScoreParams

def parseScoreString (text : List Char) : Parsed Float :=
  match Text.toUppercase text with
  | "-INF" | "-INFINITY" => pure (-Text.infinity)
  | "+INF" | "+INFINITY" => pure Text.infinity
  | _ => okOr (Text.parseF64 text) (.invalidArgument "score")

def parseScore : Value → Parsed Float
  | .bulkString (some data) => parseScoreString (Text.fromUtf8Lossy data)
  | .simpleString text => parseScoreString text.toList
  | .integer n => pure (Float.ofInt n)
  | _ => .error (.invalidArgument "score")

def parseUsize : Value → Parsed Nat
  | .bulkString (some data) => okOr (Text.parseU64 (Text.fromUtf8Lossy data)) .notAnInteger
  | .simpleString text => okOr (Text.parseU64 text.toList) .notAnInteger
  | .integer n => if n < 0 then .error (.invalidArgument "limit") else pure n.toNat
  | _ => .error .notAnInteger

/-- The loop over the options; `skip` items belong to a LIMIT. -/
def parseOptions (params : ZRangeByScoreParams) :
    (skip : Nat) → List Value → Parsed ZRangeByScoreParams
  | _, [] => pure params
  | skip + 1, _ :: rest => parseOptions params skip rest
  | 0, item :: rest =>
    match item.asStrLossy.map Text.toUppercase with
    | some "WITHSCORES" => parseOptions { params with withScores := true } 0 rest
    | some "LIMIT" => do
        if rest.length < 2 then .error .syntaxError
        let offset ← parseUsize (rest.getD 0 .null)
        let count ← parseUsize (rest.getD 1 .null)
        parseOptions { params with limit := some (offset, count) } 2 rest
    | _ => parseOptions params 0 rest

def parse (items : List Value) : Parsed ZRangeByScoreParams := do
  if items.length < 4 then .error (.wrongArgCount "zrangebyscore")
  let key ← argument items 1 "key"
  let min ← parseScore (item items 2)
  let max ← parseScore (item items 3)
  parseOptions ⟨key, min, max, false, none⟩ 0 (items.drop 4)

def execute (params : ZRangeByScoreParams) : Option Entry → Value :=
  readCollection ValueObject.asZSet (.array (some [])) fun zset =>
    listingReply params.withScores (zset.zrangebyscore params.min params.max params.limit)

end ZRangeByScoreParams

/-- A key and a member, as ZRANK, ZREVRANK and ZSCORE take them. -/
def parseKeyMember (items : List Value) (command : String) : Parsed (Bytes × Bytes) := do
  if items.length ≠ 3 then .error (.wrongArgCount command)
  let key ← argument items 1 "key"
  let member ← argument items 2 "member"
  pure (key, member)

def rankReply : Option Nat → Value
  | some rank => .integer rank
  | none => .bulkString none

structure ZRankParams where
  key : Bytes
  member : Bytes

def ZRankParams.parse (items : List Value) : Parsed ZRankParams := do
  let (key, member) ← parseKeyMember items "zrank"
  pure ⟨key, member⟩

def ZRankParams.execute (params : ZRankParams) : Option Entry → Value :=
  readCollection ValueObject.asZSet (.bulkString none) fun zset => rankReply
    (zset.zrank params.member)

structure ZRevRankParams where
  key : Bytes
  member : Bytes

def ZRevRankParams.parse (items : List Value) : Parsed ZRevRankParams := do
  let (key, member) ← parseKeyMember items "zrevrank"
  pure ⟨key, member⟩

def ZRevRankParams.execute (params : ZRevRankParams) : Option Entry → Value :=
  readCollection ValueObject.asZSet (.bulkString none) fun zset =>
    rankReply (zset.zrevrank params.member)

structure ZScoreParams where
  key : Bytes
  member : Bytes

def ZScoreParams.parse (items : List Value) : Parsed ZScoreParams := do
  let (key, member) ← parseKeyMember items "zscore"
  pure ⟨key, member⟩

def ZScoreParams.execute (params : ZScoreParams) : Option Entry → Value :=
  readCollection ValueObject.asZSet .null fun zset => (zset.zscore params.member).elim .null .double

structure ZCardParams where
  key : Bytes

def ZCardParams.parse (items : List Value) : Parsed ZCardParams := do
  if items.length ≠ 2 then .error (.wrongArgCount "zcard")
  pure ⟨← argument items 1 "key"⟩

def ZCardParams.execute : Option Entry → Value :=
  readCollection ValueObject.asZSet (.integer 0) fun zset => .integer zset.len

structure ScoreRange where
  value : Float
  exclusive : Bool

/-- `-inf`, `+inf` and `inf` are also what the number parser reads. -/
def ScoreRange.parse (data : Bytes) : Parsed ScoreRange :=
  match Text.fromUtf8Lossy data with
  | '(' :: rest => do
      let score ← okOr (Text.parseF64 rest) (.invalidArgument "score")
      pure ⟨score, true⟩
  | text => do
      let score ← okOr (Text.parseF64 text) (.invalidArgument "score")
      pure ⟨score, false⟩

structure ZCountParams where
  key : Bytes
  min : Float
  max : Float
  minExclusive : Bool
  maxExclusive : Bool

def ZCountParams.parse (items : List Value) : Parsed ZCountParams := do
  if items.length ≠ 4 then .error (.wrongArgCount "zcount")
  let key ← argument items 1 "key"
  let minData ← argument items 2 "min"
  let maxData ← argument items 3 "max"
  let min ← ScoreRange.parse minData
  let max ← ScoreRange.parse maxData
  pure ⟨key, min.value, max.value, min.exclusive, max.exclusive⟩

def ZCountParams.execute (params : ZCountParams) : Option Entry → Value :=
  readCollection ValueObject.asZSet (.integer 0) fun zset =>
    .integer (zset.zcount params.min params.max params.minExclusive params.maxExclusive)

end CacheCat
