import CacheCat.Library.Program
import CacheCat.Protocol.RaftCommand
import CacheCat.Raft.Request

/-! One client connection: the registered commands, what each of them does to the
state of the client, and what it asks of the server. -/
namespace CacheCat.Protocol

open Library (Program)
open Parsed

/-- The fields of `Client` that the commands below read or write. -/
structure Client where
  id : Nat
  dbNumber : Fin (2 ^ 16)
  transactionQueue : Option (List Operation)
  closed : Bool
  authenticated : Bool
  /-- The protocol version of the codec. -/
  protoVersion : Nat
  /-- `flag.multi`. -/
  multi : Bool
  /-- `flag.blocking`: a subscription stream is being served. -/
  blocking : Bool

/-- `Client::new`. -/
def Client.new (id : Nat) (auth : Bool) : Client where
  id := id
  dbNumber := 0
  transactionQueue := none
  closed := false
  authenticated := auth
  protoVersion := 2
  multi := false
  blocking := false

/-- An error of a command: of its parser, or of the layers below it. -/
inductive CacheCatError where
  | protocol (error : ProtocolError)
  | other (text : String)

/-- `From<CacheCatError> for Value`. -/
def CacheCatError.toValue : CacheCatError → Value
  | .protocol error => error.toValue
  | .other text => .error ("ERR " ++ text)

/-- What a command returns to the client. -/
def reply : Except CacheCatError Value → Value
  | .ok value => value
  | .error error => error.toValue

/-! ### What is asked of the server -/

/-- Registered commands that have to do with neither a database nor the
transaction of the client. -/
inductive ServiceCommand where
  | time | client | memory | script | bgsave | save | shutdown
  | publish | unsubscribe | punsubscribe | pubsub | sentinel
deriving DecidableEq

inductive Query where
  /-- `app.write`: put the operation into the log and wait for the response. -/
  | write (operation : Operation) (dbNumber : Fin (2 ^ 16))
  | read (operation : ReadOperation) (dbNumber : Fin (2 ^ 16))
  | multiRead (operation : ReadOperation) (dbNumber : Fin (2 ^ 16))
  /-- `databases.len()`. -/
  | databaseCount
  /-- `config.password`. -/
  | password
  /-- The lookup in `script_map`. -/
  | script (sha1 : List Char)
  | service (command : ServiceCommand) (items : List Value)
  /-- SUBSCRIBE or PSUBSCRIBE, answered by the initial response. -/
  | subscribe (name : String) (items : List Value)
  /-- `execute_during_block`, answered by the response and whether the client has
  quit. -/
  | duringBlock (name : String) (items : List Value)

@[reducible] def Query.Answer : Query → Type
  | write .. => Except CacheCatError Value
  | read .. => Except CacheCatError Value
  | multiRead .. => Except CacheCatError Value
  | databaseCount => Nat
  | password => Option (List Char)
  | script _ => Option (List Char)
  | service .. => Except CacheCatError Value
  | subscribe .. => Except CacheCatError Value
  | duringBlock .. => Except CacheCatError (Value × Bool)

/-- The queries that read or change a database. -/
def Query.TouchesData : Query → Prop
  | write .. => True
  | read .. => True
  | multiRead .. => True
  | _ => False

abbrev Execution := Program Query Query.Answer (Client × Except CacheCatError Value)

def ask (query : Query) : Program Query Query.Answer query.Answer := Program.call query

def refuse (client : Client) (error : ProtocolError) : Execution :=
  return (client, .error (.protocol error))

def answer (client : Client) (value : Value) : Execution :=
  return (client, .ok value)

/-! ### Data commands -/

/-- What `execute` replies after it has queued the operation; `none` for the
commands whose `execute` does not look at the transaction. -/
def queueReply : RaftCommand → Option String
  | .bitCount => some "BITCOUNT"
  | .bitField => some "BITFIELD"
  | .bitPos => some "BITPOS"
  | .getBit => some "GETBIT"
  | .setBit => some "SETBIT"
  | .pTtl | .ttl | .type => none
  | .zAdd | .zCard | .zCount | .zPopMin | .zRange | .zRangeByScore | .zRank | .zRem | .zRevRank
  | .zScore => none
  | _ => some "QUEUED"

/-- The reads that go through `app.multi_read`. -/
def readsSeveral : RaftCommand → Bool
  | .dbSize | .exists | .keys | .mGet | .pfCount | .sDiff | .sInter | .sUnion => true
  | _ => false

/-- A script that is not queued converts its result for the protocol of the client. -/
def withProto (protoVersion : Nat) : Operation → Operation
  | .redis (.redisEval params) => .redis (.redisEval { params with proto := protoVersion })
  | operation => operation

/-- SETEX, PSETEX, and SET without GET reply OK to every response. -/
def writeReply (operation : Operation) (response : Value) : Value :=
  match operation with
  | .redis (.redisSet params) => if params.get then response else .ok
  | .redis (.redisSetEx _) => .ok
  | .redis (.redisPSetEx _) => .ok
  | _ => response

/-- A command outside a transaction: reads go to the databases of the node, all
other operations into the log. -/
def submit (several : Bool) (client : Client) : Operation → Execution
  | .read operation =>
    if several then do
      return (client, ← ask (.multiRead operation client.dbNumber))
    else do
      return (client, ← ask (.read operation client.dbNumber))
  | operation => do
      let response ← ask (.write (withProto client.protoVersion operation) client.dbNumber)
      return (client, response.map (writeReply operation))

/-- `vec.push(self.raft_request(items)?)`. -/
def push (client : Client) (operations : List Operation) (queued : String) :
    Parsed Operation → Execution
  | .error error => refuse client error
  | .ok operation =>
    answer { client with transactionQueue := some (operations ++ [operation]) }
      (.simpleString queued)

/-- `execute` of a data command. -/
def executeData (command : RaftCommand) (client : Client) (items : List Value) : Execution :=
  match client.transactionQueue, queueReply command with
  | some operations, some queued => push client operations queued (command.raftRequest items)
  | _, _ =>
    match command.raftRequest items with
    | .error error => refuse client error
    | .ok operation => submit (readsSeveral command) client operation

structure EvalShaParams where
  sha1 : List Char
  numkeys : Nat
  keys : List Bytes
  args : List Bytes

def EvalShaParams.parse (items : List Value) : Parsed EvalShaParams := do
  let (sha1, numkeys, keys, args) ← parseScriptCall "evalsha" "sha1" items
  pure ⟨sha1, numkeys, keys, args⟩

/-- EVALSHA does not look at the transaction. -/
def executeEvalSha (client : Client) (items : List Value) : Execution :=
  match EvalShaParams.parse items with
  | .error error => refuse client error
  | .ok params => do
      match ← ask (.script params.sha1) with
      | none => refuse client (.custom "NOSCRIPT No matching script. Please use EVAL.")
      | some script =>
        let eval : EvalParams :=
          ⟨script, params.numkeys, params.keys, params.args, client.protoVersion⟩
        return (client, ← ask (.write (.redis (.redisEval eval)) client.dbNumber))

/-! ### Transactions -/

def executeMulti (client : Client) (items : List Value) : Execution :=
  if 2 ≤ items.length then refuse client (.wrongArgCount "MULTI")
  else if client.transactionQueue.isSome then
    refuse client (.custom "MULTI calls can not be nested")
  else answer { client with transactionQueue := some [], multi := true } .ok

def executeDiscard (client : Client) (items : List Value) : Execution :=
  if 2 ≤ items.length then refuse client (.wrongArgCount "DISCARD")
  else if client.transactionQueue.isNone then refuse client (.custom "DISCARD without MULTI")
  else answer { client with transactionQueue := none } .ok

/-- The queue is taken before the write, which may fail. -/
def executeExec (client : Client) (items : List Value) : Execution :=
  if 2 ≤ items.length then refuse client (.wrongArgCount "EXEC")
  else
    match client.transactionQueue with
    | none =>
      refuse client (.custom "EXECABORT Transaction discarded because of previous errors.")
    | some operations => do
        let taken := { client with transactionQueue := none }
        match ← ask (.write (.redis (.redisExec operations)) client.dbNumber) with
        | .error error => return (taken, .error error)
        | .ok value => answer { taken with multi := false } value

/-! ### Connection commands -/

def pingMessage (items : List Value) : Parsed (Option Bytes) :=
  match items with
  | [_] => .ok none
  | [_, .bulkString data] => .ok data
  | [_, .simpleString text] => .ok (some (bytes text))
  | [_, .integer i] => .ok (some (Text.intBytes i))
  | [_, _] => .error (.invalidArgument "ping supports only string/integer arguments")
  | _ => .error (.wrongArgCount "ping")

def executePing (client : Client) (items : List Value) : Execution :=
  match pingMessage items with
  | .error error => refuse client error
  | .ok none => answer client (.simpleString "PONG")
  | .ok (some message) => answer client (.bulkString (some message))

def executeEcho (client : Client) (items : List Value) : Execution :=
  match items with
  | [_, .bulkString data] => answer client (.bulkString data)
  | [_, .simpleString text] => answer client (.simpleString text)
  | [_, .integer i] => answer client (.integer i)
  | [_, .error text] => answer client (.error text)
  | [_, _] => refuse client (.invalidArgument "argument type")
  | _ => refuse client (.wrongArgCount "echo")

/-- The number given to SELECT; an integer item is cut to `u16`. -/
def selectNumber (items : List Value) : Parsed Nat :=
  match items with
  | [_, .integer i] => .ok (i % 2 ^ 16).toNat
  | [_, .simpleString text] => okOr (Text.parseUnsigned (2 ^ 16 - 1) text.toList) .syntaxError
  | [_, .bulkString (some data)] =>
    okOr ((Text.fromUtf8 data).bind (Text.parseUnsigned (2 ^ 16 - 1))) (.wrongArgCount "select")
  | [_, _] => .error .syntaxError
  | _ => if 2 < items.length then .error (.wrongArgCount "select") else .ok 0

/-- SELECT takes effect at once, also in a transaction. -/
def executeSelect (client : Client) (items : List Value) : Execution :=
  match selectNumber items with
  | .error error => refuse client error
  | .ok number => do
      let count ← ask .databaseCount
      if count % 2 ^ 16 ≤ number then refuse client .dbNotExist
      else answer { client with dbNumber := Fin.ofNat _ number } .ok

def executeQuit (client : Client) (items : List Value) : Execution :=
  if 2 ≤ items.length then refuse client (.wrongArgCount "QUIT")
  else answer { client with closed := true } .ok

def authPassword (items : List Value) : Parsed (List Char) :=
  if items.length ≠ 2 then .error (.wrongArgCount "AUTH")
  else okOr (item items 1).asStrLossy .syntaxError

def executeAuth (client : Client) (items : List Value) : Execution :=
  match authPassword items with
  | .error error => refuse client error
  | .ok password => do
      match ← ask .password with
      | none => refuse client (.custom "AUTH called without any password configured")
      | some configured =>
        if password = configured then answer { client with authenticated := true } .ok
        else refuse client (.custom "invalid username-password pair")

def noProto : ProtocolError := .custom "NOPROTO unsupported protocol version"

/-- The number given to HELLO. -/
def helloNumber : Value → Parsed Nat
  | .integer i => if i < 0 ∨ 255 < i then .error noProto else .ok i.toNat
  | .bulkString (some data) =>
    okOr (Text.parseUnsigned 255 (Text.fromUtf8Lossy data))
      (.custom "ERR Protocol version is not an integer or out of range")
  | .bulkString none => .error (.invalidArgument "protocol version cannot be null")
  | _ => .error (.invalidArgument "protocol version must be integer or string")

def helloVersion (value : Value) : Parsed Nat := do
  let requested ← helloNumber value
  if requested ≠ 2 ∧ requested ≠ 3 then .error noProto
  pure requested

/-- The options of HELLO, of which only the last password is kept: nothing reads
the user name, and the name of the client is not modelled. -/
def helloOptions (password : Option (List Char)) : List Value → Parsed (Option (List Char))
  | [] => .ok password
  | option :: rest =>
    match option with
    | .bulkString (some _) | .simpleString _ =>
      match Text.toUppercase (option.asStrLossy.getD []), rest with
      | "AUTH", [] => .error (.wrongArgCount "HELLO AUTH")
      | "AUTH", .bulkString _ :: rest | "AUTH", .simpleString _ :: rest =>
        match rest with
        | [] => .error (.wrongArgCount "HELLO AUTH missing password")
        | .bulkString (some data) :: rest => helloOptions (some (Text.fromUtf8Lossy data)) rest
        | .bulkString none :: _ => .error (.invalidArgument "AUTH password cannot be null")
        | .simpleString text :: rest => helloOptions (some text.toList) rest
        | _ => .error (.invalidArgument "AUTH password must be string")
      | "AUTH", _ => .error (.invalidArgument "AUTH username must be string")
      | "SETNAME", [] => .error (.wrongArgCount "HELLO SETNAME")
      | "SETNAME", .bulkString _ :: rest | "SETNAME", .simpleString _ :: rest =>
        helloOptions password rest
      | "SETNAME", _ => .error (.invalidArgument "client name must be string")
      | _, _ => .error (.unknownCommand "HELLO")
    | _ => .error (.invalidArgument "HELLO option must be AUTH or SETNAME")

structure HelloParam where
  protoVersion : Option Nat
  password : Option (List Char)

def HelloParam.parse (items : List Value) : Parsed HelloParam :=
  match items with
  | [] => .error (.wrongArgCount "HELLO")
  | [_] => .ok ⟨none, none⟩
  | _ :: version :: options => do
      let requested ← helloVersion version
      let password ← helloOptions none options
      pure ⟨some requested, password⟩

def helloReply (client : Client) : Value :=
  let bulk (text : String) := Value.bulkString (some (bytes text))
  .map [(bulk "server", bulk "redis"), (bulk "version", bulk "0.1.0"),
    (bulk "proto", .integer client.protoVersion), (bulk "id", .integer client.id),
    (bulk "mode", bulk "standalone"), (bulk "role", bulk "master"),
    (bulk "modules", .array (some []))]

/-- The end of HELLO, once the password is accepted. -/
def finishHello (params : HelloParam) (client : Client) : Execution :=
  let switched := { client with protoVersion := params.protoVersion.getD client.protoVersion }
  answer switched (helloReply switched)

def executeHello (client : Client) (items : List Value) : Execution :=
  match HelloParam.parse items with
  | .error error => refuse client error
  | .ok params =>
    match params.password with
    | none => finishHello params client
    | some password => do
        let configured ← ask .password
        if configured.any (· ≠ password) then
          refuse client (.custom "WRONGPASS invalid username-password pair")
        else finishHello params { client with authenticated := true }

/-- The subcommand of MEMORY. -/
def memorySubcommand (items : List Value) : Parsed String :=
  match items with
  | _ :: .bulkString (some data) :: _ => .ok (Text.toUppercase (Text.fromUtf8Lossy data))
  | _ :: .simpleString text :: _ => .ok (Text.toUppercase text.toList)
  | _ :: _ :: _ => .error (.invalidArgument "subcommand")
  | _ => .error (.wrongArgCount "MEMORY")

/-- Of the subcommands of MEMORY only USAGE looks at a database. -/
def executeMemory (client : Client) (items : List Value) : Execution :=
  match memorySubcommand items with
  | .error error => refuse client error
  | .ok subcommand =>
    if subcommand = "USAGE" then executeData .memoryUsage client items
    else if subcommand ∈ ["STATS", "PURGE", "MALLOC-STATS", "DOCTOR", "HELP"] then do
      return (client, ← ask (.service .memory items))
    else refuse client (.unknownCommand ("MEMORY " ++ subcommand))

/-! ### The table of commands -/

inductive Command where
  | data (command : RaftCommand)
  | evalSha
  | multi
  | discard
  | exec
  | ping
  | echo
  | select
  | quit
  | auth
  | hello
  | memory
  | service (command : ServiceCommand)
deriving DecidableEq

def Command.execute (client : Client) (items : List Value) : Command → Execution
  | data command => executeData command client items
  | evalSha => executeEvalSha client items
  | multi => executeMulti client items
  | discard => executeDiscard client items
  | exec => executeExec client items
  | ping => executePing client items
  | echo => executeEcho client items
  | select => executeSelect client items
  | quit => executeQuit client items
  | auth => executeAuth client items
  | hello => executeHello client items
  | memory => executeMemory client items
  | service command => do return (client, ← ask (.service command items))

/-- `CommandFactory::init`. -/
def commands : String → Option Command
  | "PING" => some .ping
  | "ECHO" => some .echo
  | "TIME" => some (.service .time)
  | "SELECT" => some .select
  | "QUIT" => some .quit
  | "AUTH" => some .auth
  | "CLIENT" => some (.service .client)
  | "HELLO" => some .hello
  | "MEMORY" => some .memory
  | "GET" => some (.data .get)
  | "SET" => some (.data .set)
  | "DEL" => some (.data .del)
  | "INCR" => some (.data .incr)
  | "INCRBY" => some (.data .incrBy)
  | "MSET" => some (.data .mSet)
  | "MGET" => some (.data .mGet)
  | "APPEND" => some (.data .append)
  | "EXPIRE" => some (.data .expire)
  | "PEXPIRE" => some (.data .pExpire)
  | "EXISTS" => some (.data .exists)
  | "PERSIST" => some (.data .persist)
  | "RENAME" => some (.data .rename)
  | "RENAMENX" => some (.data .renameNx)
  | "PSETEX" => some (.data .pSetEx)
  | "SETEX" => some (.data .setEx)
  | "SETNX" => some (.data .setNx)
  | "STRLEN" => some (.data .strLen)
  | "TYPE" => some (.data .type)
  | "DECRBY" => some (.data .decrBy)
  | "PTTL" => some (.data .pTtl)
  | "TTL" => some (.data .ttl)
  | "DECR" => some (.data .decr)
  | "GETSET" => some (.data .getSet)
  | "FLUSHDB" => some (.data .flushDB)
  | "FLUSHALL" => some (.data .flushAll)
  | "KEYS" => some (.data .keys)
  | "UNLINK" => some (.data .unlink)
  | "DBSIZE" => some (.data .dbSize)
  | "PFCOUNT" => some (.data .pfCount)
  | "PFADD" => some (.data .pfAdd)
  | "LPUSH" => some (.data .lPush)
  | "RPUSH" => some (.data .rPush)
  | "LRANGE" => some (.data .lRange)
  | "LLEN" => some (.data .lLen)
  | "LPOP" => some (.data .lPop)
  | "RPOP" => some (.data .rPop)
  | "LINDEX" => some (.data .lIndex)
  | "LREM" => some (.data .lRem)
  | "LSET" => some (.data .lSet)
  | "LTRIM" => some (.data .lTrim)
  | "HSET" => some (.data .hSet)
  | "HGET" => some (.data .hGet)
  | "HINCRBY" => some (.data .hIncrBy)
  | "HMGET" => some (.data .hMGet)
  | "HDEL" => some (.data .hDel)
  | "HGETALL" => some (.data .hGetAll)
  | "HKEYS" => some (.data .hKeys)
  | "HVALS" => some (.data .hVals)
  | "HEXISTS" => some (.data .hExists)
  | "HLEN" => some (.data .hLen)
  | "HSETNX" => some (.data .hSetNx)
  | "SADD" => some (.data .sAdd)
  | "SMEMBERS" => some (.data .sMembers)
  | "SREM" => some (.data .sRem)
  | "SISMEMBER" => some (.data .sIsMember)
  | "SPOP" => some (.data .sPop)
  | "SRANDMEMBER" => some (.data .sRandMember)
  | "SINTER" => some (.data .sInter)
  | "SINTERSTORE" => some (.data .sInterStore)
  | "SUNION" => some (.data .sUnion)
  | "SUNIONSTORE" => some (.data .sUnionStore)
  | "SDIFF" => some (.data .sDiff)
  | "SDIFFSTORE" => some (.data .sDiffStore)
  | "ZADD" => some (.data .zAdd)
  | "ZRANGE" => some (.data .zRange)
  | "ZRANGEBYSCORE" => some (.data .zRangeByScore)
  | "ZREM" => some (.data .zRem)
  | "ZSCORE" => some (.data .zScore)
  | "ZCARD" => some (.data .zCard)
  | "ZRANK" => some (.data .zRank)
  | "ZPOPMIN" => some (.data .zPopMin)
  | "ZREVRANK" => some (.data .zRevRank)
  | "ZINCRBY" => some (.data .zIncrBy)
  | "SETBIT" => some (.data .setBit)
  | "GETBIT" => some (.data .getBit)
  | "BITCOUNT" => some (.data .bitCount)
  | "BITPOS" => some (.data .bitPos)
  | "SCARD" => some (.data .sCard)
  | "BITFIELD" => some (.data .bitField)
  | "EVAL" => some (.data .eval)
  | "EVALSHA" => some .evalSha
  | "SCRIPT" => some (.service .script)
  | "MULTI" => some .multi
  | "DISCARD" => some .discard
  | "EXEC" => some .exec
  | "BGSAVE" => some (.service .bgsave)
  | "SAVE" => some (.service .save)
  | "SHUTDOWN" => some (.service .shutdown)
  | "PUBLISH" => some (.service .publish)
  | "UNSUBSCRIBE" => some (.service .unsubscribe)
  | "PUNSUBSCRIBE" => some (.service .punsubscribe)
  | "PUBSUB" => some (.service .pubsub)
  | "SENTINEL" => some (.service .sentinel)
  | _ => none

/-! ### Serving a connection -/

/-- `parse_command`: the name, and all items with the name among them. -/
def parseCommand : Value → Parsed (String × List Value)
  | .array (some (first :: rest)) =>
    match first with
    | .bulkString (some data) =>
      .ok (Text.toUppercase (Text.fromUtf8Lossy data), first :: rest)
    | .simpleString text => .ok (Text.toUppercase text.toList, first :: rest)
    | _ => .error (.invalidFormat "invalid command name")
  | _ => .error (.invalidFormat "expected array")

/-- What is done with a frame of the client. -/
inductive Dispatch where
  | answer (value : Value)
  | execute (command : Command) (items : List Value)
  | subscribe (name : String) (items : List Value)
  | duringBlock (name : String) (items : List Value)

def lookup (name : String) (items : List Value) : Dispatch :=
  match commands name with
  | some command => .execute command items
  | none => .answer (ProtocolError.unknownCommand name).toValue

/-- `execute_command`. -/
def executeCommand (client : Client) (name : String) (items : List Value) : Dispatch :=
  if client.authenticated = false ∧ name ≠ "AUTH" ∧ name ≠ "QUIT" then
    .answer ProtocolError.notAuthenticated.toValue
  else if name = "SUBSCRIBE" ∨ name = "PSUBSCRIBE" then .subscribe name items
  else lookup name items

def subscribeModeCommands : List String :=
  ["SUBSCRIBE", "UNSUBSCRIBE", "PSUBSCRIBE", "PUNSUBSCRIBE", "PING", "QUIT", "RESET"]

/-- In subscribe mode the other commands are open to RESP3 clients only. -/
def handleCommandInBlockingContext (client : Client) (name : String) (items : List Value) :
    Dispatch :=
  if client.protoVersion = 3 ∧ name ∉ subscribeModeCommands then lookup name items
  else .duringBlock name items

def Client.dispatch (client : Client) (value : Value) : Dispatch :=
  match parseCommand value with
  | .error error => .answer error.toValue
  | .ok (name, items) =>
    if client.blocking then handleCommandInBlockingContext client name items
    else executeCommand client name items

/-- The client after one dispatch, and what is sent to it. An error in subscribe
mode ends the connection without a reply. -/
def Dispatch.perform (client : Client) :
    Dispatch → Program Query Query.Answer (Client × Option Value)
  | answer value => return (client, some value)
  | execute command items => do
      let (after, result) ← command.execute client items
      return (after, some (reply result))
  | subscribe name items => do
      match ← ask (.subscribe name items) with
      | .ok value => return ({ client with blocking := true }, some value)
      | .error error => return (client, some error.toValue)
  | duringBlock name items => do
      match ← ask (.duringBlock name items) with
      | .ok (value, quit) => return ({ client with closed := client.closed || quit }, some value)
      | .error _ => return ({ client with closed := true }, none)

/-- One frame of a client: what it sent, what that asked of the server, what was
sent back, and the state of the client before and after. -/
structure Exchange where
  client : Client
  value : Value
  asked : List (Sigma Query.Answer)
  reply : Option Value
  after : Client

/-- `process_connection`: the frames of a client one after the other, and the end
of a subscription stream between two of them. -/
inductive Serves : Client → List Exchange → Client → Prop
  | nil (client : Client) : Serves client [] client
  | streamEnded {client last : Client} {exchanges : List Exchange}
      (hBlocking : client.blocking = true)
      (hRest : Serves { client with blocking := false } exchanges last) :
      Serves client exchanges last
  | frame {client last : Client} {exchange : Exchange} {exchanges : List Exchange}
      (hOpen : client.closed = false) (hClient : exchange.client = client)
      (hFrame : ((client.dispatch exchange.value).perform client).Transcript exchange.asked
        (exchange.after, exchange.reply))
      (hRest : Serves exchange.after exchanges last) :
      Serves client (exchange :: exchanges) last

/-- A registered name reaches its command, if the client has authenticated and is
not in subscribe mode. -/
theorem Client.dispatch_eq {client : Client} {data : Bytes} {rest : List Value} {name : String}
    {command : Command} (hAuth : client.authenticated = true) (hMode : client.blocking = false)
    (hName : Text.toUppercase (Text.fromUtf8Lossy data) = name)
    (hCommand : commands name = some command) :
    client.dispatch (.array (some (.bulkString (some data) :: rest))) =
      .execute command (.bulkString (some data) :: rest) := by
  have hSubscribe : ¬ (name = "SUBSCRIBE" ∨ name = "PSUBSCRIBE") := by
    rintro (rfl | rfl) <;> cases hCommand
  simp [dispatch, parseCommand, hName, hMode, executeCommand, hAuth, hSubscribe, lookup, hCommand]

/-! ### Before the password -/

/-- Neither authenticated nor in subscribe mode. -/
def Client.Locked (client : Client) : Prop :=
  client.authenticated = false ∧ client.blocking = false

/-- The request is AUTH, and the server has the password that it names. -/
def NamesPassword (value : Value) (asked : Sigma Query.Answer) : Prop :=
  ∃ items password, parseCommand value = .ok ("AUTH", items) ∧
    authPassword items = .ok password ∧ asked = ⟨.password, some password⟩

/-- The client gets nothing done but a look at the password. -/
structure Exchange.LockedOut (exchange : Exchange) : Prop where
  asked : ∀ query ∈ exchange.asked, query.1 = .password
  after : exchange.after.Locked

variable {client last : Client}

theorem Client.ensures_dispatch (hClient : client.Locked) (value : Value) :
    ((client.dispatch value).perform client).Ensures
      (fun query answer => ¬ NamesPassword value ⟨query, answer⟩) (· = .password)
      fun result => result.1.Locked := by
  unfold dispatch executeCommand
  cases hParse : parseCommand value with
  | error error => exact hClient
  | ok parsed =>
    obtain ⟨name, items⟩ := parsed
    simp only [hClient.1, hClient.2, Bool.false_eq_true, if_false, true_and]
    by_cases hName : name ≠ "AUTH" ∧ name ≠ "QUIT"
    · rw [if_pos hName]
      exact hClient
    rw [if_neg hName]
    obtain rfl | rfl : name = "AUTH" ∨ name = "QUIT" := by tauto
    · rw [if_neg (by decide)]
      simp only [lookup, commands, Dispatch.perform, Command.execute, executeAuth]
      cases hPassword : authPassword items with
      | error error => exact hClient
      | ok password =>
        refine ⟨rfl, fun configured hOther => ?_⟩
        cases configured with
        | none => exact hClient
        | some configured =>
          have hNe : password ≠ configured := by
            rintro rfl
            exact hOther ⟨items, password, hParse, hPassword, rfl⟩
          simp only [Program.bind, if_neg hNe]
          exact hClient
    · rw [if_neg (by decide)]
      simp only [lookup, commands, Dispatch.perform, Command.execute, executeQuit]
      split_ifs <;> exact hClient

/-- A client that has not authenticated gets nothing done before it names the password. -/
theorem lockedOut_before_password {before rest : List Exchange} (hClient : client.Locked)
    (hServes : Serves client (before ++ rest) last)
    (hBefore : ∀ exchange ∈ before, ∀ asked ∈ exchange.asked,
      ¬ NamesPassword exchange.value asked) :
    ∀ exchange ∈ before, exchange.LockedOut := by
  induction before generalizing client with
  | nil => simp
  | cons exchange before ih =>
    obtain ⟨hOther, hBefore⟩ := List.forall_mem_cons.mp hBefore
    cases hServes with
    | streamEnded hBlocking => simp [hClient.2] at hBlocking
    | frame _ _ hFrame hRest =>
      obtain ⟨hAsked, hAfter⟩ := hFrame.ensures hOther (client.ensures_dispatch hClient _)
      exact List.forall_mem_cons.mpr ⟨⟨hAsked, hAfter⟩, ih hAfter hRest hBefore⟩

/-- A wrong password. -/
def guessExchange : Exchange where
  client := .new 0 false
  value := .array (some [.simpleString "AUTH", .simpleString "guess"])
  asked := [⟨.password, some ['s']⟩]
  reply := some (ProtocolError.custom "invalid username-password pair").toValue
  after := .new 0 false

theorem lockedOut_by_guess : guessExchange.LockedOut := by
  have hServes : Serves (.new 0 false) ([guessExchange] ++ []) (.new 0 false) :=
    .frame rfl rfl (.ask (.done _)) (.nil _)
  refine lockedOut_before_password ⟨rfl, rfl⟩ hServes ?_ _ (by simp)
  rintro _ (_ | ⟨_, ⟨⟩⟩) _ (_ | ⟨_, ⟨⟩⟩) ⟨_, _, ⟨⟩, ⟨⟩, hNamed⟩
  simp at hNamed

end CacheCat.Protocol
