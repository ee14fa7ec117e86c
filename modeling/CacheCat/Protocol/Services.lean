import CacheCat.Broadcast.Registry
import CacheCat.Protocol.Session

/-! The commands that have to do with neither a database nor a transaction: what they
reply, made from the request and from what the server holds at that moment. A panic of
the connection is `none`. -/
namespace CacheCat.Protocol

open Parsed
open Broadcast (Registry)

structure Endpoint where
  address : String
  port : Nat
  redisPort : Nat

/-- `redis_addr`. -/
def Endpoint.redisAddr (endpoint : Endpoint) : String :=
  endpoint.address ++ ":" ++ toString endpoint.redisPort

/-- A member of the cluster, and whether it answers. -/
structure Member where
  nodeId : Nat
  endpoint : Endpoint
  survives : Bool

/-- What the commands below read. -/
structure Server where
  /-- Seconds and microseconds, unless the clock is before the epoch. -/
  now : Option (Nat × Nat)
  /-- The digest of a script in hexadecimal. -/
  sha1 : List Char → String
  scriptMap : List Char → Bool
  /-- Whether `interrupt` has found a script. -/
  interrupt : Bool
  snapshotState : Bool
  triggerSnapshot : Except CacheCatError Unit
  /-- The figures of the allocator under their names. -/
  memoryStats : Option (List (String × Nat))
  doctorReport : Option Bytes
  mallocReport : Bytes
  clientInfo : Except CacheCatError Bytes
  pubsub : Registry
  order : HashOrder
  /-- How many clients a publication reaches. -/
  delivered : Nat
  masterName : List Char
  advertised : Endpoint
  leaderAddr : Option Endpoint
  lastLeader : Endpoint
  nodeId : Nat
  nodes : List Member
  lastSlave : List Member

def bulk (text : String) : Value := .bulkString (some (bytes text))

/-! ### TIME, SAVE, BGSAVE and SHUTDOWN -/

def executeTime (server : Server) (items : List Value) : Parsed Value := do
  if items.length ≠ 1 then .error (.wrongArgCount "time")
  let now ← okOr server.now (.custom "Failed to get system time")
  pure (.array (some [bulk (toString now.1), bulk (toString now.2)]))

/-- Take a snapshot, whether or not the command waits for it. -/
def takeSnapshot (server : Server) : Except CacheCatError Value :=
  server.triggerSnapshot.map fun _ => .ok

def saveInProgress : CacheCatError := .protocol (.custom "Background save already in progress")

def executeSave (server : Server) (items : List Value) : Except CacheCatError Value :=
  if 2 ≤ items.length then .error (.protocol (.wrongArgCount "save"))
  else if server.snapshotState then .error saveInProgress
  else takeSnapshot server

/-- A word that is no SCHEDULE is ignored. -/
def bgsaveSchedule (items : List Value) : Parsed Bool :=
  match items with
  | [_, .bulkString (some data)] => .ok (Text.toUppercase (Text.fromUtf8Lossy data) = "SCHEDULE")
  | [_, .simpleString text] => .ok (Text.toUppercase text.toList = "SCHEDULE")
  | [_, _] => .error .syntaxError
  | _ => if 2 < items.length then .error (.wrongArgCount "save") else .ok false

def executeBgsave (server : Server) (items : List Value) : Except CacheCatError Value :=
  match bgsaveSchedule items with
  | .error error => .error (.protocol error)
  | .ok schedule =>
    if server.snapshotState && !schedule then .error saveInProgress else takeSnapshot server

def shutdownOption (arg : String) : Parsed Unit :=
  if arg = "SAVE" ∨ arg = "NOSAVE" then .ok ()
  else .error (.invalidArgument "shutdown supports only SAVE or NOSAVE arguments")

def executeShutdown (items : List Value) : Parsed Value :=
  match items with
  | [_] => .ok .ok
  | [_, .bulkString (some data)] =>
    (shutdownOption (Text.toUppercase (Text.fromUtf8Lossy data))).map fun _ => .ok
  | [_, .simpleString text] => (shutdownOption (Text.toUppercase text.toList)).map fun _ => .ok
  | [_, _] => .error (.invalidArgument "shutdown expects SAVE or NOSAVE argument")
  | _ => .error (.wrongArgCount "shutdown")

/-! ### CLIENT -/

/-- The word that CLIENT and SENTINEL look up in their tables. -/
def subcommand (command : String) (items : List Value) : Parsed String :=
  match items with
  | _ :: .bulkString (some data) :: _ => .ok (Text.toUppercase (Text.fromUtf8Lossy data))
  | _ :: .simpleString text :: _ => .ok (Text.toUppercase text.toList)
  | _ :: _ :: _ => .error (.invalidArgument "subcommand")
  | _ => .error (.wrongArgCount command)

/-- The complaint about a wrong number of items names another command. -/
def executeSetName (items : List Value) : Parsed Value := do
  if items.length ≠ 3 then .error (.wrongArgCount "SENTINEL GET-MASTER-ADDR-BY-NAME")
  let _ ← okOr (item items 2).asStrLossy (.invalidArgument "master name")
  pure .ok

/-- Both the field and its value are taken from the same item. -/
def executeSetInfo (items : List Value) : Parsed Value := do
  if items.length ≠ 4 then .error (.wrongArgCount "CLIENT SETINFO")
  let field ← okOr (item items 2).asStrLossy (.invalidArgument "field")
  if Text.toUppercase field ∉ ["LIB-NAME", "LIB-VER"] then
    .error (.invalidArgument "SETINFO sub-option")
  pure .ok

def clientSubcommands : List String := ["INFO", "SETNAME", "SETINFO"]

def executeClient (server : Server) (items : List Value) : Except CacheCatError Value :=
  match subcommand "CLIENT" items with
  | .error error => .error (.protocol error)
  | .ok "INFO" => server.clientInfo.map fun text => .bulkString (some text)
  | .ok "SETNAME" => (executeSetName items).mapError .protocol
  | .ok "SETINFO" => (executeSetInfo items).mapError .protocol
  | .ok other => .error (.protocol (.unknownCommand ("CLIENT " ++ other)))

/-! ### MEMORY -/

/-- The items of a subcommand of MEMORY without arguments. -/
def parseMemory (word : String) (items : List Value) : Parsed Unit := do
  if items.length ≠ 2 then .error (.wrongArgCount ("MEMORY " ++ word))
  let memory ← argument items 0 "command"
  if !isWord memory "MEMORY" then .error (.invalidArgument "command")
  let subcommand ← argument items 1 "subcommand"
  if !isWord subcommand word then .error (.invalidArgument "subcommand")

def statsReply (stats : List (String × Nat)) : Value :=
  .array (some (stats.flatMap fun stat =>
    [bulk stat.1, .integer (min (stat.2 : Int) Text.i64Max)]))

def verbatimReport (report : Bytes) : Value := .verbatimString "txt" report

def helpReply : Value :=
  .array (some (List.map bulk
    ["MEMORY <subcommand> [<arg> [value] [opt] ...]. Subcommands are:",
      "DOCTOR",
      "    Return memory problems reports.",
      "MALLOC-STATS",
      "    Return internal statistics report from the memory allocator.",
      "PURGE",
      "    Attempt to purge dirty pages for reclamation by the allocator.",
      "STATS",
      "    Return information about the memory usage of the server.",
      "USAGE <key> [SAMPLES <count>]",
      "    Return memory in bytes used by <key> and its value. Nested values are",
      "    sampled up to <count> times (default: 5, 0 means sample all).",
      "HELP",
      "    Prints this help."]))

/-- The subcommands that do not look at a database; the others do not get here. -/
def executeMemoryService (server : Server) (items : List Value) : Parsed Value := do
  match ← memorySubcommand items with
  | "STATS" =>
    parseMemory "STATS" items
    pure (statsReply (← okOr server.memoryStats (.invalidArgument "mimalloc stats")))
  | "PURGE" =>
    parseMemory "PURGE" items
    pure .ok
  | "MALLOC-STATS" =>
    parseMemory "MALLOC-STATS" items
    pure (verbatimReport server.mallocReport)
  | "DOCTOR" =>
    parseMemory "DOCTOR" items
    pure (verbatimReport (← okOr server.doctorReport (.invalidArgument "mimalloc stats")))
  | _ =>
    parseMemory "HELP" items
    pure helpReply

/-! ### SCRIPT -/

/-- `string_from_value`. -/
def stringFromValue : Value → Parsed (List Char)
  | .bulkString (some data) => okOr (Text.fromUtf8 data) (.invalidArgument "script")
  | .simpleString text => .ok text.toList
  | _ => .error (.invalidArgument "script")

inductive ScriptParam where
  | load (script : List Char)
  | exists (sha1s : List (List Char))
  | flush
  | kill
  | debug

def ScriptParam.ofSubcommand (items : List Value) : String → Parsed ScriptParam
  | "LOAD" =>
    if items.length ≠ 3 then .error (.wrongArgCount "script|load")
    else (stringFromValue (item items 2)).map .load
  | "EXISTS" => ((items.drop 2).mapM stringFromValue).map .exists
  | "FLUSH" => do
      if 3 < items.length then .error (.wrongArgCount "script|flush")
      if items.length = 3 then
        let mode ← stringFromValue (item items 2)
        if Text.toUppercase mode ∉ ["ASYNC", "SYNC"] then .error (.invalidArgument "flush mode")
        pure .flush
      else pure .flush
  | "KILL" => if items.length ≠ 2 then .error (.wrongArgCount "script|kill") else pure .kill
  | "DEBUG" => do
      if items.length ≠ 3 then .error (.wrongArgCount "script|debug")
      let mode ← stringFromValue (item items 2)
      if Text.toUppercase mode ∉ ["YES", "SYNC", "NO"] then .error (.invalidArgument "debug mode")
      pure .debug
  | _ => .error (.invalidArgument "unknown script subcommand")

/-- The subcommand is read without looking whether there is one. -/
def ScriptParam.parse (items : List Value) : Option (Parsed ScriptParam) :=
  match items with
  | [] => some (.error (.wrongArgCount "script"))
  | [_] => none
  | _ :: word :: _ => some do
      let word ← okOr word.asStrLossy (.invalidArgument "script subcommand")
      ofSubcommand items (Text.toUppercase word)

def ScriptParam.reply (server : Server) : ScriptParam → Value
  | load script => bulk (server.sha1 script)
  | «exists» sha1s =>
    .array (some (sha1s.map fun sha1 => .integer (if server.scriptMap sha1 then 1 else 0)))
  | flush => .ok
  | kill =>
    if server.interrupt then .ok else .error "ERR No scripts in execution right now."
  | debug => .error "Not implemented"

def executeScript (server : Server) (items : List Value) : Option (Parsed Value) :=
  (ScriptParam.parse items).map fun param => param.map (ScriptParam.reply server)

/-! ### PUBLISH and PUBSUB -/

def executePublish (server : Server) (items : List Value) : Parsed Value := do
  if items.length ≠ 3 then .error (.wrongArgCount "publish")
  let _ ← okOr (item items 1).stringBytesClone (.wrongArgCount "publish")
  let _ ← okOr (item items 2).stringBytesClone (.wrongArgCount "publish")
  pure (.integer server.delivered)

/-- `to_ascii_uppercase`. -/
def asciiUppercase (text : List Char) : String := String.ofList (text.map Char.toUpper)

def pubsubSubcommand (items : List Value) : Parsed String := do
  if items.length < 2 then .error (.wrongArgCount "pubsub")
  let text ← okOr (item items 1).asStrLossy (.invalidArgument "Invalid subcommand format")
  pure (asciiUppercase text)

def executePubSub (server : Server) (items : List Value) : Parsed Value := do
  match ← pubsubSubcommand items with
  | "CHANNELS" =>
    if items.length < 3 then pure (server.pubsub.pubsubChannels server.order none)
    else
      let pattern ← argument items 2 "Invalid pattern format"
      pure (server.pubsub.pubsubChannels server.order (some pattern))
  | "NUMSUB" =>
    pure (server.pubsub.pubsubNumsub (← restArguments items 2 "Invalid channel format"))
  | "NUMPAT" =>
    if 2 < items.length then .error (.wrongArgCount "pubsub numpat")
    pure server.pubsub.pubsubNumpat
  | other => .error (.unknownCommand ("Unknown PUBSUB subcommand: " ++ other))

/-! ### SENTINEL -/

def bulkArray (texts : List String) : Value := .array (some (texts.map bulk))

/-- The name of the master, which three subcommands take. -/
def sentinelName (command : String) (items : List Value) : Parsed (List Char) :=
  match items with
  | [_, _, .bulkString (some data)] => .ok (Text.fromUtf8Lossy data)
  | [_, _, .simpleString text] => .ok text.toList
  | [_, _, _] => .error (.invalidArgument "master name")
  | _ => .error (.wrongArgCount command)

def sentinelMasters (server : Server) : Value :=
  let endpoint := server.leaderAddr.getD server.advertised
  .array (some [bulkArray
    ["name", String.ofList server.masterName, "ip", endpoint.address, "port",
      toString endpoint.redisPort, "flags",
      if server.leaderAddr.isSome then "master" else "master,o_down,disconnected",
      "num-other-sentinels", toString server.nodes.length]])

def sentinelGetMasterAddr (server : Server) (name : List Char) : Value :=
  if server.masterName ≠ name then .bulkString none
  else bulkArray [server.lastLeader.address, toString server.lastLeader.redisPort]

def sentinelSlaves (server : Server) (name : List Char) : Value :=
  if server.masterName ≠ name then .array none
  else .array (some (server.lastSlave.map fun slave => bulkArray
    ["name", slave.endpoint.redisAddr, "ip", slave.endpoint.address, "port",
      toString slave.endpoint.redisPort, "runid", toString server.nodeId, "flags",
      if slave.survives then "slave" else "slave,o_down,disconnected", "master-link-status",
      if server.leaderAddr.isSome then "ok" else "err", "master-host", server.lastLeader.address,
      "master-port", toString server.lastLeader.port, "slave-repl-offset", "0", "slave-priority",
      "100"]))

def sentinelSentinels (server : Server) (name : List Char) : Value :=
  if server.masterName ≠ name then .array none
  else .array (some (server.nodes.map fun node => bulkArray
    ["name", toString node.nodeId, "ip", node.endpoint.address, "port",
      toString node.endpoint.redisPort, "runid", toString node.nodeId, "flags",
      if node.survives then "sentinel" else "sentinel,o_down,disconnected"]))

def sentinelSubcommands : List String :=
  ["MASTERS", "GET-MASTER-ADDR-BY-NAME", "SLAVES", "SENTINELS"]

def executeSentinel (server : Server) (items : List Value) : Parsed Value := do
  match ← subcommand "SENTINEL" items with
  | "MASTERS" => pure (sentinelMasters server)
  | "GET-MASTER-ADDR-BY-NAME" =>
    pure (sentinelGetMasterAddr server (← sentinelName "SENTINEL GET-MASTER-ADDR-BY-NAME" items))
  | "SLAVES" => pure (sentinelSlaves server (← sentinelName "SENTINEL SLAVES" items))
  | "SENTINELS" => pure (sentinelSentinels server (← sentinelName "SENTINEL SENTINELS" items))
  | other => .error (.unknownCommand ("SENTINEL " ++ other))

/-! ### The table -/

/-- What a service command returns. The two commands that end subscriptions reply one
frame for each of them and are modelled with the broker. -/
def executeService (server : Server) (items : List Value) :
    ServiceCommand → Option (Except CacheCatError Value)
  | .time => some ((executeTime server items).mapError .protocol)
  | .client => some (executeClient server items)
  | .memory => some ((executeMemoryService server items).mapError .protocol)
  | .script => (executeScript server items).map (·.mapError .protocol)
  | .bgsave => some (executeBgsave server items)
  | .save => some (executeSave server items)
  | .shutdown => some ((executeShutdown items).mapError .protocol)
  | .publish => some ((executePublish server items).mapError .protocol)
  | .pubsub => some ((executePubSub server items).mapError .protocol)
  | .sentinel => some ((executeSentinel server items).mapError .protocol)
  | .unsubscribe => none
  | .punsubscribe => none

/-! ### Subscribe mode -/

/-- The command that has put the connection into subscribe mode. -/
inductive BlockCommand where
  | subscribe
  | psubscribe
deriving DecidableEq

/-- The requests that are answered by one frame for each subscription. -/
def subscribeFamily : List String := ["SUBSCRIBE", "UNSUBSCRIBE", "PSUBSCRIBE", "PUNSUBSCRIBE"]

/-- `to_lowercase`, as far as it yields ASCII. -/
def lowercase (name : String) : String := String.ofList (name.toList.map Char.toLower)

/-- Only a RESP2 client that has sent SUBSCRIBE gets the array of Redis. -/
def pongInBlock (block : BlockCommand) (client : Client) (message : Option Bytes) : Value :=
  match block with
  | .psubscribe => .array (some [.simpleString "PONG", .bulkString message])
  | .subscribe =>
    if client.protoVersion = 2 then
      .array (some [bulk "pong", .bulkString (some (message.getD []))])
    else
      match message with
      | none => .simpleString "PONG"
      | some message => .bulkString (some message)

def refusedInBlock (name : String) : BlockCommand → Value
  | .subscribe => .error ("ERR Can't execute '" ++ lowercase name ++ "': only (P|S)SUBSCRIBE / " ++
      "(P|S)UNSUBSCRIBE / PING / QUIT / RESET are allowed in this context")
  | .psubscribe =>
    .error "ERR only (P)SUBSCRIBE / (P)UNSUBSCRIBE / PING / QUIT allowed in this context"

/-- `execute_during_block` of a request that is not about subscriptions: the response,
and whether the client has quit. -/
def executeDuringBlock (block : BlockCommand) (client : Client) (name : String)
    (items : List Value) : Parsed (Value × Bool) :=
  if name = "PING" then
    (pingMessage items).map fun message => (pongInBlock block client message, false)
  else if name = "QUIT" then .ok (.ok, true)
  else .ok (refusedInBlock name block, false)

end CacheCat.Protocol
