import CacheCat.Cache.Operation
import CacheCat.Library.Program
import CacheCat.Protocol.FromLua

/-! What the handlers of the state machine run on: the databases, the write
clock, the queue of a snapshot in progress, the lock that keeps readers out, and
the Lua machine of the process. A handler is a program whose queries are the
calls it makes on these. -/
namespace CacheCat.Cache

open Mocha (ExpirePolicy Table resolveExpireAt)
open Library (Program)

/-- `UpdateType`; the queue that `Snapshot` borrows is part of the state. -/
inductive UpdateType where
  | none
  | snapshot
  | cas (version : Nat)
deriving DecidableEq

/-- `forScript` labels the replies that a script gets to see; it decides nothing. -/
structure Update where
  dbNumber : Nat
  writeClock : Nat
  updateType : UpdateType
  forScript : Bool
deriving DecidableEq

/-! ### The Lua machine -/

/-- At what a running script stops: the hook set for every 1000 instructions, a
call of `redis.call` or `redis.pcall`, or its end. -/
inductive ScriptEvent where
  | hook
  | call (args : List String)
  | pcall (args : List String)
  | finish (result : Except LuaError LuaValue)

/-- How a call comes back to the script: as a raised error or as a value. -/
inductive ScriptReply where
  | raise (message : String)
  | value (reply : Value)

/-- The Lua machine, with everything it keeps between scripts in its state. All
that is assumed of it is that what it does next is determined by that state. -/
structure LuaMachine (Vm : Type) where
  /-- Find the compiled script in the cache or compile it. -/
  getOrCompileScript : Vm → List Char → Except ProtocolError Vm
  setGlobal : Vm → String → LuaValue → Vm
  /-- Call the compiled script. -/
  call : Vm → List Char → Vm
  advance : Vm → ScriptEvent × Vm
  resume : Vm → ScriptReply → Vm

/-- The table `redis`; its functions go by their names. -/
def redisTable : LuaValue :=
  .table (["call", "pcall", "setresp", "error_reply", "status_reply"].map fun name =>
    (.string (bytes name), .other name))

/-- What `exec_lua` does in its scope: the globals are set anew for every script, and
nothing keeps the ones of the script around it. -/
def LuaMachine.enter {Vm : Type} (lua : LuaMachine Vm) (vm : Vm) (params : EvalParams) : Vm :=
  let vm := lua.setGlobal vm "redis" redisTable
  let vm := lua.setGlobal vm "KEYS" (.ofStrings params.keys)
  let vm := lua.setGlobal vm "ARGV" (.ofStrings params.args)
  lua.call vm params.script

/-- A machine on which no script compiles. -/
def LuaMachine.none : LuaMachine Unit where
  getOrCompileScript _ _ := .error (.scriptCompileError "")
  setGlobal vm _ _ := vm
  call vm _ := vm
  advance vm := (.finish (.ok .nil), vm)
  resume vm _ := vm

/-! ### Queries -/

inductive Query where
  | databaseCount
  | getEntry (db : Nat) (key : Bytes)
  | insertEntry (db : Nat) (key : Bytes) (value : MyValue) (policy : ExpirePolicy)
  | remove (db : Nat) (key : Bytes)
  | unlink (db : Nat) (key : Bytes)
  | clear (db : Nat)
  | liveKeys (db : Nat) (readClock : Option Nat)
  | activeExpireCycle (db : Nat)
  | environment
  /-- The physical size of the map. -/
  | len (forScript : Bool) (db : Nat)
  /-- The reply of a read, made from its entries and the surroundings. -/
  | reply (forScript : Bool) (execute : Env → Value)
  | push (request : AtomicRequest)
  | lockReaders
  | unlockReaders
  | setWriteClock (clock : Nat)
  /-- A panic of the applying thread; it is never answered. -/
  | panic
  | beginScript
  | enterScript (params : EvalParams)
  | advanceScript
  | resumeScript (reply : ScriptReply)
  | interrupted
  | endScript (finished : Bool)
  /-- The loop of a script from where it stands to its end. -/
  | runScript (update : Update)

@[reducible] def Query.Answer : Query → Type
  | databaseCount => Nat
  | getEntry .. => Option Entry
  | remove .. => Option MyValue
  | unlink .. => Bool
  | liveKeys .. => Finset Bytes
  | environment => Env
  | len .. => Nat
  | reply .. => Value
  | setWriteClock _ => Nat
  | panic => Empty
  | enterScript _ => Except ProtocolError Unit
  | advanceScript => ScriptEvent
  | interrupted => Bool
  | runScript _ => Except LuaError LuaValue
  | _ => Unit

abbrev Action := Program Query Query.Answer

def ask (query : Query) : Action query.Answer := Program.call query

/-! ### States -/

structure State (Vm : Type) where
  count : Nat
  databases : Nat → Table Bytes MyValue
  writeClock : Nat
  queue : List AtomicRequest
  readersLocked : Bool
  vm : Vm
  /-- How many calls of `exec_lua` are on the stack. -/
  running : Nat
  interruptFlag : Bool

namespace State

variable {Vm : Type}

/-- `MyCache::new`. -/
def new (count : Nat) (vm : Vm) : State Vm where
  count := count
  databases _ := ∅
  writeClock := 0
  queue := []
  readersLocked := false
  vm := vm
  running := 0
  interruptFlag := false

def setDatabase (s : State Vm) (db : Nat) (map : Table Bytes MyValue) : State Vm :=
  { s with databases := Function.update s.databases db map }

/-- The entry under a key unless it has expired at the write clock. -/
def live (s : State Vm) (db : Nat) (key : Bytes) : Option Entry :=
  ((s.databases db).lookup key).filter fun entry => !entry.expired s.writeClock

/-- What is visible under a key: the data and the deadline, without the version. -/
def visible (s : State Vm) (db : Nat) (key : Bytes) : Option (ValueObject × Option Nat) :=
  (s.live db key).map fun entry => (entry.value.data, entry.expireAt)

/-- The map without the entries that have expired at the write clock. -/
def reclaimed (s : State Vm) (db : Nat) : Table Bytes MyValue :=
  (s.databases db).retain fun entry => !entry.expired s.writeClock

/-- What a walk over the keys sees: neither clock has reached the deadline. -/
def unhidden (s : State Vm) (db : Nat) (readClock : Option Nat) : Table Bytes MyValue :=
  (s.databases db).retain fun entry => !entry.hidden s.writeClock readClock

/-- `get_entry` removes the entry it finds expired. -/
def dropExpired (s : State Vm) (db : Nat) (key : Bytes) : State Vm :=
  if ((s.databases db).lookup key).any fun entry => entry.expired s.writeClock then
    s.setDatabase db ((s.databases db).erase key)
  else s

def unlinked (s : State Vm) (db : Nat) (key : Bytes) : Table Bytes MyValue × Bool :=
  (s.databases db).unlink key s.writeClock

end State

/-! ### Performing a query -/

section

variable {Vm : Type} (lua : LuaMachine Vm) (env : Env)

/-- The lock of the readers is not reentrant: to take it twice is to wait forever. -/
def handle (s : State Vm) : (query : Query) → Option (State Vm × query.Answer)
  | .databaseCount => some (s, s.count)
  | .getEntry db key => some (s.dropExpired db key, s.live db key)
  | .insertEntry db key value policy =>
    let entry := ⟨value, resolveExpireAt s.writeClock policy⟩
    some (s.setDatabase db ((s.databases db).insert key entry), ())
  | .remove db key =>
    some (s.setDatabase db ((s.databases db).erase key), (s.live db key).map (·.value))
  | .unlink db key => some (s.setDatabase db (s.unlinked db key).1, (s.unlinked db key).2)
  | .clear db => some (s.setDatabase db ∅, ())
  | .liveKeys db readClock => some (s, (s.unhidden db readClock).keys)
  | .activeExpireCycle db => some (s.setDatabase db (s.reclaimed db), ())
  | .environment => some (s, env)
  | .len _ db => some (s, (s.databases db).keys.card)
  | .reply _ execute => some (s, execute env)
  | .push request => some ({ s with queue := s.queue ++ [request] }, ())
  | .lockReaders => if s.readersLocked then none else some ({ s with readersLocked := true }, ())
  | .unlockReaders => some ({ s with readersLocked := false }, ())
  | .setWriteClock clock =>
    some ({ s with writeClock := max s.writeClock clock }, max s.writeClock clock)
  | .panic => none
  | .beginScript => some ({ s with interruptFlag := false, running := s.running + 1 }, ())
  | .enterScript params =>
    match lua.getOrCompileScript s.vm params.script with
    | .error error => some (s, .error error)
    | .ok vm => some ({ s with vm := lua.enter vm params }, .ok ())
  | .advanceScript => some ({ s with vm := (lua.advance s.vm).2 }, (lua.advance s.vm).1)
  | .resumeScript reply => some ({ s with vm := lua.resume s.vm reply }, ())
  -- the hook runs inside a script only
  | .interrupted => if 0 < s.running then some (s, s.interruptFlag) else none
  | .endScript finished =>
    some ({ s with interruptFlag := s.interruptFlag || finished, running := s.running - 1 }, ())
  | .runScript _ => none

/-- What other threads do to the state while an entry is applied: the expiry
worker or a lazy read takes out an entry that has expired, and a connection that
asks to interrupt raises the flag. -/
inductive Disturbs : State Vm → State Vm → Prop
  | expire (s : State Vm) (db : Nat) (key : Bytes) : Disturbs s (s.dropExpired db key)
  | interrupt (s : State Vm) : Disturbs s { s with interruptFlag := true }

end
end CacheCat.Cache
