import CacheCat.Command.Strings

/-! Commands on keys as such: deadlines, removal, renaming, listing. -/
namespace CacheCat

open Mocha (ExpirePolicy)
open Parsed

/-! ### Deadlines -/

inductive ExpireCondition where
  | nx
  | xx
  | gt
  | lt
deriving DecidableEq

/-- The optional fourth item of EXPIRE and PEXPIRE. -/
def ExpireCondition.parse (items : List Value) (command : String) :
    Parsed (Option ExpireCondition) := do
  if items.length < 4 then pure none
  else
    let flag ← okOr (item items 3).asStrLossy (.wrongArgCount command)
    match Text.toUppercase flag with
    | "NX" => pure (some .nx)
    | "XX" => pure (some .xx)
    | "GT" => pure (some .gt)
    | "LT" => pure (some .lt)
    | _ => .error .syntaxError

/-- No deadline counts as infinity. -/
def ExpireCondition.holds (condition : Option ExpireCondition) (current : Option Nat)
    (expiresAt : Nat) : Bool :=
  match condition with
  | none => true
  | some .nx => current.isNone
  | some .xx => current.isSome
  | some .gt => current.any (· < expiresAt)
  | some .lt => current.all (expiresAt < ·)

/-- EXPIRE and PEXPIRE differ in how they turn the argument into a deadline. -/
def expireCommand (key : Bytes) (deadline : Nat → Nat) (condition : Option ExpireCondition) :
    ComputeCommand where
  key := key
  mutate entry clock :=
    if ExpireCondition.holds condition entry.expireAt (deadline clock) then
      (.insert entry.value (.absolute (deadline clock)), .boolean true)
    else (.abort, .boolean false)
  init := (.abort, .boolean false)

theorem expireCommand_versionBlind (key : Bytes) (deadline : Nat → Nat)
    (condition : Option ExpireCondition) : (expireCommand key deadline condition).VersionBlind := by
  apply ComputeCommand.versionBlind_of
  intro data expireAt v w clock
  simp only [expireCommand]
  split
  · exact ⟨.insert_version .., rfl⟩
  · exact ⟨.abort, rfl⟩

structure ExpireReq where
  key : Bytes
  expiresAt : Nat
  condition : Option ExpireCondition
deriving DecidableEq

def ExpireReq.parse (items : List Value) : Parsed ExpireReq := do
  if items.length < 3 then .error (.wrongArgCount "expire")
  let key ← argument items 1 "key"
  let seconds ← tryParseU64 (item items 2)
  let condition ← ExpireCondition.parse items "expire"
  pure ⟨key, seconds, condition⟩

def ExpireReq.computeCommand (req : ExpireReq) : ComputeCommand :=
  expireCommand req.key (fun clock => Text.wrapU64 (req.expiresAt * 1000 + clock)) req.condition

structure PExpireReq where
  key : Bytes
  expiresAt : Nat
  condition : Option ExpireCondition
deriving DecidableEq

def PExpireReq.parse (items : List Value) : Parsed PExpireReq := do
  if items.length < 3 then .error (.wrongArgCount "pexpire")
  let key ← argument items 1 "key"
  let milliseconds ← tryParseU64 (item items 2)
  let condition ← ExpireCondition.parse items "pexpire"
  pure ⟨key, milliseconds, condition⟩

def PExpireReq.computeCommand (req : PExpireReq) : ComputeCommand :=
  expireCommand req.key (fun clock => Text.wrapU64 (req.expiresAt + clock)) req.condition

structure PersistReq where
  key : Bytes
deriving DecidableEq

namespace PersistReq

def parse (items : List Value) : Parsed PersistReq := do
  if items.length ≠ 2 then .error (.wrongArgCount "persist")
  pure ⟨← argument items 1 "key"⟩

def computeCommand (req : PersistReq) : ComputeCommand where
  key := req.key
  mutate entry _ :=
    if entry.expireAt.isNone then (.abort, .boolean false)
    else (.insert entry.value .persistent, .boolean true)
  init := (.abort, .boolean false)

theorem versionBlind (req : PersistReq) : req.computeCommand.VersionBlind := by
  apply ComputeCommand.versionBlind_of
  intro data expireAt v w clock
  simp only [computeCommand]
  split
  · exact ⟨.abort, rfl⟩
  · exact ⟨.insert_version .., rfl⟩

end PersistReq

/-! ### Removal and renaming -/

/-- The insert that RENAME and the *STORE commands make; zero is no deadline. -/
structure InsertReq where
  key : Bytes
  value : ValueObject
  expiresAt : Nat
deriving DecidableEq

namespace InsertReq

def expire (req : InsertReq) : ExpirePolicy :=
  if req.expiresAt = 0 then .persistent else .absolute req.expiresAt

def computeCommand (req : InsertReq) : ComputeCommand where
  key := req.key
  mutate entry _ := (.insert ⟨entry.value.version + 1, req.value⟩ req.expire, .ok)
  init := (.insert ⟨1, req.value⟩ req.expire, .ok)

theorem versionBlind (req : InsertReq) : req.computeCommand.VersionBlind := by
  apply ComputeCommand.versionBlind_of
  intro data expireAt v w clock
  exact ⟨.insert_version .., rfl⟩

end InsertReq

structure DelReq where
  key : Bytes
deriving DecidableEq

structure DelParams where
  keys : List Bytes

def DelParams.parse (items : List Value) : Parsed DelParams := do
  if items.length < 2 then .error (.wrongArgCount "del")
  pure ⟨← keyArguments items (.wrongArgCount "del")⟩

structure UnlinkReq where
  key : Bytes
deriving DecidableEq

structure UnlinkParams where
  keys : List Bytes

def UnlinkParams.parse (items : List Value) : Parsed UnlinkParams := do
  if items.length < 2 then .error (.wrongArgCount "unlink")
  pure ⟨← keyArguments items (.wrongArgCount "unlink")⟩

structure RenameParams where
  key : Bytes
  newKey : Bytes

def RenameParams.parse (items : List Value) : Parsed RenameParams := do
  if items.length ≠ 3 then .error (.wrongArgCount "rename")
  let key ← argument items 1 "rename"
  let newKey ← argument items 2 "rename"
  pure ⟨key, newKey⟩

structure RenameNxParams where
  key : Bytes
  newKey : Bytes

def RenameNxParams.parse (items : List Value) : Parsed RenameNxParams := do
  if items.length ≠ 3 then .error (.wrongArgCount "renamenx")
  let key ← argument items 1 "renamenx"
  let newKey ← argument items 2 "renamenx"
  pure ⟨key, newKey⟩

/-- The optional second item of the two flush commands. -/
def parseAsyncMode (items : List Value) (command : String) : Parsed Bool := do
  if items.isEmpty || 2 < items.length then .error (.wrongArgCount command)
  if items.length = 2 then
    let arg ← okOr (item items 1).stringBytesClone .syntaxError
    match Text.toUppercase (Text.fromUtf8Lossy arg) with
    | "ASYNC" => pure true
    | "SYNC" => pure false
    | _ => .error .syntaxError
  else pure false

structure FlushDBReq where
  asyncMode : Bool
deriving DecidableEq

def FlushDBReq.parse (items : List Value) : Parsed FlushDBReq := do
  pure ⟨← parseAsyncMode items "flushdb"⟩

structure FlushAllReq where
  asyncMode : Bool
deriving DecidableEq

def FlushAllReq.parse (items : List Value) : Parsed FlushAllReq := do
  pure ⟨← parseAsyncMode items "flushall"⟩

/-! ### Reads -/

structure ExistsParams where
  keys : List Bytes

def ExistsParams.parse (items : List Value) : Parsed ExistsParams := do
  if items.length < 2 then .error (.wrongArgCount "exists")
  pure ⟨← keyArguments items (.wrongArgCount "exists")⟩

def ExistsParams.execute (values : List (Option Entry)) : Value :=
  .integer (values.countP Option.isSome)

structure TtlParams where
  key : Bytes

def TtlParams.parse (items : List Value) : Parsed TtlParams := do
  if items.length ≠ 2 then .error (.wrongArgCount "ttl")
  pure ⟨← argument items 1 "key"⟩

/-- `expire_at - now` of `u64`, which wraps when the deadline lies before `now`. -/
def remaining (expireAt now : Nat) : Nat :=
  Text.wrapU64 (expireAt + 2 ^ 64 - now)

/-- `as i64`. -/
def asI64 (value : Nat) : Int := Text.wrapI64 value

/-- The time left is measured from the physical clock of the node. -/
def TtlParams.execute (nowMs : Nat) : Option Entry → Value
  | none => .integer (-2)
  | some entry =>
    match entry.expireAt with
    | none => .integer (-1)
    | some expireAt => .integer (asI64 ((remaining expireAt nowMs + 999) / 1000))

structure PTtlParams where
  key : Bytes

def PTtlParams.parse (items : List Value) : Parsed PTtlParams := do
  if items.length ≠ 2 then .error (.wrongArgCount "pttl")
  pure ⟨← argument items 1 "key"⟩

def PTtlParams.execute (nowMs : Nat) : Option Entry → Value
  | none => .integer (-2)
  | some entry =>
    match entry.expireAt with
    | none => .integer (-1)
    | some expireAt => .integer (asI64 (remaining expireAt nowMs))

structure TypeParams where
  key : Bytes

def TypeParams.parse (items : List Value) : Parsed TypeParams := do
  if items.length ≠ 2 then .error (.wrongArgCount "type")
  pure ⟨← argument items 1 "key"⟩

def ValueObject.typeString : ValueObject → String
  | .string _ => "string"
  | .int _ => "string"
  | .list _ => "list"
  | .set _ => "set"
  | .zset _ => "zset"
  | .hash _ => "hash"

def TypeParams.execute : Option Entry → Value
  | none => .simpleString "none"
  | some entry => .simpleString entry.value.data.typeString

structure KeysParams where
  pattern : Bytes

def KeysParams.parse (items : List Value) : Parsed KeysParams := do
  if items.length ≠ 2 then .error (.wrongArgCount "KEYS")
  pure ⟨← argument items 1 "pattern"⟩

structure DbsizeParams where
  keys : List Bytes

def DbsizeParams.parse (items : List Value) : Parsed DbsizeParams := do
  if items.length ≠ 1 then .error (.wrongArgCount "DBSIZE")
  pure ⟨[]⟩

/-- `eq_ignore_ascii_case` with an upper case word. -/
def isWord (data : Bytes) (upper : String) : Bool :=
  data.map (fun b => if 97 ≤ b && b ≤ 122 then b - 32 else b) = bytes upper

structure MemoryUsageParams where
  key : Bytes
  samples : Nat

namespace MemoryUsageParams

def parse (items : List Value) : Parsed MemoryUsageParams := do
  if items.length ≠ 3 ∧ items.length ≠ 5 then .error (.wrongArgCount "MEMORY USAGE")
  let memory ← argument items 0 "command"
  if !isWord memory "MEMORY" then .error (.invalidArgument "command")
  let usage ← argument items 1 "subcommand"
  if !isWord usage "USAGE" then .error (.invalidArgument "subcommand")
  let key ← argument items 2 "key"
  if items.length = 3 then pure ⟨key, 5⟩
  else
    let keyword ← argument items 3 "samples"
    if !isWord keyword "SAMPLES" then .error (.invalidArgument "samples")
    let data ← argument items 4 "samples"
    let text ← okOr (Text.fromUtf8 data) (.invalidArgument "samples")
    let samples ← okOr (Text.parseU64 text) (.invalidArgument "samples")
    pure ⟨key, samples⟩

/-- The estimate of the value and the length of the key, at most the largest `i64`. -/
def execute (params : MemoryUsageParams) (env : Env) : Option Entry → Value
  | none => .bulkString none
  | some entry =>
    .integer (min ((env.memoryUsage entry.value.data params.samples + params.key.length : Nat) :
      Int) Text.i64Max)

end MemoryUsageParams
end CacheCat
