import CacheCat.Data.ValueObject

/-! String commands: parameters, parsers, and the effect on one entry. -/
namespace CacheCat

open Mocha (ExpirePolicy MochaOperation)
open Parsed

/-- `NO_EXPIRATION`: a deadline of zero stands for none. -/
def noExpiration : Nat := 0

/-- All items after the name as bytes, or `error` if one of them is no text. -/
def keyArguments (items : List Value) (error : ProtocolError) : Parsed (List Bytes) :=
  let keys := (items.drop 1).map Value.stringBytesClone
  okOr (keys.mapM id) error

/-! ### SET and its relatives -/

inductive Expiration where
  | ex (seconds : Nat)
  | px (millis : Nat)
  | exAt (timestamp : Nat)
  | pxAt (timestamp : Nat)
  | keepTTL
deriving DecidableEq

inductive SetMode where
  | nx
  | xx
deriving DecidableEq

structure SetParams where
  key : Bytes
  value : Bytes
  mode : Option SetMode
  get : Bool
  expiration : Option Expiration

namespace SetParams

/-- An option with an argument; the expiration may be given once. -/
def parseExpiration (params : SetParams) (make : Nat → Expiration) : List Value → Parsed SetParams
  | [] => .error .syntaxError
  | item :: _ => do
      if params.expiration.isSome then .error .syntaxError
      let n ← tryParseU64 item
      pure { params with expiration := some (make n) }

/-- One option word, with the items after it: the parameters it leads to and how
many of those items it takes. -/
def parseOption (params : SetParams) (arg : String) (rest : List Value) :
    Parsed (SetParams × Nat) :=
  let withMode (mode : SetMode) : Parsed (SetParams × Nat) :=
    if params.mode.isSome then .error .syntaxError else .ok ({ params with mode := some mode }, 0)
  let withExpiration (make : Nat → Expiration) : Parsed (SetParams × Nat) :=
    (params.parseExpiration make rest).map (·, 1)
  match arg with
  | "NX" => withMode .nx
  | "XX" => withMode .xx
  | "GET" => .ok ({ params with get := true }, 0)
  | "EX" => withExpiration .ex
  | "PX" => withExpiration .px
  | "EXAT" => withExpiration .exAt
  | "PXAT" => withExpiration .pxAt
  | "KEEPTTL" =>
    if params.expiration.isSome then .error .syntaxError
    else .ok ({ params with expiration := some .keepTTL }, 0)
  | _ => .error .syntaxError

/-- The `while` loop over the options; `skip` items belong to the option before. -/
def parseOptions (params : SetParams) : (skip : Nat) → List Value → Parsed SetParams
  | _, [] => .ok params
  | skip + 1, _ :: rest => parseOptions params skip rest
  | 0, item :: rest => do
      let (params, skip) ← params.parseOption (← word item) rest
      parseOptions params skip rest

def parse (items : List Value) : Parsed SetParams := do
  if items.length < 3 then .error (.wrongArgCount "set")
  let key ← argument items 1 "key"
  let value ← argument items 2 "value"
  parseOptions ⟨key, value, none, false, none⟩ 0 (items.drop 3)

end SetParams

structure SetReq where
  key : Bytes
  value : Bytes
  exTime : Nat
deriving DecidableEq

namespace SetReq

/-- Text that reads as an integer is stored as one. -/
def data (req : SetReq) : ValueObject :=
  match Text.parseI64Bytes req.value with
  | none => .string req.value
  | some v => .int v

def expire (req : SetReq) : ExpirePolicy :=
  if req.exTime = 0 then .persistent else .absolute req.exTime

def computeCommand (req : SetReq) : ComputeCommand where
  key := req.key
  mutate entry _ := (.insert ⟨entry.value.version + 1, req.data⟩ req.expire, .ok)
  init := (.insert ⟨1, req.data⟩ req.expire, .ok)

theorem versionBlind (req : SetReq) : req.computeCommand.VersionBlind := by
  apply ComputeCommand.versionBlind_of
  intro data expireAt v w clock
  exact ⟨.insert_version .., rfl⟩

end SetReq

structure SetNxParams where
  key : Bytes
  value : Bytes

/-- The value is taken from the item of the key. -/
def SetNxParams.parse (items : List Value) : Parsed SetNxParams := do
  if items.length ≠ 3 then .error (.wrongArgCount "setnx")
  let key ← argument items 1 "key"
  let value ← argument items 1 "value"
  pure ⟨key, value⟩

structure SetExParams where
  key : Bytes
  value : Bytes
  expiration : Nat

/-- The value is taken from the item of the key, and the seconds are turned into
milliseconds here as well as when the request is applied. -/
def SetExParams.parse (items : List Value) : Parsed SetExParams := do
  if items.length ≠ 4 then .error (.wrongArgCount "setex")
  let key ← argument items 1 "key"
  let seconds ← tryParseU64 (item items 2)
  let value ← argument items 1 "value"
  pure ⟨key, value, Text.wrapU64 (seconds * 1000)⟩

structure PSetExParams where
  key : Bytes
  value : Bytes
  expiration : Nat

def PSetExParams.parse (items : List Value) : Parsed PSetExParams := do
  if items.length ≠ 4 then .error (.wrongArgCount "psetex")
  let key ← argument items 1 "key"
  let milliseconds ← tryParseU64 (item items 2)
  let value ← argument items 3 "value"
  pure ⟨key, value, milliseconds⟩

structure GetSetParams where
  key : Bytes
  value : Bytes

def GetSetParams.parse (items : List Value) : Parsed GetSetParams := do
  if items.length ≠ 3 then .error (.wrongArgCount "getset")
  let key ← argument items 1 "key"
  let value ← argument items 2 "value"
  pure ⟨key, value⟩

structure MsetParams where
  pairs : List (Bytes × Bytes)

/-- The pairs in the order of the items; the parity has been checked before. -/
def MsetParams.parsePairs : List Value → Parsed (List (Bytes × Bytes))
  | key :: value :: rest => do
      let key ← okOr key.stringBytesClone (.invalidArgument "key")
      let value ← okOr value.stringBytesClone (.invalidArgument "value")
      pure ((key, value) :: (← parsePairs rest))
  | _ => pure []

def MsetParams.parse (items : List Value) : Parsed MsetParams := do
  if items.length < 3 then .error (.wrongArgCount "MSET")
  if (items.length - 1) % 2 ≠ 0 then .error (.wrongArgCount "MSET")
  pure ⟨← parsePairs (items.drop 1)⟩

/-! ### Counters -/

/-- The four counter commands differ in how they step the number and in the
number that a missing key starts with. -/
def counterCommand (key : Bytes) (step : Int → Int) (start : Int) : ComputeCommand where
  key := key
  mutate entry _ :=
    let stepped (n : Int) : MochaOperation MyValue × Value :=
      (.insert (.new (.int (Text.wrapI64 (step n)))) entry.getExpirePolicy,
        .integer (Text.wrapI64 (step n)))
    match entry.value.data with
    | .int n => stepped n
    | .string s =>
      match Text.parseI64Bytes s with
      | none => (.abort, .error "Value is not an integer")
      | some n => stepped n
    | _ => (.abort, .error "Key exists but is not an Integer")
  init :=
    (.insert (.new (.int (Text.wrapI64 start))) .persistent, .integer (Text.wrapI64 start))

theorem counterCommand_versionBlind (key : Bytes) (step : Int → Int) (start : Int) :
    (counterCommand key step start).VersionBlind :=
  ComputeCommand.versionBlind_of fun _ _ _ _ _ => ⟨.refl _, rfl⟩

structure IncrReq where
  key : Bytes
deriving DecidableEq

def IncrReq.parse (items : List Value) : Parsed IncrReq := do
  if items.length ≠ 2 then .error (.wrongArgCount "INCR")
  pure ⟨← argument items 1 "key"⟩

def IncrReq.computeCommand (req : IncrReq) : ComputeCommand := counterCommand req.key (· + 1) 1

structure DecrReq where
  key : Bytes
deriving DecidableEq

def DecrReq.parse (items : List Value) : Parsed DecrReq := do
  if items.length ≠ 2 then .error (.wrongArgCount "DECR")
  pure ⟨← argument items 1 "key"⟩

def DecrReq.computeCommand (req : DecrReq) : ComputeCommand := counterCommand req.key (· - 1) (-1)

structure IncrByReq where
  key : Bytes
  increment : Int
deriving DecidableEq

def IncrByReq.parse (items : List Value) : Parsed IncrByReq := do
  if items.length ≠ 3 then .error (.wrongArgCount "INCR")
  let key ← argument items 1 "key"
  let increment ← okOr (item items 2).parseI64 (.invalidArgument "increment")
  pure ⟨key, increment⟩

def IncrByReq.computeCommand (req : IncrByReq) : ComputeCommand :=
  counterCommand req.key (· + req.increment) req.increment

structure DecrByReq where
  key : Bytes
  decrement : Int
deriving DecidableEq

def DecrByReq.parse (items : List Value) : Parsed DecrByReq := do
  if items.length ≠ 3 then .error (.wrongArgCount "DECRBY")
  let key ← argument items 1 "key"
  let decrement ← okOr (item items 2).parseI64 (.invalidArgument "decrement")
  pure ⟨key, decrement⟩

def DecrByReq.computeCommand (req : DecrByReq) : ComputeCommand :=
  counterCommand req.key (· - req.decrement) (-req.decrement)

/-! ### APPEND -/

structure AppendReq where
  key : Bytes
  value : Bytes
deriving DecidableEq

namespace AppendReq

def parse (items : List Value) : Parsed AppendReq := do
  if items.length ≠ 3 then .error (.wrongArgCount "APPEND")
  let key ← argument items 1 "key"
  let value ← argument items 2 "value"
  pure ⟨key, value⟩

def computeCommand (req : AppendReq) : ComputeCommand where
  key := req.key
  mutate entry _ :=
    match entry.value.data with
    | .string data =>
      let appended := data ++ req.value
      (.insert (.new (.string appended)) entry.getExpirePolicy, .integer appended.length)
    | _ => (.abort, .error "Key exists but is not a String")
  init := (.insert (.new (.string req.value)) .persistent, .integer req.value.length)

theorem versionBlind (req : AppendReq) : req.computeCommand.VersionBlind :=
  ComputeCommand.versionBlind_of fun _ _ _ _ _ => ⟨.refl _, rfl⟩

end AppendReq

/-! ### Reads -/

/-- The text of a string value. -/
def ValueObject.text : ValueObject → Option Bytes
  | .int value => some (Text.intBytes value)
  | .string data => some data
  | _ => none

/-- What GET replies, and MGET for each of its keys. -/
def getReply : Option Entry → Value
  | none => .bulkString none
  | some entry =>
    match entry.value.data.text with
    | some data => .bulkString (some data)
    | none => ProtocolError.wrongType.toValue

structure GetParams where
  key : Bytes

def GetParams.parse (items : List Value) : Parsed GetParams := do
  if items.length ≠ 2 then .error (.wrongArgCount "GET")
  pure ⟨← argument items 1 "key"⟩

structure MgetParams where
  keys : List Bytes

def MgetParams.parse (items : List Value) : Parsed MgetParams := do
  if items.length < 2 then .error (.wrongArgCount "MGET")
  pure ⟨← keyArguments items (.invalidArgument "key")⟩

def MgetParams.execute (values : List (Option Entry)) : Value :=
  .array (some (values.map getReply))

structure StrLenParams where
  key : Bytes

def StrLenParams.parse (items : List Value) : Parsed StrLenParams := do
  if items.length ≠ 2 then .error (.wrongArgCount "STRLEN")
  pure ⟨← argument items 1 "key"⟩

def StrLenParams.execute : Option Entry → Value
  | none => .integer 0
  | some entry =>
    match entry.value.data.text with
    | some data => .integer data.length
    | none => ProtocolError.wrongType.toValue

end CacheCat
