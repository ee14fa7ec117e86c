import CacheCat.Command.Lists

/-! Hash commands. -/
namespace CacheCat

open Parsed

/-- Text that reads as an integer is stored as one, as `SetReq.data` does. -/
def hashValue (value : Bytes) : HashValue :=
  match Text.parseI64Bytes value with
  | some int => .int int
  | none => .str value

/-- Field and value pairs; their number has been checked before. -/
def parseFields : List Value → Parsed (List (Bytes × Bytes))
  | field :: value :: rest => do
      let field ← okOr field.stringBytesClone (.invalidArgument "field")
      let value ← okOr value.stringBytesClone (.invalidArgument "value")
      pure ((field, value) :: (← parseFields rest))
  | _ => pure []

/-! ### Writes -/

structure HSetReq where
  key : Bytes
  elements : List (Bytes × Bytes)
deriving DecidableEq

namespace HSetReq

def parse (items : List Value) : Parsed HSetReq := do
  if items.length < 4 then .error (.wrongArgCount "hset")
  let key ← argument items 1 "key"
  if (items.length - 2) % 2 ≠ 0 then .error (.wrongArgCount "hset")
  pure ⟨key, ← parseFields (items.drop 2)⟩

/-- One round of the loop, with the number of new fields. -/
def insertField (state : HashObject × Nat) (element : Bytes × Bytes) : HashObject × Nat :=
  (state.1.insert element.1 (hashValue element.2),
    if (state.1.lookup element.1).isNone then state.2 + 1 else state.2)

def computeCommand (req : HSetReq) : ComputeCommand :=
  collectionCommand req.key ValueObject.asHash .hash ProtocolError.wrongType.toValue
    (fun _ map =>
      let updated := req.elements.foldl insertField (map, 0)
      (.keep updated.1, .integer updated.2))
    -- a missing key counts the pairs of the request
    (.insert (.new (.hash (req.elements.foldl insertField (∅, 0)).1)) .persistent,
      .integer req.elements.length)

end HSetReq

structure HMSetReq where
  key : Bytes
  fields : List (Bytes × Bytes)
deriving DecidableEq

namespace HMSetReq

def parse (items : List Value) : Parsed HMSetReq := do
  if items.length < 4 || items.length % 2 ≠ 0 then .error (.wrongArgCount "hmset")
  let key ← argument items 1 "key"
  pure ⟨key, ← parseFields (items.drop 2)⟩

/-- Unlike HSET, the values are kept as text. -/
def insertFields (req : HMSetReq) (map : HashObject) : HashObject :=
  req.fields.foldl (fun map field => map.insert field.1 (.str field.2)) map

def computeCommand (req : HMSetReq) : ComputeCommand :=
  collectionCommand req.key ValueObject.asHash .hash ProtocolError.wrongType.toValue
    (fun _ map => (.keep (req.insertFields map), .ok))
    (.insert (.new (.hash (req.insertFields ∅))) .persistent, .ok)

end HMSetReq

structure HSetNxReq where
  key : Bytes
  field : Bytes
  value : Bytes
deriving DecidableEq

namespace HSetNxReq

def parse (items : List Value) : Parsed HSetNxReq := do
  if items.length ≠ 4 then .error (.wrongArgCount "hsetnx")
  let key ← argument items 1 "key"
  let field ← argument items 2 "field"
  let value ← argument items 3 "value"
  pure ⟨key, field, value⟩

def computeCommand (req : HSetNxReq) : ComputeCommand :=
  collectionCommand req.key ValueObject.asHash .hash ProtocolError.wrongType.toValue
    (fun _ map =>
      if (map.lookup req.field).isSome then (.refuse, .integer 0)
      else (.keep (map.insert req.field (hashValue req.value)), .integer 1))
    (.insert (.new (.hash (Finmap.singleton req.field (hashValue req.value)))) .persistent,
      .integer 1)

end HSetNxReq

structure HIncrReq where
  key : Bytes
  field : Bytes
  value : Int
deriving DecidableEq

namespace HIncrReq

def parse (items : List Value) : Parsed HIncrReq := do
  if items.length ≠ 4 then .error (.wrongArgCount "hincrby")
  let key ← argument items 1 "key"
  let field ← argument items 2 "field"
  let increment ← tryParseI64 (item items 3)
  pure ⟨key, field, increment⟩

def computeCommand (req : HIncrReq) : ComputeCommand :=
  collectionCommand req.key ValueObject.asHash .hash ProtocolError.wrongType.toValue
    (fun _ map =>
      match map.lookup req.field with
      | some (.int int) =>
        let sum := Text.wrapI64 (int + req.value)
        (.keep (map.insert req.field (.int sum)), .integer sum)
      | some (.str _) => (.refuse, .error "ERR hash value is not an integer")
      | none => (.keep (map.insert req.field (.int req.value)), .integer req.value))
    (.insert (.new (.hash (Finmap.singleton req.field (.int req.value)))) .persistent,
      .integer req.value)

end HIncrReq

structure HDelReq where
  key : Bytes
  fields : List Bytes
deriving DecidableEq

namespace HDelReq

def parse (items : List Value) : Parsed HDelReq := do
  if items.length < 3 then .error (.wrongArgCount "hdel")
  let key ← argument items 1 "key"
  pure ⟨key, ← restArguments items 2 "field"⟩

def removeField (state : HashObject × Nat) (field : Bytes) : HashObject × Nat :=
  if (state.1.lookup field).isSome then (state.1.erase field, state.2 + 1) else state

def computeCommand (req : HDelReq) : ComputeCommand :=
  collectionCommand req.key ValueObject.asHash .hash ProtocolError.wrongType.toValue
    (fun _ map =>
      let removed := req.fields.foldl removeField (map, 0)
      if removed.2 = 0 then (.refuse, .integer 0)
      else (.keep removed.1, .integer removed.2))
    (.abort, .integer 0)

end HDelReq

/-! ### Reads -/

/-- One field as HGET replies it, and HMGET for each of its fields. -/
def fieldReply (map : HashObject) (field : Bytes) : Value :=
  .bulkString ((map.lookup field).map HashValue.toBytes)

structure HGetParams where
  key : Bytes
  field : Bytes

def HGetParams.parse (items : List Value) : Parsed HGetParams := do
  if items.length < 3 then .error (.wrongArgCount "hget")
  let key ← argument items 1 "key"
  let field ← argument items 2 "field"
  pure ⟨key, field⟩

def HGetParams.execute (params : HGetParams) : Option Entry → Value :=
  readCollection ValueObject.asHash (.bulkString none) fun map => fieldReply map params.field

structure HMGetParams where
  key : Bytes
  fields : List Bytes

def HMGetParams.parse (items : List Value) : Parsed HMGetParams := do
  if items.length < 3 then .error (.wrongArgCount "hmget")
  let key ← argument items 1 "key"
  pure ⟨key, ← restArguments items 2 "field"⟩

def HMGetParams.execute (params : HMGetParams) : Option Entry → Value :=
  readCollection ValueObject.asHash (.bulkString none) fun map =>
    .array (some (params.fields.map (fieldReply map)))

/-- The parser of the commands that take a hash as a whole; further items are
ignored. -/
def parseHashKey (items : List Value) (command : String) : Parsed Bytes := do
  if items.length < 2 then .error (.wrongArgCount command)
  argument items 1 "key"

structure HGetAllParams where
  key : Bytes

def HGetAllParams.parse (items : List Value) : Parsed HGetAllParams := do
  pure ⟨← parseHashKey items "hgetall"⟩

def HGetAllParams.execute (order : HashOrder) : Option Entry → Value :=
  readCollection ValueObject.asHash (.map []) fun map =>
    .map ((order.list map.keys).map fun field => (.bulkString (some field), fieldReply map field))

structure HKeysParams where
  key : Bytes

def HKeysParams.parse (items : List Value) : Parsed HKeysParams := do
  pure ⟨← parseHashKey items "hkeys"⟩

def HKeysParams.execute (order : HashOrder) : Option Entry → Value :=
  readCollection ValueObject.asHash (.array (some [])) fun map => .ofBytesList (order.list map.keys)

structure HValsParams where
  key : Bytes

def HValsParams.parse (items : List Value) : Parsed HValsParams := do
  pure ⟨← parseHashKey items "hvals"⟩

def HValsParams.execute (order : HashOrder) : Option Entry → Value :=
  readCollection ValueObject.asHash (.array (some [])) fun map =>
    .array (some ((order.list map.keys).map (fieldReply map)))

structure HLenParams where
  key : Bytes

def HLenParams.parse (items : List Value) : Parsed HLenParams := do
  pure ⟨← parseHashKey items "hlen"⟩

def HLenParams.execute : Option Entry → Value :=
  readCollection ValueObject.asHash (.integer 0) fun map => .integer map.keys.card

structure HExistsParams where
  key : Bytes
  field : Bytes

def HExistsParams.parse (items : List Value) : Parsed HExistsParams := do
  if items.length < 3 then .error (.wrongArgCount "hexists")
  let key ← argument items 1 "key"
  let field ← argument items 2 "field"
  pure ⟨key, field⟩

def HExistsParams.execute (params : HExistsParams) : Option Entry → Value :=
  readCollection ValueObject.asHash (.integer 0) fun map =>
    .integer (if (map.lookup params.field).isSome then 1 else 0)

end CacheCat
