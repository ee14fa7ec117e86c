import CacheCat.Data.HyperLogLog
import CacheCat.Command.Lists

/-! The HyperLogLog commands, which keep their objects in string values. -/
namespace CacheCat

open Parsed

def invalidHll : Value := .error "WRONGTYPE Key is not a valid HyperLogLog string value."
def corruptedHll : Value := .error "INVALIDOBJ Corrupted HLL object detected"

def HllDecodeError.toValue : HllDecodeError → Value
  | .notHll => invalidHll
  | .corrupted => corruptedHll

structure PfAddReq where
  key : Bytes
  elements : List Bytes
deriving DecidableEq

namespace PfAddReq

def parse (items : List Value) : Parsed PfAddReq := do
  if items.length < 2 then .error (.wrongArgCount "PFADD")
  let key ← argument items 1 "key"
  pure ⟨key, ← restArguments items 2 "element"⟩

/-- The loop over the elements, with whether any register grew. -/
def addElements (req : PfAddReq) (hll : RedisHll) : RedisHll × Bool :=
  req.elements.foldl
    (fun state element =>
      let added := state.1.add element
      (added.1, state.2 || added.2))
    (hll, false)

def computeCommand (req : PfAddReq) : ComputeCommand where
  key := req.key
  mutate entry _ :=
    match entry.value.data with
    | .string raw =>
      match RedisHll.validateHeader raw with
      | .error _ => (.abort, invalidHll)
      | .ok _ =>
        if req.elements.isEmpty then (.abort, .integer 0)
        else
          match RedisHll.decode raw with
          | .error error => (.abort, error.toValue)
          | .ok hll =>
            let added := req.addElements hll
            if added.2 then
              (.insert (.new (.string added.1.invalidateCache.intoBytes)) entry.getExpirePolicy,
                .integer 1)
            else (.abort, .integer 0)
    | .int _ => (.abort, invalidHll)
    | _ => (.abort, ProtocolError.wrongType.toValue)
  init :=
    (.insert (.new (.string (req.addElements .new).1.invalidateCache.intoBytes)) .persistent,
      .integer 1)

theorem versionBlind (req : PfAddReq) : req.computeCommand.VersionBlind :=
  ComputeCommand.versionBlind_of fun _ _ _ _ _ => ⟨.refl _, rfl⟩

end PfAddReq

structure PfcountParams where
  keys : List Bytes

namespace PfcountParams

def parse (items : List Value) : Parsed PfcountParams := do
  if items.length < 2 then .error (.wrongArgCount "PFCOUNT")
  pure ⟨← keyArguments items (.invalidArgument "key")⟩

/-- The bytes of a value that may hold an object, or the reply to another one. -/
def rawOf (entry : Entry) : Except Value Bytes :=
  match entry.value.data with
  | .string raw => .ok raw
  | .int _ => .error invalidHll
  | _ => .error ProtocolError.wrongType.toValue

def liftDecode {A : Type} (result : Except HllDecodeError A) : Except Value A :=
  result.mapError HllDecodeError.toValue

/-- One key: the cached cardinality is used when it is marked valid. -/
def single : Option Entry → Except Value Nat
  | none => .ok 0
  | some entry => do
      let raw ← rawOf entry
      match ← liftDecode (RedisHll.cachedCardinality raw) with
      | some cardinality => pure cardinality
      | none => pure (← liftDecode (RedisHll.decode raw)).cardinality

/-- The union of several objects, missing keys left out. -/
def union (hll : RedisHll) : List (Option Entry) → Except Value RedisHll
  | [] => .ok hll
  | none :: rest => union hll rest
  | some entry :: rest => do
      let raw ← rawOf entry
      union (hll.merge (← liftDecode (RedisHll.decode raw))) rest

def execute (params : PfcountParams) (values : List (Option Entry)) : Value :=
  let cardinality :=
    if params.keys.length = 1 then single values.head?.join
    else (union .new values).map RedisHll.cardinality
  match cardinality with
  | .ok cardinality => .integer (Text.wrapI64 cardinality)
  | .error reply => reply

end PfcountParams
end CacheCat
