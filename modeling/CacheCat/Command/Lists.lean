import CacheCat.Command.Strings

/-! List commands. -/
namespace CacheCat

open Parsed

def notAList : Value := .error "Key exists but is not a List"

/-- The items from `start` on as bytes, or a complaint about the argument `name`. -/
def restArguments (items : List Value) (start : Nat) (name : String) : Parsed (List Bytes) :=
  okOr ((items.drop start).mapM Value.stringBytesClone) (.invalidArgument name)

/-! ### Pushing and popping -/

def pushCommand (key : Bytes) (elements : List Bytes) (push : List Bytes → Bytes → List Bytes) :
    ComputeCommand :=
  collectionCommand key ValueObject.asList .list notAList
    (fun _ list =>
      let pushed := elements.foldl push list
      (.keep pushed, .integer pushed.length))
    -- a missing key gets the elements in the order of the request
    (.insert (.new (.list elements)) .persistent, .integer elements.length)

structure LPushReq where
  key : Bytes
  elements : List Bytes
deriving DecidableEq

def LPushReq.parse (items : List Value) : Parsed LPushReq := do
  if items.length < 3 then .error (.wrongArgCount "lpush")
  let key ← argument items 1 "key"
  pure ⟨key, ← restArguments items 2 "element"⟩

def LPushReq.computeCommand (req : LPushReq) : ComputeCommand :=
  pushCommand req.key req.elements fun list element => element :: list

structure RPushReq where
  key : Bytes
  elements : List Bytes
deriving DecidableEq

def RPushReq.parse (items : List Value) : Parsed RPushReq := do
  if items.length < 3 then .error (.wrongArgCount "rpush")
  let key ← argument items 1 "key"
  pure ⟨key, ← restArguments items 2 "element"⟩

def RPushReq.computeCommand (req : RPushReq) : ComputeCommand :=
  pushCommand req.key req.elements fun list element => list ++ [element]

/-- The optional count of LPOP and RPOP, one by default. -/
def parsePopCount (items : List Value) : Parsed Nat :=
  if items.length = 3 then okOr (item items 2).parseU64 (.invalidArgument "count") else pure 1

/-- LPOP and RPOP take one element whatever the count; a list that is empty or
becomes empty stays. -/
def popCommand (key : Bytes) (popped : List Bytes → Option Bytes)
    (rest : List Bytes → List Bytes) : ComputeCommand :=
  collectionCommand key ValueObject.asList .list notAList
    (fun _ list => (.keep (rest list), .bulkString (popped list)))
    (.abort, .bulkString none)

structure LPopReq where
  key : Bytes
  count : Nat
deriving DecidableEq

def LPopReq.parse (items : List Value) : Parsed LPopReq := do
  if items.length < 2 || 3 < items.length then .error (.wrongArgCount "lpop")
  let key ← argument items 1 "key"
  pure ⟨key, ← parsePopCount items⟩

def LPopReq.computeCommand (req : LPopReq) : ComputeCommand :=
  popCommand req.key List.head? List.tail

structure RPopReq where
  key : Bytes
  count : Nat
deriving DecidableEq

def RPopReq.parse (items : List Value) : Parsed RPopReq := do
  if items.length < 2 || 3 < items.length then .error (.wrongArgCount "rpop")
  let key ← argument items 1 "key"
  pure ⟨key, ← parsePopCount items⟩

def RPopReq.computeCommand (req : RPopReq) : ComputeCommand :=
  popCommand req.key List.getLast? List.dropLast

/-! ### LREM, LSET and LTRIM -/

structure LRemReq where
  key : Bytes
  count : Int
  element : Bytes
deriving DecidableEq

namespace LRemReq

def parse (items : List Value) : Parsed LRemReq := do
  if items.length ≠ 4 then .error (.wrongArgCount "lrem")
  let key ← argument items 1 "key"
  let count ← okOr (item items 2).parseI64 (.invalidArgument "count")
  let element ← argument items 3 "element"
  pure ⟨key, count, element⟩

/-- The loops from the front, with `left` elements from the index `i` on. They stop when
`count` is used up; the one of LREM with zero has no count. -/
def removeForward (element : Bytes) :
    (left i : Nat) → (count : Option Int) → List Bytes → (removed : Nat) → List Bytes × Nat
  | 0, _, _, list, removed => (list, removed)
  | left + 1, i, count, list, removed =>
    if count.any (· ≤ 0) then (list, removed)
    else if list[i]? = some element then
      -- the next element has moved to `i`
      removeForward element left i (count.map (· - 1)) (list.eraseIdx i) (removed + 1)
    else removeForward element left (i + 1) count list removed

/-- The loop from the end, with the elements before the index `i` still to be looked at. -/
def removeBackward (element : Bytes) :
    (i : Nat) → (count : Int) → List Bytes → (removed : Nat) → List Bytes × Nat
  | 0, _, list, removed => (list, removed)
  | i + 1, count, list, removed =>
    if count ≤ 0 then (list, removed)
    else if list[i]? = some element then
      removeBackward element i (count - 1) (list.eraseIdx i) (removed + 1)
    else removeBackward element i count list removed

def removeElements (req : LRemReq) (list : List Bytes) : List Bytes × Nat :=
  if 0 < req.count then removeForward req.element list.length 0 (some req.count) list 0
  else if req.count < 0 then
    -- `-count` of the smallest `i64` is that number again
    removeBackward req.element list.length (Text.wrapI64 (-req.count)) list 0
  else removeForward req.element list.length 0 none list 0

def computeCommand (req : LRemReq) : ComputeCommand :=
  collectionCommand req.key ValueObject.asList .list ProtocolError.wrongType.toValue
    (fun _ list =>
      let (kept, removed) := req.removeElements list
      (.keep kept, .integer removed))
    (.abort, .integer 0)

end LRemReq

/-- An index counted from the end when negative. -/
def fromEnd (len : Nat) (index : Int) : Int :=
  if index < 0 then len + index else index

structure LSetReq where
  key : Bytes
  index : Int
  value : Bytes
deriving DecidableEq

namespace LSetReq

def parse (items : List Value) : Parsed LSetReq := do
  if items.length ≠ 4 then .error (.wrongArgCount "lset")
  let key ← argument items 1 "key"
  let indexText ← argument items 2 "index"
  let index ← okOr (Text.parseI64 (Text.fromUtf8Lossy indexText))
    (.invalidArgument "index must be an integer")
  let value ← argument items 3 "value"
  pure ⟨key, index, value⟩

def computeCommand (req : LSetReq) : ComputeCommand :=
  collectionCommand req.key ValueObject.asList .list ProtocolError.wrongType.toValue
    (fun _ list =>
      let index := fromEnd list.length req.index
      if index < 0 || list.length ≤ index then (.refuse, .error "ERR index out of range")
      else (.keep (list.set index.toNat req.value), .ok))
    (.abort, .error "ERR no such key")

end LSetReq

structure LTrimReq where
  key : Bytes
  start : Int
  stop : Int
deriving DecidableEq

namespace LTrimReq

def parse (items : List Value) : Parsed LTrimReq := do
  if items.length ≠ 4 then .error (.wrongArgCount "ltrim")
  let key ← argument items 1 "key"
  let start ← okOr (item items 2).parseI64 (.invalidArgument "start")
  let stop ← okOr (item items 3).parseI64 (.invalidArgument "stop")
  pure ⟨key, start, stop⟩

def trimmed (req : LTrimReq) (list : List Bytes) : List Bytes :=
  let start := max (fromEnd list.length req.start) 0
  let stop := min (fromEnd list.length req.stop) (list.length - 1)
  if list.isEmpty then list
  else if stop < start then []
  else (list.take (stop.toNat + 1)).drop start.toNat

def computeCommand (req : LTrimReq) : ComputeCommand :=
  collectionCommand req.key ValueObject.asList .list ProtocolError.wrongType.toValue
    (fun _ list => (.keep (req.trimmed list), .ok))
    (.abort, .ok)

end LTrimReq

/-! ### Reads -/

/-- The utility `lrange`. -/
def lrange (list : List Bytes) (start stop : Int) : List Bytes :=
  let start := max (fromEnd list.length start) 0
  let stop := min (fromEnd list.length stop) (list.length - 1)
  if list.isEmpty || stop < start then []
  else (list.drop start.toNat).take (stop - start + 1).toNat

structure LRangeParams where
  key : Bytes
  start : Int
  stop : Int

def LRangeParams.parse (items : List Value) : Parsed LRangeParams := do
  if items.length ≠ 4 then .error (.wrongArgCount "lrange")
  let key ← argument items 1 "key"
  let start ← tryParseI64 (item items 2)
  let stop ← tryParseI64 (item items 3)
  pure ⟨key, start, stop⟩

def LRangeParams.execute (params : LRangeParams) : Option Entry → Value :=
  readCollection ValueObject.asList (.bulkString none) fun list =>
    .ofBytesList (lrange list params.start params.stop)

structure LIndexParams where
  key : Bytes
  index : Int

def LIndexParams.parse (items : List Value) : Parsed LIndexParams := do
  if items.length ≠ 3 then .error (.wrongArgCount "lindex")
  let key ← argument items 1 "key"
  let index ← tryParseI64 (item items 2)
  pure ⟨key, index⟩

def LIndexParams.execute (params : LIndexParams) : Option Entry → Value :=
  readCollection ValueObject.asList (.bulkString none) fun list =>
    let index := fromEnd list.length params.index
    if index < 0 || list.length ≤ index then .bulkString none
    else .bulkString list[index.toNat]?

structure LLenParams where
  key : Bytes

def LLenParams.parse (items : List Value) : Parsed LLenParams := do
  if items.length ≠ 2 then .error (.wrongArgCount "llen")
  pure ⟨← argument items 1 "key"⟩

def LLenParams.execute : Option Entry → Value :=
  readCollection ValueObject.asList (.integer 0) fun list => .integer list.length

end CacheCat
