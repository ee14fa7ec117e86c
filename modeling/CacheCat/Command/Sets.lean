import CacheCat.Command.Lists

/-! Set commands. -/
namespace CacheCat

open Parsed

def notASet : Value :=
  (ProtocolError.invalidArgument "There is a value that is not a set").toValue

/-- The reply of the commands that return a set, in the order of iteration. -/
def setReply (order : HashOrder) (members : Finset Bytes) : Value :=
  .set ((order.list members).map fun member => .bulkString (some member))

/-! ### SADD and SREM -/

structure SAddReq where
  key : Bytes
  elements : List Bytes
deriving DecidableEq

namespace SAddReq

def parse (items : List Value) : Parsed SAddReq := do
  if items.length < 3 then .error (.wrongArgCount "sadd")
  let key ← argument items 1 "key"
  pure ⟨key, ← restArguments items 2 "member"⟩

/-- One round of the loop, with the number of new members. -/
def insertMember (state : Finset Bytes × Nat) (member : Bytes) : Finset Bytes × Nat :=
  (insert member state.1, if member ∈ state.1 then state.2 else state.2 + 1)

def computeCommand (req : SAddReq) : ComputeCommand :=
  collectionCommand req.key ValueObject.asSet .set ProtocolError.wrongType.toValue
    (fun _ set =>
      let updated := req.elements.foldl insertMember (set, 0)
      (.keep updated.1, .integer updated.2))
    -- a missing key counts the elements of the request
    (.insert (.new (.set (req.elements.foldl insertMember (∅, 0)).1)) .persistent,
      .integer req.elements.length)

instance : RightCommutative insertMember where
  right_comm state a b := by
    by_cases hEq : a = b
    · rw [hEq]
    · have hEq' : b ≠ a := fun h => hEq h.symm
      simp only [insertMember, Finset.mem_insert, hEq, hEq', false_or, Finset.insert_comm a b]
      split_ifs <;> rfl

/-- The order of the elements does not matter. -/
theorem computeCommand_perm (key : Bytes) {elements elements' : List Bytes}
    (hPerm : elements.Perm elements') :
    computeCommand ⟨key, elements⟩ = computeCommand ⟨key, elements'⟩ := by
  have hFold (state : Finset Bytes × Nat) :
      elements.foldl insertMember state = elements'.foldl insertMember state :=
    hPerm.foldl_eq state
  simp only [computeCommand, hFold, hPerm.length_eq]

end SAddReq

structure SRemReq where
  key : Bytes
  members : List Bytes
deriving DecidableEq

namespace SRemReq

def parse (items : List Value) : Parsed SRemReq := do
  if items.length < 3 then .error (.wrongArgCount "srem")
  let key ← argument items 1 "key"
  pure ⟨key, ← restArguments items 2 "member"⟩

def removeMember (state : Finset Bytes × Nat) (member : Bytes) : Finset Bytes × Nat :=
  (state.1.erase member, if member ∈ state.1 then state.2 + 1 else state.2)

def computeCommand (req : SRemReq) : ComputeCommand :=
  collectionCommand req.key ValueObject.asSet .set ProtocolError.wrongType.toValue
    (fun _ set =>
      let removed := req.members.foldl removeMember (set, 0)
      if removed.2 = 0 then (.keep removed.1, .integer 0)
      else if removed.1 = ∅ then (.drop, .integer removed.2)
      else (.keep removed.1, .integer removed.2))
    (.abort, .integer 0)

end SRemReq

/-! ### SPOP -/

/-- `DeterministicRng::next_u64`, with the state afterwards. -/
def nextU64 (state : UInt64) : UInt64 × UInt64 :=
  let state := state + 0x9E3779B97F4A7C15
  let value := (state ^^^ (state >>> 30)) * 0xBF58476D1CE4E5B9
  let value := (value ^^^ (value >>> 27)) * 0x94D049BB133111EB
  (value ^^^ (value >>> 31), state)

/-- `next_index`: the high word of the product with the bound. -/
def scaleIndex (random : UInt64) (upperBound : Nat) : Nat :=
  random.toNat * upperBound / 2 ^ 64

/-- `Vec::swap_remove`: the last element takes the place of the removed one. -/
def swapRemove (candidates : List Bytes) (index : Nat) : List Bytes :=
  (candidates.set index (candidates.getLastD [])).dropLast

structure SPopReq where
  key : Bytes
  count : Option Nat
deriving DecidableEq

namespace SPopReq

def parseCount (item : Value) : Parsed Nat := do
  let data ← okOr item.stringBytesClone (.invalidArgument "count")
  let text ← okOr (Text.fromUtf8 data) (.invalidArgument "count")
  let count ← okOr (Text.parseI64 text) (.invalidArgument "count")
  if count < 0 then .error (.invalidArgument "count") else pure count.toNat

def parse (items : List Value) : Parsed SPopReq := do
  if items.length ≠ 2 ∧ items.length ≠ 3 then .error (.wrongArgCount "spop")
  let key ← argument items 1 "key"
  if items.length = 3 then pure ⟨key, some (← parseCount (item items 2))⟩
  else pure ⟨key, none⟩

def randomSeed (req : SPopReq) (writeClock : Nat) : UInt64 :=
  let hash := req.key.foldl (fun hash byte => (hash ^^^ byte.toUInt64) * 0x100000001B3)
    0xCBF29CE484222325
  let clock := UInt64.ofNat writeClock
  hash ^^^ ((clock <<< 17) ||| (clock >>> 47)) ^^^ 0xA0761D6478BD642F

def missingKeyResponse (req : SPopReq) : Value :=
  match req.count with
  | none => .bulkString none
  | some _ => .set []

def poppedResponse (req : SPopReq) (members : List Bytes) : Value :=
  match req.count with
  | none => .bulkString members.head?
  | some _ => .set (members.map fun member => .bulkString (some member))

/-- The partial shuffle: `count` members in the order they are drawn. -/
def popMembers : (count : Nat) → UInt64 → List Bytes → List Bytes
  | 0, _, _ => []
  | count + 1, state, candidates =>
    let next := nextU64 state
    let index := scaleIndex next.1 candidates.length
    candidates.getD index [] :: popMembers count next.2 (swapRemove candidates index)

/-- The candidates are sorted before any of them is drawn, because the order in
which the table lists them differs between nodes. -/
def popped (req : SPopReq) (order : HashOrder) (writeClock : Nat) (set : Finset Bytes) :
    List Bytes :=
  let popCount := match req.count with
    | none => 1
    | some count => min count set.card
  popMembers popCount (req.randomSeed writeClock)
    ((order.list set).insertionSort (· ≤ ·))

def computeCommand (order : HashOrder) (req : SPopReq) : ComputeCommand :=
  collectionCommand req.key ValueObject.asSet .set ProtocolError.wrongType.toValue
    (fun clock set =>
      if req.count = some 0 then (.refuse, .set [])
      else if set = ∅ then (.drop, req.missingKeyResponse)
      else
        let popped := req.popped order clock set
        let rest := set \ popped.toFinset
        (if rest = ∅ then .drop else .keep rest, req.poppedResponse popped))
    (.abort, req.missingKeyResponse)

/-- Sorting removes the order of iteration. -/
theorem popped_order (req : SPopReq) (order order' : HashOrder) (clock : Nat) (set : Finset Bytes) :
    req.popped order clock set = req.popped order' clock set := by
  have hPerm : ((order.list set).insertionSort (· ≤ ·)).Perm
      ((order'.list set).insertionSort (· ≤ ·)) :=
    (List.perm_insertionSort _ _).trans
      ((order.perm_list order' set).trans (List.perm_insertionSort _ _).symm)
  have hSorted : (order.list set).insertionSort (· ≤ ·) =
      (order'.list set).insertionSort (· ≤ ·) :=
    hPerm.eq_of_pairwise' (List.pairwise_insertionSort _ _) (List.pairwise_insertionSort _ _)
  simp only [popped, hSorted]

theorem computeCommand_order (req : SPopReq) (order order' : HashOrder) :
    req.computeCommand order = req.computeCommand order' := by
  simp only [computeCommand, popped_order req order order']

end SPopReq

/-! ### Stored combinations -/

/-- The parser of the *STORE commands: the target and the sources. -/
def parseStore (items : List Value) (command : String) : Parsed (Bytes × List Bytes) := do
  if items.length < 3 then .error (.wrongArgCount command)
  let key ← argument items 1 "key"
  pure (key, ← restArguments items 2 "key")

structure SInterStoreReq where
  key : Bytes
  keys : List Bytes
deriving DecidableEq

namespace SInterStoreReq

def parse (items : List Value) : Parsed SInterStoreReq := do
  let (key, keys) ← parseStore items "SINTERSTORE"
  pure ⟨key, keys⟩

/-- The loop over the sources: `none` as soon as one is not a set; a missing
source ends the loop with the empty set. -/
def intersect (intersection : Option (Finset Bytes)) : List (Option Entry) → Option (Finset Bytes)
  | [] => some (intersection.getD ∅)
  | none :: _ => some ∅
  | some entry :: rest =>
    match entry.value.data.asSet with
    | none => none
    | some set => intersect (some (intersection.elim set (· ∩ set))) rest

def computeCommand (req : SInterStoreReq) : MultiReadComputeCommand where
  writeKey := req.key
  readKeys := req.keys
  mutate entries _ :=
    match intersect none entries with
    | none => (.abort, ProtocolError.wrongType.toValue)
    | some result =>
      if result = ∅ then (.remove, .integer 0)
      else (.insert (.new (.set result)) .persistent, .integer result.card)

theorem intersect_same {a b : List (Option Entry)} (h : List.Forall₂ (Option.Rel Entry.Same) a b)
    (intersection : Option (Finset Bytes)) :
    intersect intersection a = intersect intersection b := by
  induction h generalizing intersection with
  | nil => rfl
  | cons hHead _ ih =>
    cases hHead with
    | none => rfl
    | some hSame => simp only [intersect, hSame.1, ih]

theorem versionBlind (req : SInterStoreReq) : req.computeCommand.VersionBlind := by
  intro a b clock hSame
  simp only [computeCommand, intersect_same hSame]
  exact ⟨.refl _, trivial⟩

end SInterStoreReq

structure SUnionStoreParams where
  key : Bytes
  keys : List Bytes

def SUnionStoreParams.parse (items : List Value) : Parsed SUnionStoreParams := do
  let (key, keys) ← parseStore items "SUNIONSTORE"
  pure ⟨key, keys⟩

structure SDiffStoreParams where
  key : Bytes
  keys : List Bytes

def SDiffStoreParams.parse (items : List Value) : Parsed SDiffStoreParams := do
  let (key, keys) ← parseStore items "SDIFFSTORE"
  pure ⟨key, keys⟩

/-! ### Reads -/

/-- The parser of the commands that combine sets. -/
def parseSetKeys (items : List Value) (command : String) : Parsed (List Bytes) := do
  if items.length < 2 then .error (.wrongArgCount command)
  keyArguments items (.invalidArgument "key")

structure SUnionParams where
  keys : List Bytes

def SUnionParams.parse (items : List Value) : Parsed SUnionParams := do
  pure ⟨← parseSetKeys items "SUNION"⟩

/-- The union of the sources, missing ones left out; `none` if one is not a set. -/
def unionOf (entries : List (Option Entry)) : Option (Finset Bytes) :=
  entries.foldlM
    (fun results entry => entry.elim (some results) fun entry =>
      (entry.value.data.asSet).map (results ∪ ·))
    ∅

def SUnionParams.execute (order : HashOrder) (values : List (Option Entry)) : Value :=
  (unionOf values).elim notASet (setReply order)

structure SInterParams where
  keys : List Bytes

def SInterParams.parse (items : List Value) : Parsed SInterParams := do
  pure ⟨← parseSetKeys items "SINTER"⟩

/-- Unlike SINTERSTORE, the loop goes on after a missing source, so that a later
source that is not a set is noticed. -/
def SInterParams.intersect (results : Option (Finset Bytes)) :
    List (Option Entry) → Option (Finset Bytes)
  | [] => some (results.getD ∅)
  | none :: rest => intersect (some ∅) rest
  | some entry :: rest =>
    match entry.value.data.asSet with
    | none => none
    | some set => intersect (some (results.elim set (· ∩ set))) rest

def SInterParams.execute (order : HashOrder) (values : List (Option Entry)) : Value :=
  (intersect none values).elim notASet (setReply order)

structure SDiffParams where
  keys : List Bytes

def SDiffParams.parse (items : List Value) : Parsed SDiffParams := do
  pure ⟨← parseSetKeys items "SDIFF"⟩

/-- One more source is taken off; a missing one changes nothing. -/
def subtract (results : Finset Bytes) (entry : Option Entry) : Option (Finset Bytes) :=
  entry.elim (some results) fun entry => (entry.value.data.asSet).map (results \ ·)

/-- The first source without the members of the others; a missing first source
counts as empty, but the others are still checked. -/
def differenceOf (first : Option Entry) (others : List (Option Entry)) : Option (Finset Bytes) := do
  let results ← first.elim (some ∅) fun entry => entry.value.data.asSet
  others.foldlM subtract results

def SDiffParams.execute (order : HashOrder) : List (Option Entry) → Value
  | [] => (ProtocolError.wrongArgCount "wrong number of arguments for command").toValue
  | first :: others => (differenceOf first others).elim notASet (setReply order)

structure SCardParams where
  key : Bytes

def SCardParams.parse (items : List Value) : Parsed SCardParams := do
  if items.length ≠ 2 then .error (.wrongArgCount "scard")
  pure ⟨← argument items 1 "key"⟩

def SCardParams.execute : Option Entry → Value :=
  readCollection ValueObject.asSet (.integer 0) fun set => .integer set.card

structure SIsMemberParams where
  key : Bytes
  member : Bytes

def SIsMemberParams.parse (items : List Value) : Parsed SIsMemberParams := do
  if items.length ≠ 3 then .error (.wrongArgCount "sismember")
  let key ← argument items 1 "key"
  let member ← argument items 2 "member"
  pure ⟨key, member⟩

def SIsMemberParams.execute (params : SIsMemberParams) : Option Entry → Value :=
  readCollection ValueObject.asSet (.integer 0) fun set =>
    .integer (if params.member ∈ set then 1 else 0)

structure SMembersParams where
  key : Bytes

def SMembersParams.parse (items : List Value) : Parsed SMembersParams := do
  if items.length ≠ 2 then .error (.wrongArgCount "smembers")
  pure ⟨← argument items 1 "key"⟩

def SMembersParams.execute (order : HashOrder) : Option Entry → Value :=
  readCollection ValueObject.asSet (.set []) (setReply order)

structure SRandMemberParams where
  key : Bytes
  count : Option Int

namespace SRandMemberParams

def parse (items : List Value) : Parsed SRandMemberParams := do
  if items.length ≠ 2 ∧ items.length ≠ 3 then .error (.wrongArgCount "srandmember")
  let key ← argument items 1 "key"
  if items.length = 3 then
    let data ← argument items 2 "count"
    let text ← okOr (Text.fromUtf8 data) (.invalidArgument "count")
    let count ← okOr (Text.parseI64 text) (.invalidArgument "count")
    pure ⟨key, some count⟩
  else pure ⟨key, none⟩

def emptyResult (params : SRandMemberParams) : Value :=
  match params.count with
  | none => .bulkString none
  | some _ => .array (some [])

/-- Members with repetition, one for each number drawn. -/
def drawMembers (env : Env) (members : List Bytes) (requested : Nat) : List Bytes :=
  (List.range requested).map fun i => members.getD (env.draw i % members.length) []

def execute (params : SRandMemberParams) (env : Env) : Option Entry → Value :=
  readCollection ValueObject.asSet params.emptyResult fun set =>
    if set = ∅ then params.emptyResult
    else
      match params.count with
      | none => .bulkString (env.shuffle.list set).head?
      | some count =>
        if 0 ≤ count then .ofBytesList ((env.shuffle.list set).take count.toNat)
        else if count = Text.i64Min then .error "ERR value is out of range, must be positive"
        else if env.reserves count.natAbs then
          .ofBytesList (drawMembers env (env.order.list set) count.natAbs)
        else .error "ERR count is too large"

end SRandMemberParams
end CacheCat
