import CacheCat.Data.SortedSet
import CacheCat.Data.Value
import CacheCat.Mocha.Store
import Mathlib.Data.List.Sort

/-! Stored values. The collections live behind `Arc<Mutex<..>>` and the commands
update them in place before they insert the same handle again; since no handle is
shared between two keys, a collection is modelled by its content. -/
namespace CacheCat

open Mocha (EntrySnapshot ExpirePolicy MochaOperation)

inductive HashValue where
  | str (data : Bytes)
  | int (value : Int)
deriving DecidableEq

def HashValue.toBytes : HashValue → Bytes
  | str data => data
  | int value => Text.intBytes value

/-- The content of a hash, without the order it is iterated in. -/
abbrev HashObject := Finmap fun _ : Bytes => HashValue

inductive ValueObject where
  | int (value : Int)
  | string (data : Bytes)
  | list (items : List Bytes)
  | hash (fields : HashObject)
  | zset (members : SortedSet)
  | set (members : Finset Bytes)
deriving DecidableEq

/-- The version counts the updates during a snapshot. -/
structure MyValue where
  version : Nat
  data : ValueObject
deriving DecidableEq

def MyValue.new (data : ValueObject) : MyValue := ⟨1, data⟩

abbrev Entry := EntrySnapshot MyValue

/-- Every order in which a hash table may list its keys: one listing for each
set of keys. Two nodes, and two tables with the same keys, may differ in it. -/
structure HashOrder where
  list : Finset Bytes → List Bytes
  list_val : ∀ keys, (list keys : Multiset Bytes) = keys.val

namespace HashOrder

variable (order : HashOrder) (keys : Finset Bytes)

theorem mem_list (key : Bytes) : key ∈ order.list keys ↔ key ∈ keys := by
  rw [← Multiset.mem_coe, order.list_val, Finset.mem_val]

theorem length_list : (order.list keys).length = keys.card := by
  rw [← Multiset.coe_card, order.list_val, Finset.card_val]

theorem perm_list (order' : HashOrder) (keys : Finset Bytes) :
    (order.list keys).Perm (order'.list keys) := by
  rw [← Multiset.coe_eq_coe, order.list_val, order'.list_val]

end HashOrder

/-- The order of the keys themselves. -/
def HashOrder.sorted : HashOrder where
  list keys := Quotient.liftOn keys.val (·.insertionSort (· ≤ ·)) fun a b hPerm =>
    ((List.perm_insertionSort _ a).trans (hPerm.trans (List.perm_insertionSort _ b).symm))
      |>.eq_of_pairwise' (List.pairwise_insertionSort _ a) (List.pairwise_insertionSort _ b)
  list_val keys := by
    obtain ⟨keys, _⟩ := keys
    induction keys using Quotient.inductionOn with
    | h keys => exact Quotient.sound (List.perm_insertionSort _ keys)

/-- What a node's surroundings put into the reply of some reads: the physical
clock, the order its hash tables are iterated in, its thread-local random source
(a shuffle of each set and a stream of numbers), what its allocator grants, and
its estimate of a value's size, which counts the capacity of tables. -/
structure Env where
  nowMs : Nat
  order : HashOrder
  shuffle : HashOrder
  draw : Nat → Nat
  reserves : Nat → Bool
  memoryUsage : ValueObject → (samples : Nat) → Nat

/-- A quiet node, at time zero. -/
def Env.quiet : Env where
  nowMs := 0
  order := .sorted
  shuffle := .sorted
  draw _ := 0
  reserves _ := true
  memoryUsage _ _ := 0

/-- A write to one key: how an entry that is there is changed, and what happens
when there is none. -/
structure ComputeCommand where
  key : Bytes
  mutate : Entry → Nat → MochaOperation MyValue × Value
  init : MochaOperation MyValue × Value

/-- A write to one key computed from several others. -/
structure MultiReadComputeCommand where
  writeKey : Bytes
  readKeys : List Bytes
  mutate : List (Option Entry) → Nat → MochaOperation MyValue × Value

/-! ### Equality up to versions

A version only serves the replay of a snapshot's queue, and nodes that differ in
whether they were building a snapshot differ in versions. -/

theorem rel_isSome {A : Type} {r : A → A → Prop} {x y : Option A} (hRel : Option.Rel r x y) :
    x.isSome = y.isSome := by
  cases hRel <;> rfl

/-- A test that does not tell related values apart. -/
theorem rel_filter {A : Type} {r : A → A → Prop} {p : A → Bool} (hTest : ∀ a b, r a b → p a = p b)
    {x y : Option A} (hRel : Option.Rel r x y) : Option.Rel r (x.filter p) (y.filter p) := by
  cases hRel with
  | none => exact .none
  | some h =>
    rw [Option.filter_some, Option.filter_some, hTest _ _ h]
    split
    · exact .some h
    · exact .none

theorem expired_congr {a b : Entry} (hDeadline : a.expireAt = b.expireAt) :
    a.expired = b.expired := by
  funext clock
  rw [Mocha.EntrySnapshot.expired, hDeadline]
  rfl

def Entry.Same (a b : Entry) : Prop :=
  a.value.data = b.value.data ∧ a.expireAt = b.expireAt

/-- Two operations that leave the same data and deadline. -/
inductive SameOperation : MochaOperation MyValue → MochaOperation MyValue → Prop
  | insert {a b : MyValue} (hData : a.data = b.data) (expire : ExpirePolicy) :
      SameOperation (.insert a expire) (.insert b expire)
  | remove : SameOperation .remove .remove
  | abort : SameOperation .abort .abort

theorem SameOperation.insert_version (v w : Nat) (data : ValueObject) (expire : ExpirePolicy) :
    SameOperation (.insert ⟨v, data⟩ expire) (.insert ⟨w, data⟩ expire) := by
  refine .insert ?_ expire
  rfl

theorem SameOperation.refl (operation : MochaOperation MyValue) :
    SameOperation operation operation := by
  cases operation with
  | insert value expire => exact .insert rfl expire
  | remove => exact .remove
  | abort => exact .abort

/-- The command looks at the data and the deadline of an entry only. -/
def ComputeCommand.VersionBlind (command : ComputeCommand) : Prop :=
  ∀ (a b : Entry) (clock : Nat), Entry.Same a b →
    SameOperation (command.mutate a clock).1 (command.mutate b clock).1 ∧
      (command.mutate a clock).2 = (command.mutate b clock).2

/-- The same for a command that reads several entries. -/
def MultiReadComputeCommand.VersionBlind (command : MultiReadComputeCommand) : Prop :=
  ∀ (a b : List (Option Entry)) (clock : Nat), List.Forall₂ (Option.Rel Entry.Same) a b →
    SameOperation (command.mutate a clock).1 (command.mutate b clock).1 ∧
      (command.mutate a clock).2 = (command.mutate b clock).2

/-- It is enough to compare an entry with itself under another version. -/
theorem ComputeCommand.versionBlind_of {command : ComputeCommand}
    (h : ∀ (data : ValueObject) (expireAt : Option Nat) (v w clock : Nat),
      SameOperation (command.mutate ⟨⟨v, data⟩, expireAt⟩ clock).1
          (command.mutate ⟨⟨w, data⟩, expireAt⟩ clock).1 ∧
        (command.mutate ⟨⟨v, data⟩, expireAt⟩ clock).2 =
          (command.mutate ⟨⟨w, data⟩, expireAt⟩ clock).2) : command.VersionBlind := by
  intro a b clock hSame
  obtain ⟨⟨v, data⟩, expireAt⟩ := a
  obtain ⟨⟨w, data'⟩, expireAt'⟩ := b
  obtain ⟨hData, hExpire⟩ := hSame
  cases hData
  cases hExpire
  exact h data expireAt v w clock

/-! ### Updates of a collection -/

/-- What becomes of a collection: a new content, the removal of the key, or nothing. -/
inductive Outcome (Collection : Type) where
  | keep (content : Collection)
  | drop
  | refuse

/-- An updated collection is inserted again under its old version and deadline. -/
def Outcome.operation {Collection : Type} (wrap : Collection → ValueObject) (entry : Entry) :
    Outcome Collection → MochaOperation MyValue
  | .keep content => .insert { entry.value with data := wrap content } entry.getExpirePolicy
  | .drop => .remove
  | .refuse => .abort

/-- The commands on collections look for their own kind of value and update it in
place. -/
def collectionCommand {Collection : Type} (key : Bytes) (view : ValueObject → Option Collection)
    (wrap : Collection → ValueObject) (wrongType : Value)
    (update : Nat → Collection → Outcome Collection × Value)
    (init : MochaOperation MyValue × Value) :
    ComputeCommand where
  key := key
  mutate entry clock :=
    match view entry.value.data with
    | none => (.abort, wrongType)
    | some content =>
      ((update clock content).1.operation wrap entry, (update clock content).2)
  init := init

theorem Outcome.sameOperation {Collection : Type} (wrap : Collection → ValueObject)
    (outcome : Outcome Collection) (data : ValueObject) (expireAt : Option Nat) (v w : Nat) :
    SameOperation (outcome.operation wrap ⟨⟨v, data⟩, expireAt⟩)
      (outcome.operation wrap ⟨⟨w, data⟩, expireAt⟩) := by
  cases outcome with
  | keep content => exact .insert_version ..
  | drop => exact .remove
  | refuse => exact .abort

theorem collectionCommand_versionBlind {Collection : Type} (key : Bytes)
    (view : ValueObject → Option Collection) (wrap : Collection → ValueObject) (wrongType : Value)
    (update : Nat → Collection → Outcome Collection × Value)
    (init : MochaOperation MyValue × Value) :
    (collectionCommand key view wrap wrongType update init).VersionBlind := by
  apply ComputeCommand.versionBlind_of
  intro data expireAt v w clock
  simp only [collectionCommand]
  split
  · exact ⟨.abort, rfl⟩
  · exact ⟨Outcome.sameOperation .., rfl⟩

namespace ValueObject

def asList : ValueObject → Option (List Bytes)
  | .list items => some items
  | _ => none

def asHash : ValueObject → Option HashObject
  | .hash fields => some fields
  | _ => none

theorem asHash_eq_some {data : ValueObject} {fields : HashObject} :
    data.asHash = some fields ↔ data = .hash fields := by
  cases data <;> simp [asHash]

def asZSet : ValueObject → Option SortedSet
  | .zset members => some members
  | _ => none

def asSet : ValueObject → Option (Finset Bytes)
  | .set members => some members
  | _ => none

end ValueObject

/-- A read of one key that expects a certain kind of value. -/
def readCollection {Collection : Type} (view : ValueObject → Option Collection) (missing : Value)
    (reply : Collection → Value) : Option Entry → Value
  | none => missing
  | some entry => (view entry.value.data).elim ProtocolError.wrongType.toValue reply

end CacheCat
