import CacheCat.Data.Value
import Mathlib.Data.Finset.Card

/-! The clients of a node's `PubSub`. Every client with a subscription has a watch channel:
a cell that keeps the latest value written to it, and receivers that notice when it
changes. The two families of functions, for channels and for patterns, are the same code
over different tables. -/
namespace CacheCat.Broadcast

inductive Kind where
  | channel
  | pattern
deriving DecidableEq

structure Subscription where
  kind : Kind
  name : Bytes
deriving DecidableEq

def star : UInt8 := 0x2A

def question : UInt8 := 0x3F

def matchesPattern : (channel pattern : Bytes) → Bool
  | channel, [] => channel.isEmpty
  | channel, c :: pattern =>
    if c = star then
      (List.range (channel.length + 1)).any fun i => matchesPattern (channel.drop i) pattern
    else
      match channel with
      | [] => false
      | first :: channel => (c = question || first = c) && matchesPattern channel pattern

/-- A message on its way to one subscription. The number tells publications apart. -/
structure Message where
  number : Nat
  subscription : Subscription
  channel : Bytes
  payload : Bytes
deriving DecidableEq

/-! ### Watch channels -/

/-- The shared cell of a watch channel; `none` tells the receiver to stop. -/
structure Watch where
  version : Nat
  value : Option Message
  receivers : Nat

def Watch.new : Watch := ⟨0, none, 0⟩

/-- Fails, without an effect, if nobody can receive. -/
def Watch.send (watch : Watch) (value : Option Message) : Option Watch :=
  if watch.receivers = 0 then none else some { watch with version := watch.version + 1, value }

/-- The version a receiver has seen last. -/
structure Receiver where
  watch : Nat
  seen : Nat
deriving DecidableEq

/-! ### Clients -/

/-- `sender`, `subscribed_channels` and `subscribed_patterns`. -/
structure ClientState where
  watch : Nat
  subscribed : Finset Subscription

def pushFrame (kind : String) (target : Option Bytes) (count : Nat) : Value :=
  .push [.bulkString (some (bytes kind)), .bulkString target, .integer count]

def Kind.subscribe : Kind → String
  | channel => "subscribe"
  | pattern => "psubscribe"

def Kind.unsubscribe : Kind → String
  | channel => "unsubscribe"
  | pattern => "punsubscribe"

namespace ClientState

def subTotal (state : ClientState) : Nat := state.subscribed.card

/-- One frame for each name, with the count after it. -/
def subscribeAll (kind : Kind) : ClientState → List Bytes → List Value × ClientState
  | state, [] => ([], state)
  | state, name :: names =>
    let state := { state with subscribed := insert ⟨kind, name⟩ state.subscribed }
    let (frames, last) := subscribeAll kind state names
    (pushFrame kind.subscribe (some name) state.subTotal :: frames, last)

def unsubscribeAll (kind : Kind) : ClientState → List Bytes → List Value × ClientState
  | state, [] => ([], state)
  | state, name :: names =>
    let state := { state with subscribed := state.subscribed.erase ⟨kind, name⟩ }
    let (frames, last) := unsubscribeAll kind state names
    (pushFrame kind.unsubscribe (some name) state.subTotal :: frames, last)

end ClientState

/-- The subscriptions that a command names. -/
def named (kind : Kind) (names : List Bytes) : Finset Subscription :=
  (names.map (Subscription.mk kind)).toFinset

theorem mem_named {kind : Kind} {names : List Bytes} {subscription : Subscription} :
    subscription ∈ named kind names ↔ subscription.kind = kind ∧ subscription.name ∈ names := by
  obtain ⟨kind', name⟩ := subscription
  simp only [named, List.mem_toFinset, List.mem_map, Subscription.mk.injEq]
  grind

theorem ClientState.subscribeAll_state (kind : Kind) (state : ClientState) (names : List Bytes) :
    (state.subscribeAll kind names).2 = ⟨state.watch, state.subscribed ∪ named kind names⟩ := by
  induction names generalizing state with
  | nil => simp [subscribeAll, named]
  | cons name names ih =>
    refine (ih _).trans ?_
    simp [named, Finset.insert_union]

theorem ClientState.unsubscribeAll_state (kind : Kind) (state : ClientState) (names : List Bytes) :
    (state.unsubscribeAll kind names).2 = ⟨state.watch, state.subscribed \ named kind names⟩ := by
  induction names generalizing state with
  | nil => simp [unsubscribeAll, named]
  | cons name names ih =>
    refine (ih _).trans ?_
    congr 1
    ext subscription
    simp [named]
    tauto

/-- What a node keeps for one client: its state in `clients`, if it has one, and the watch
channels that were created for it. -/
structure Slot where
  state : Option ClientState
  watches : Nat → Watch
  created : Nat

namespace Slot

def new : Slot := ⟨none, fun _ => .new, 0⟩

variable (slot : Slot)

def setWatch (id : Nat) (watch : Watch) : Slot :=
  { slot with watches := Function.update slot.watches id watch }

/-- `sender.subscribe()`: what was written before is not news. -/
def subscribeReceiver (id : Nat) : Receiver × Slot :=
  let watch := slot.watches id
  (⟨id, watch.version⟩, slot.setWatch id { watch with receivers := watch.receivers + 1 })

def dropReceiver (receiver : Receiver) : Slot :=
  let watch := slot.watches receiver.watch
  slot.setWatch receiver.watch { watch with receivers := watch.receivers - 1 }

def getOrCreateClient : Receiver × Slot :=
  match slot.state with
  | some state => slot.subscribeReceiver state.watch
  | none =>
    let id := slot.created
    subscribeReceiver { slot.setWatch id .new with state := some ⟨id, ∅⟩, created := id + 1 } id

/-- The client loses its state. The signal to stop overwrites what the receiver has not
seen. -/
def stop : Slot :=
  match slot.state with
  | some state =>
    let watch := slot.watches state.watch
    { slot.setWatch state.watch ((watch.send none).getD watch) with state := none }
  | none => slot

def cleanupClientIfEmpty : Slot :=
  if slot.state.any (·.subscribed = ∅) then slot.stop else slot

variable (kind : Kind) (names : List Bytes)

/-- The end of `subscribe`. -/
def confirmSubscribed : List Value × Slot :=
  match slot.state with
  | some state =>
    let (frames, state) := state.subscribeAll kind names
    (frames, { slot with state := some state })
  | none => ([], slot)

/-- The end of `unsubscribe`. -/
def confirmUnsubscribed : List Value × Slot :=
  match slot.state with
  | some state =>
    let (frames, state) := state.unsubscribeAll kind names
    (frames, cleanupClientIfEmpty { slot with state := some state })
  | none => (names.map fun name => pushFrame kind.unsubscribe (some name) 0, slot)

/-- The end of `unsubscribe_all_channels`, up to the release of the lock. -/
def confirmAllUnsubscribed : List Value × Slot :=
  match slot.state with
  | some state =>
    let (frames, state) := state.unsubscribeAll kind names
    (if frames.isEmpty then [pushFrame kind.unsubscribe none state.subTotal] else frames,
      cleanupClientIfEmpty { slot with state := some state })
  | none => ([], slot)

/-- The names of the client's subscriptions of one kind. -/
def namesOf : Finset Bytes :=
  match slot.state with
  | some state => (state.subscribed.filter (·.kind = kind)).image Subscription.name
  | none => ∅

/-- One `sender.send` of a publication; `none` if the client is not reached. -/
def sendTo (message : Message) : Option Slot := do
  let state ← slot.state
  let watch ← (slot.watches state.watch).send (some message)
  some (slot.setWatch state.watch watch)

end Slot

end CacheCat.Broadcast
