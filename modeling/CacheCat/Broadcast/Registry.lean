import CacheCat.Broadcast.Broker
import CacheCat.Data.ValueObject
import CacheCat.Library.Pool
import Mathlib.Data.Finmap

/-! The tables of `PubSub` as its functions lock them. `subs`, `patterns` and `clients`
have a lock each, which is released before the next one is taken, so a function is a
program of critical sections, and other clients get in between. -/
namespace CacheCat.Broadcast

/-- A map from channels or patterns to the ids of their clients. -/
abbrev Subscribers := Finmap fun _ : Bytes => Finset Nat

namespace Subscribers

def clientsOf (subs : Subscribers) (name : Bytes) : Finset Nat := (subs.lookup name).getD ∅

/-- `subs.entry(name).or_default().insert(client_id)`. -/
def insertClient (subs : Subscribers) (name : Bytes) (client : Nat) : Subscribers :=
  subs.insert name (insert client (subs.clientsOf name))

/-- Drops the set with its last client. -/
def removeClient (subs : Subscribers) (name : Bytes) (client : Nat) : Subscribers :=
  match subs.lookup name with
  | some set => if set.erase client = ∅ then subs.erase name
    else subs.insert name (set.erase client)
  | none => subs

/-- What `retain` leaves of one entry. -/
def remainder (subs : Subscribers) (client : Nat) (name : Bytes) : Option (Finset Nat) :=
  ((subs.lookup name).map (·.erase client)).filter (· ≠ ∅)

def retainOthers (subs : Subscribers) (client : Nat) : Subscribers :=
  Finmap.keysLookupEquiv.symm
    ⟨(subs.keys.filter fun name => (subs.remainder client name).isSome, subs.remainder client), by
      intro name
      rw [Finset.mem_filter]
      refine ⟨fun h => ⟨?_, h⟩, And.right⟩
      rw [Finmap.mem_keys, ← Finmap.lookup_isSome]
      by_contra hNone
      rw [Option.not_isSome_iff_eq_none] at hNone
      simp [remainder, hNone] at h⟩

end Subscribers

structure Registry where
  /-- `subs` and `patterns`. -/
  tables : Kind → Subscribers
  /-- `clients`. -/
  slots : Nat → Slot

/-- The order in which a hash set is visited is any order. -/
def Visits {A : Type} [DecidableEq A] (order : List A) (set : Finset A) : Prop :=
  order.Nodup ∧ order.toFinset = set

instance {A : Type} [DecidableEq A] (order : List A) (set : Finset A) :
    Decidable (Visits order set) :=
  inferInstanceAs (Decidable (_ ∧ _))

namespace Registry

def new : Registry := ⟨fun _ => ∅, fun _ => .new⟩

def clients (registry : Registry) (client : Nat) : Option ClientState :=
  (registry.slots client).state

def setTable (registry : Registry) (kind : Kind) (subs : Subscribers) : Registry :=
  { registry with tables := Function.update registry.tables kind subs }

def setSlot (registry : Registry) (client : Nat) (slot : Slot) : Registry :=
  { registry with slots := Function.update registry.slots client slot }

/-! ### The critical sections -/

/-- A section of `clients` that concerns one client. -/
def atSlot {A : Type} (registry : Registry) (client : Nat) (body : Slot → A × Slot) :
    Registry × A :=
  let (a, slot) := body (registry.slots client)
  (registry.setSlot client slot, a)

def register (registry : Registry) (kind : Kind) (names : List Bytes) (client : Nat) : Registry :=
  registry.setTable kind (names.foldl (·.insertClient · client) (registry.tables kind))

def unregister (registry : Registry) (kind : Kind) (names : List Bytes) (client : Nat) : Registry :=
  registry.setTable kind (names.foldl (·.removeClient · client) (registry.tables kind))

def retainOthers (registry : Registry) (kind : Kind) (client : Nat) : Registry :=
  registry.setTable kind ((registry.tables kind).retainOthers client)

/-- One `sender.send`; the clients that were reached are counted once. -/
def deliver (sent : Finset Nat × Registry) (target : Nat × Message) : Finset Nat × Registry :=
  match (sent.2.slots target.1).sendTo target.2 with
  | some slot => (insert target.1 sent.1, sent.2.setSlot target.1 slot)
  | none => sent

def send (registry : Registry) (messages : List (Nat × Message)) : Finset Nat × Registry :=
  messages.foldl deliver (∅, registry)

/-! ### What `PUBSUB` reports -/

def pubsubChannels (registry : Registry) (order : HashOrder) (pattern : Option Bytes) : Value :=
  .ofBytesList ((order.list (registry.tables .channel).keys).filter fun channel =>
    pattern.all (matchesPattern channel))

def pubsubNumsub (registry : Registry) (channels : List Bytes) : Value :=
  .array (some (channels.flatMap fun channel =>
    [.bulkString (some channel), .integer ((registry.tables .channel).clientsOf channel).card]))

def pubsubNumpat (registry : Registry) : Value :=
  .integer (registry.tables .pattern).keys.card

end Registry

/-- What a function does between taking a lock and releasing it. -/
inductive Section where
  | getOrCreateClient (client : Nat)
  | register (kind : Kind) (names : List Bytes) (client : Nat)
  | confirmSubscribed (kind : Kind) (names : List Bytes) (client : Nat)
  | namesOf (kind : Kind) (client : Nat)
  | unregister (kind : Kind) (names : List Bytes) (client : Nat)
  | confirmUnsubscribed (kind : Kind) (names : List Bytes) (client : Nat)
  | confirmAllUnsubscribed (kind : Kind) (names : List Bytes) (client : Nat)
  | retainOthers (kind : Kind) (client : Nat)
  | dropClient (client : Nat)
  | exactSubs (channel : Bytes)
  | patternTargets (channel : Bytes)
  | send (messages : List (Nat × Message))
  | dropReceiver (client : Nat) (receiver : Receiver)

namespace Section

def Answer : Section → Type
  | getOrCreateClient _ => Receiver
  | register .. | unregister .. | retainOthers .. | dropClient _ | dropReceiver .. => Unit
  | confirmSubscribed .. | confirmUnsubscribed .. | confirmAllUnsubscribed .. => List Value
  | namesOf .. => List Bytes
  | exactSubs _ => List Nat
  | patternTargets _ => List (Bytes × List Nat)
  | send _ => Finset Nat

/-- The orders in which the hash tables are visited. -/
structure Choice where
  names : List Bytes
  clients : List Nat
  targets : List (Bytes × List Nat)

/-- The chosen order is one of all patterns that match, with their clients. -/
def Choice.Targets (choice : Choice) (patterns : Subscribers) (channel : Bytes) : Prop :=
  Visits (choice.targets.map Prod.fst) (patterns.keys.filter (matchesPattern channel ·)) ∧
    ∀ target ∈ choice.targets, Visits target.2 (patterns.clientsOf target.1)

instance (choice : Choice) (patterns : Subscribers) (channel : Bytes) :
    Decidable (choice.Targets patterns channel) :=
  inferInstanceAs (Decidable (_ ∧ _))

def perform (choice : Choice) (registry : Registry) :
    (body : Section) → Option (Registry × body.Answer)
  | getOrCreateClient client => some (registry.atSlot client (·.getOrCreateClient))
  | register kind names client => some (registry.register kind names client, ())
  | confirmSubscribed kind names client =>
    some (registry.atSlot client (·.confirmSubscribed kind names))
  | namesOf kind client =>
    if Visits choice.names ((registry.slots client).namesOf kind) then some (registry, choice.names)
    else none
  | unregister kind names client => some (registry.unregister kind names client, ())
  | confirmUnsubscribed kind names client =>
    some (registry.atSlot client (·.confirmUnsubscribed kind names))
  | confirmAllUnsubscribed kind names client =>
    some (registry.atSlot client (·.confirmAllUnsubscribed kind names))
  | retainOthers kind client => some (registry.retainOthers kind client, ())
  | dropClient client => some (registry.atSlot client fun slot => ((), slot.stop))
  | exactSubs channel =>
    if Visits choice.clients ((registry.tables .channel).clientsOf channel) then
      some (registry, choice.clients)
    else none
  | patternTargets channel =>
    if choice.Targets (registry.tables .pattern) channel then some (registry, choice.targets)
      else none
  | send messages => some (registry.send messages).swap
  | dropReceiver client receiver =>
    some (registry.atSlot client fun slot => ((), slot.dropReceiver receiver))

end Section

/-! ### The functions -/

abbrev Procedure := Library.Program Section Section.Answer

namespace Procedure

def enter (body : Section) : Procedure body.Answer := Library.Program.call body

def subscribeTo (kind : Kind) (names : List Bytes) (client : Nat) : Procedure (Value × Receiver) :=
  do
  let rx ← enter (.getOrCreateClient client)
  enter (.register kind names client)
  let frames ← enter (.confirmSubscribed kind names client)
  pure (.batch frames, rx)

def subscribe : List Bytes → Nat → Procedure (Value × Receiver) := subscribeTo .channel

def psubscribe : List Bytes → Nat → Procedure (Value × Receiver) := subscribeTo .pattern

def unsubscribeFrom (kind : Kind) (names : List Bytes) (client : Nat) : Procedure Value := do
  enter (.unregister kind names client)
  let frames ← enter (.confirmUnsubscribed kind names client)
  pure (.batch frames)

def unsubscribe : List Bytes → Nat → Procedure Value := unsubscribeFrom .channel

def punsubscribe : List Bytes → Nat → Procedure Value := unsubscribeFrom .pattern

def unsubscribeFromAll (kind : Kind) (client : Nat) : Procedure Value := do
  let names ← enter (.namesOf kind client)
  enter (.unregister kind names client)
  let frames ← enter (.confirmAllUnsubscribed kind names client)
  pure (.batch (if frames.isEmpty then [pushFrame kind.unsubscribe none 0] else frames))

def unsubscribeAllChannels : Nat → Procedure Value := unsubscribeFromAll .channel

def punsubscribeAllPatterns : Nat → Procedure Value := unsubscribeFromAll .pattern

def removeClient (client : Nat) : Procedure Unit := do
  enter (.retainOthers .channel client)
  enter (.retainOthers .pattern client)
  enter (.dropClient client)

/-- The number tells the publication apart from others. -/
def publish (number : Nat) (channel payload : Bytes) : Procedure Value := do
  let exactSubs ← enter (.exactSubs channel)
  let targets ← enter (.patternTargets channel)
  let exact := exactSubs.map (·, ⟨number, ⟨.channel, channel⟩, channel, payload⟩)
  let patterned := targets.flatMap fun (pattern, clients) =>
    clients.map (·, ⟨number, ⟨.pattern, pattern⟩, channel, payload⟩)
  let delivered ← enter (.send (exact ++ patterned))
  pure (.integer delivered.card)

end Procedure

/-! ### The commands -/

/-- `SubscribeParams::parse` and `PsubscribeParams::parse`. -/
def subscribeParams (kind : Kind) (items : List Value) : Parsed (List Bytes) := do
  if items.length < 2 then .error (.wrongArgCount kind.subscribe)
  Parsed.okOr ((items.drop 1).mapM Value.stringBytesClone) (.wrongArgCount kind.subscribe)

/-- `UnsubscribeParams::parse` and `PunsubscribeParams::parse`. -/
def unsubscribeParams (kind : Kind) (items : List Value) : Parsed (Option (List Bytes)) :=
  match items with
  -- `items.len() - 1` wraps around
  | [] => .error (.wrongArgCount kind.unsubscribe)
  | [_] => .ok none
  | _ :: names =>
    (Parsed.okOr (names.mapM Value.stringBytesClone) (.wrongArgCount kind.unsubscribe)).map some

inductive Operation where
  | subscribe (kind : Kind) (names : List Bytes)
  | unsubscribe (kind : Kind) (names : List Bytes)
  | unsubscribeAll (kind : Kind)
  | publish (number : Nat) (channel payload : Bytes)
  | dropReceiver (receiver : Receiver)
  | removeClient

/-- The reply, if there is one. The receiver goes to the connection. -/
def Operation.procedure (client : Nat) : Operation → Procedure (Option Value)
  | subscribe .channel names => do
      let result ← Procedure.subscribe names client
      pure (some result.1)
  | subscribe .pattern names => do
      let result ← Procedure.psubscribe names client
      pure (some result.1)
  | unsubscribe .channel names => some <$> Procedure.unsubscribe names client
  | unsubscribe .pattern names => some <$> Procedure.punsubscribe names client
  | unsubscribeAll .channel => some <$> Procedure.unsubscribeAllChannels client
  | unsubscribeAll .pattern => some <$> Procedure.punsubscribeAllPatterns client
  | publish number channel payload => some <$> Procedure.publish number channel payload
  | dropReceiver receiver => do
      Procedure.enter (.dropReceiver client receiver)
      pure none
  | removeClient => do
      Procedure.removeClient client
      pure none

/-- What the task of a connection does next: one of the commands of its client, a
publication, or, after the connection has ended, the removal of the client. -/
inductive Call where
  | subscribe (kind : Kind) (items : List Value)
  | unsubscribe (kind : Kind) (items : List Value)
  | publish (number : Nat) (channel payload : Bytes)
  | dropReceiver (receiver : Receiver)
  | removeClient

namespace Call

def operation : Call → Parsed Operation
  | subscribe kind items => (subscribeParams kind items).map (.subscribe kind)
  | unsubscribe kind items =>
    (unsubscribeParams kind items).map fun names =>
      names.elim (.unsubscribeAll kind) (.unsubscribe kind)
  | publish number channel payload => .ok (.publish number channel payload)
  | dropReceiver receiver => .ok (.dropReceiver receiver)
  | removeClient => .ok .removeClient

def procedure (client : Nat) (call : Call) : Procedure (Parsed (Option Value)) :=
  match call.operation with
  | .error error => pure (.error error)
  | .ok operation => .ok <$> operation.procedure client

end Call
end CacheCat.Broadcast
