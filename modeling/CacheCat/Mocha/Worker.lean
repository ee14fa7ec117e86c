import CacheCat.Library.Run
import CacheCat.Mocha.Store
import CacheCat.Mocha.Wheel

/-! The store as a concurrent system: client operations, the expiry worker, the
unbounded command channel between them and the logical clock, which only moves
forward. A label performs one atomic action: one load of the clock, one call of
the map, one send or receive. Every schedule of the threads is a list of labels. -/
namespace CacheCat.Mocha

variable {K V : Type} [DecidableEq K]

/-- `done` names the one-shot channel that the sender of the command waits on. -/
inductive ExpireCommand (K : Type) where
  | schedule (key : K) (expireAt : Nat)
  | scheduleBatch (items : List (TimerItem K))
  | advance
  | advanceAndWait (done : Nat)
  | hasExpiredByLocalClock (now : Nat) (done : Nat)

/-- What the worker still has to do for a command once the wheel has advanced. -/
inductive AfterAdvance (K : Type) where
  | nothing
  | reply (done : Nat)
  | place (items : List (TimerItem K))

/-- Where the worker is. `expiring` is the loop over the items handed to the
callback, `removing` the callback after its load of the clock; `placing` is the
loop over scheduled items under the clock loaded before it. -/
inductive WorkerState (K : Type) where
  | starting
  | idle
  | advancing (next : AfterAdvance K)
  | expiring (items : List (TimerItem K)) (next : AfterAdvance K)
  | removing (item : TimerItem K) (now : Nat) (items : List (TimerItem K)) (next : AfterAdvance K)
  | loading (items : List (TimerItem K))
  | placing (now : Nat) (items : List (TimerItem K))
  | removingPast (item : TimerItem K) (clock now : Nat) (items : List (TimerItem K))

/-- The operations a client calls. -/
inductive StoreCall (K V : Type) where
  | insertEntry (key : K) (value : V) (policy : ExpirePolicy)
  | setExpirePolicy (key : K) (policy : ExpirePolicy)
  | removeEntry (key : K)
  | unlink (key : K)
  | unlinkBatch (keys : List K)
  | clear
  | getEntry (key : K)
  | triggerExpireCycle
  | activeExpireCycleBlocking
  | hasExpiredByLocalClock (now : Nat)
deriving DecidableEq

/-- The operations that write, as opposed to reads and requests to the worker. -/
def StoreCall.writes : StoreCall K V → Bool
  | insertEntry .. | setExpirePolicy .. | removeEntry .. | unlink .. | unlinkBatch ..
    | clear => true
  | _ => false

/-- Where a client thread is: between two atomic actions of its operation. -/
inductive Task (K V : Type) where
  | idle
  | called (call : StoreCall K V)
  | inserting (key : K) (entry : EntrySnapshot V)
  | enqueueing (key : K) (expireAt : Nat)
  | rearming (key : K) (policy : ExpirePolicy) (now : Nat)
  | erasing (key : K) (now : Nat)
  | unlinking (key : K) (now : Nat)
  | unlinkingBatch (now : Nat) (keys : List K) (items : List (TimerItem K))
  | looking (key : K) (now : Nat)
  | removingExpired (key : K) (expiredAt now : Nat)
  | awaiting (done : Nat)
deriving DecidableEq

def Task.writes : Task K V → Bool
  | called call => call.writes
  | inserting .. | enqueueing .. | rearming .. | erasing .. | unlinking ..
    | unlinkingBatch .. => true
  | _ => false

structure Reply where
  done : Nat
  expired : Option Bool
deriving DecidableEq

structure System (K V : Type) where
  map : Table K V
  clock : Nat
  channel : List (ExpireCommand K)
  wheel : HierarchicalTimeWheel K
  worker : WorkerState K
  tasks : Nat → Task K V
  replies : List Reply
  nextDone : Nat

/-- A new store at this clock: the worker thread has not run yet. -/
def System.new (clock : Nat) : System K V where
  map := ∅
  clock := clock
  channel := []
  wheel := .new 0
  worker := .starting
  tasks := fun _ => .idle
  replies := []
  nextDone := 0

inductive Label (K V : Type) where
  | call (thread : Nat) (call : StoreCall K V)
  | client (thread : Nat)
  | worker
  | tick (clock : Nat)

namespace System

def setTask (s : System K V) (thread : Nat) (task : Task K V) : System K V :=
  { s with tasks := Function.update s.tasks thread task }

/-- `enqueue_expiry` after the map was changed: nothing is sent without a deadline. -/
def enqueueTask (key : K) : Option Nat → Task K V
  | some expireAt => .enqueueing key expireAt
  | none => .idle

def send (s : System K V) (command : ExpireCommand K) : System K V :=
  { s with channel := s.channel ++ [command] }

/-- The first atomic action of each operation. -/
def beginCall (s : System K V) (thread : Nat) : StoreCall K V → System K V
  | .insertEntry key value policy =>
    s.setTask thread (.inserting key ⟨value, resolveExpireAt s.clock policy⟩)
  | .setExpirePolicy key policy => s.setTask thread (.rearming key policy s.clock)
  | .removeEntry key => s.setTask thread (.erasing key s.clock)
  | .unlink key => s.setTask thread (.unlinking key s.clock)
  | .unlinkBatch keys => s.setTask thread (.unlinkingBatch s.clock keys [])
  | .clear => { s.setTask thread .idle with map := ∅ }
  | .getEntry key => s.setTask thread (.looking key s.clock)
  | .triggerExpireCycle => (s.send .advance).setTask thread .idle
  | .activeExpireCycleBlocking =>
    { (s.send (.advanceAndWait s.nextDone)).setTask thread (.awaiting s.nextDone) with
      nextDone := s.nextDone + 1 }
  | .hasExpiredByLocalClock now =>
    { (s.send (.hasExpiredByLocalClock now s.nextDone)).setTask thread (.awaiting s.nextDone) with
      nextDone := s.nextDone + 1 }

/-- The next atomic action of a client thread. -/
def clientStep (s : System K V) (thread : Nat) : Option (System K V) :=
  match s.tasks thread with
  | .idle => none
  | .called call => some (s.beginCall thread call)
  | .inserting key entry =>
    some { s.setTask thread (enqueueTask key entry.expireAt) with map := s.map.insert key entry }
  | .enqueueing key expireAt => some ((s.send (.schedule key expireAt)).setTask thread .idle)
  | .rearming key policy now =>
    let result := s.map.setExpirePolicy key policy now s.clock
    some { s.setTask thread (result.2.elim .idle (enqueueTask key)) with map := result.1 }
  | .erasing key _ => some { s.setTask thread .idle with map := s.map.erase key }
  | .unlinking key now =>
    let result := s.map.unlink key now
    some { s.setTask thread (if result.2 then .enqueueing key now else .idle) with
      map := result.1 }
  | .unlinkingBatch now (key :: keys) items =>
    let result := s.map.unlink key now
    some { s.setTask thread
        (.unlinkingBatch now keys (if result.2 then items ++ [⟨key, now⟩] else items)) with
      map := result.1 }
  | .unlinkingBatch _ [] items =>
    some ((if items = [] then s else s.send (.scheduleBatch items)).setTask thread .idle)
  | .looking key now =>
    match s.map.lookup key with
    | some entry =>
      match entry.expireAt with
      | some expireAt =>
        if expireAt ≤ now then some (s.setTask thread (.removingExpired key expireAt now))
        else some (s.setTask thread .idle)
      | none => some (s.setTask thread .idle)
    | none => some (s.setTask thread .idle)
  | .removingExpired key expiredAt now =>
    some { s.setTask thread .idle with map := s.map.removeIfCurrent key expiredAt now }
  | .awaiting done =>
    if s.replies.any (·.done = done) then some (s.setTask thread .idle) else none

/-- `handle_expire_command` up to its first load of the clock. `has_due` only
reads, and its answer is sent at once. -/
def receive (s : System K V) : ExpireCommand K → System K V
  | .schedule key expireAt => { s with worker := .advancing (.place [⟨key, expireAt⟩]) }
  | .scheduleBatch items => { s with worker := .advancing (.place items) }
  | .advance => { s with worker := .advancing .nothing }
  | .advanceAndWait done => { s with worker := .advancing (.reply done) }
  | .hasExpiredByLocalClock now done =>
    let current := fun key expireAt =>
      (s.map.lookup key).any fun entry => entry.expireAt = some expireAt
    { s with replies := ⟨done, some (s.wheel.hasDue now current)⟩ :: s.replies }

/-- The worker after the wheel has advanced and every callback has returned. -/
def finishAdvance (s : System K V) : AfterAdvance K → System K V
  | .nothing => { s with worker := .idle }
  | .reply done => { s with worker := .idle, replies := ⟨done, none⟩ :: s.replies }
  | .place items => { s with worker := .loading items }

/-- The next atomic action of the worker. -/
def workerStep (s : System K V) : Option (System K V) :=
  match s.worker with
  | .starting => some { s with wheel := .new s.clock, worker := .idle }
  | .idle =>
    match s.channel with
    | [] => none
    | command :: rest => some ({ s with channel := rest }.receive command)
  | .advancing next =>
    let result := s.wheel.advanceTo s.clock
    some { s with wheel := result.2, worker := .expiring result.1 next }
  | .expiring [] next => some (s.finishAdvance next)
  | .expiring (item :: items) next => some { s with worker := .removing item s.clock items next }
  | .removing item now items next =>
    some { s with
      map := s.map.removeIfCurrent item.key item.expireAt now
      worker := .expiring items next }
  | .loading items => some { s with worker := .placing s.clock items }
  | .placing _ [] => some { s with worker := .idle }
  | .placing now (item :: items) =>
    if item.expireAt ≤ now then some { s with worker := .removingPast item s.clock now items }
    else some { s with wheel := s.wheel.insert item, worker := .placing now items }
  | .removingPast item clock now items =>
    some { s with
      map := s.map.removeIfCurrent item.key item.expireAt clock
      worker := .placing now items }

def step (s : System K V) : Label K V → Option (System K V)
  | .call thread call =>
    match s.tasks thread with
    | .idle => some (s.setTask thread (.called call))
    | _ => none
  | .client thread => s.clientStep thread
  | .worker => s.workerStep
  | .tick clock => if s.clock ≤ clock then some { s with clock := clock } else none

end System

end CacheCat.Mocha
