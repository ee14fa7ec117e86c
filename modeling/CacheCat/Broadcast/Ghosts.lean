import CacheCat.Broadcast.Consistency

/-! How the task of a connection ends, and what it leaves in the tables. An error goes out
through the loops with `?`, and past the removal of the client. -/
namespace CacheCat.Broadcast

open Library (Pool Reachable)

inductive Exit where
  | closed
  | quit
  | readError
  | writeError
  /-- A command that is not understood, while the client is subscribed. -/
  | commandError
deriving DecidableEq

/-- `process_connection` returns `Ok`. -/
def Exit.isOk : Exit → Bool
  | closed => true
  | quit => true
  | _ => false

/-- What the loops of a connection meet next; `sent` tells whether the answer to it could
be written. -/
inductive Turn where
  | call (call : Call) (sent : Bool)
  /-- Another command. While the client is subscribed only a wrong PING is not understood. -/
  | other (understood sent : Bool)
  | quit (sent : Bool)
  | message (sent : Bool)
  /-- The sender of the subscription stream is gone. -/
  | streamEnds
  | readError
  | closed

/-- `process_connection` and, while it is blocked, `process_blocking_stream`: the calls
that the connection makes, and its end if it has come to it. -/
def processConnection (blocked : Bool) : List Turn → List Call × Option Exit
  | [] => ([], none)
  | .closed :: _ => ([], some .closed)
  | .readError :: _ => ([], some .readError)
  | .quit sent :: _ => ([], some (if sent then .quit else .writeError))
  | .streamEnds :: turns => processConnection false turns
  | .message sent :: turns =>
    if sent then processConnection blocked turns else ([], some .writeError)
  | .other understood sent :: turns =>
    if blocked && !understood then ([], some .commandError)
    else if sent then processConnection blocked turns
    else ([], some .writeError)
  | .call call sent :: turns =>
    -- the loop is blocked from the first subscription on
    let (next, failed) := match call, call.operation with
      | _, .error _ => (blocked, blocked)
      | .subscribe .., .ok _ => (true, false)
      | _, .ok _ => (blocked, false)
    if failed then ([call], some .commandError)
    else if sent then
      let (calls, exit) := processConnection next turns
      (call :: calls, exit)
    else ([call], some .writeError)

/-- `handle_connection_pipeline`: with `?` an error skips `remove_client`. -/
def handleConnection (turns : List Turn) : List Call × Option Exit :=
  let (calls, exit) := processConnection false turns
  (if exit.any Exit.isOk then calls ++ [.removeClient] else calls, exit)

/-! ### What is reported -/

namespace Registry

/-- The clients that NUMSUB counts are live, and so is one for every channel of CHANNELS
and every pattern that NUMPAT counts. -/
structure ReportsOnly (registry : Registry) (live : Nat → Prop) : Prop where
  numsub : ∀ channel, ∃ clients : Finset Nat,
    registry.pubsubNumsub [channel] =
        .array (some [.bulkString (some channel), .integer clients.card]) ∧
      ∀ client ∈ clients, live client ∧ client ∈ registry.subscribersOf ⟨.channel, channel⟩
  numpat : ∃ patterns : Finset Bytes, registry.pubsubNumpat = .integer patterns.card ∧
    ∀ pattern ∈ patterns, ∃ client, live client ∧
      client ∈ registry.subscribersOf ⟨.pattern, pattern⟩
  channels : ∀ order pattern, ∃ channels, registry.pubsubChannels order pattern =
    .ofBytesList channels ∧ ∀ channel ∈ channels, ∃ client, live client ∧
      client ∈ registry.subscribersOf ⟨.channel, channel⟩

variable {registry : Registry} {live : Nat → Prop}

theorem reportsOnly_of_listed (hPopulated : registry.Populated)
    (hLive : ∀ subscription, ∀ client ∈ registry.subscribersOf subscription, live client) :
    registry.ReportsOnly live := by
  have hKey (kind : Kind) (name : Bytes) (hName : name ∈ (registry.tables kind).keys) :
      ∃ client, live client ∧ client ∈ registry.subscribersOf ⟨kind, name⟩ := by
    obtain ⟨set, hSet⟩ := Finmap.mem_iff.mp (Finmap.mem_keys.mp hName)
    obtain ⟨client, hClient⟩ := Finset.nonempty_iff_ne_empty.mpr (hPopulated kind name set hSet)
    have hListed : client ∈ registry.subscribersOf ⟨kind, name⟩ := by
      simpa [subscribersOf, Subscribers.clientsOf, hSet] using hClient
    exact ⟨client, hLive _ client hListed, hListed⟩
  constructor
  case numsub =>
    exact fun channel => ⟨_, rfl,
      fun client hClient => ⟨hLive ⟨.channel, channel⟩ client hClient, hClient⟩⟩
  case numpat => exact ⟨_, rfl, hKey .pattern⟩
  case channels =>
    refine fun order pattern => ⟨_, rfl, fun channel hChannel => ?_⟩
    exact hKey .channel channel ((order.mem_list _ _).mp (List.mem_of_mem_filter hChannel))

end Registry

def Call.isDropReceiver : Call → Bool
  | dropReceiver _ => true
  | _ => false

namespace Node

/-- The task of the client's connection has ended. The receivers it lets go of on the way
are left out. -/
def Finished (node : Node) (client : Nat) (turns : List Turn) (exit : Exit) : Prop :=
  node.running client = none ∧
    handleConnection turns =
      (((node.past client).map Prod.fst).filter (!·.isDropReceiver), some exit)

/-- No channel or pattern lists the client, and it has no state. -/
def Forgets (node : Node) (client : Nat) : Prop :=
  (∀ subscription, client ∉ node.state.subscribersOf subscription) ∧
    node.state.clients client = none

theorem forgets_iff {node : Node} (hRun : Reachable step start node) {client : Nat}
    (hIdle : node.running client = none) :
    node.Forgets client ↔ subscriptions (node.past client) = ∅ := by
  have hConsistent := consistent_of_reachable hRun
  have hListed := hConsistent.accounted client hIdle
  have hPresent := hConsistent.present client hIdle
  unfold Forgets
  simp only [hListed] at hPresent ⊢
  rw [Finset.eq_empty_iff_forall_notMem, ← Option.not_isSome_iff_eq_none, hPresent,
    not_exists, and_self]

/-- The calls decide, and a receiver that is dropped is no subscription less. -/
theorem subscriptions_eq (history : History) :
    subscriptions history =
      ((history.map Prod.fst).filter (!·.isDropReceiver)).foldl
        (fun set call => call.apply set) ∅ := by
  unfold subscriptions
  generalize (∅ : Finset Subscription) = set
  induction history generalizing set with
  | nil => rfl
  | cons entry history ih =>
    obtain ⟨call, reply⟩ := entry
    cases call with
    | dropReceiver receiver => exact ih set
    | _ => exact ih _

/-- When the task of a connection has ended, its client is forgotten if the task ended
without an error; after an error it is forgotten only if it had no subscription left. If
all connections that have ended are forgotten, then only the others are reported. -/
theorem forgets_iff_exit {node : Node} (hRun : Reachable step start node)
    (ended : Nat → Option (List Turn × Exit))
    (hEnded : ∀ client turns exit, ended client = some (turns, exit) →
      node.Finished client turns exit) :
    (∀ client turns exit, ended client = some (turns, exit) → (node.Forgets client ↔
      exit.isOk ∨ (processConnection false turns).1.foldl (fun set call => call.apply set) ∅ = ∅)) ∧
    ((∀ client, (ended client).isSome → node.Forgets client) →
      node.state.ReportsOnly fun client => ended client = none) := by
  refine ⟨fun client turns exit hEnd => ?_, fun hForgets => ?_⟩
  · obtain ⟨hIdle, hHandle⟩ := hEnded client turns exit hEnd
    obtain ⟨hCalls, hExit⟩ := Prod.mk.inj hHandle
    rw [forgets_iff hRun hIdle, subscriptions_eq, ← hCalls, hExit]
    cases hOk : exit.isOk with
    | true => simp [hOk, Call.apply, Call.operation, Operation.apply]
    | false => simp [hOk]
  · refine Registry.reportsOnly_of_listed (consistent_of_reachable hRun).populated ?_
    intro subscription client hListed
    by_contra hEnd
    exact (hForgets client (Option.isSome_iff_ne_none.mpr hEnd)).1 subscription hListed

/-- Client 1 subscribes to a channel, and its call comes to its end. -/
def subscribing : List (Pool.Label Nat Call Section.Choice) :=
  .start 1 (.subscribe .channel (command ["SUBSCRIBE", "a"])) ::
    List.replicate 4 (.advance 1 noOrder)

/-- What its connection meets then. -/
def subscribed : Turn := .call (.subscribe .channel (command ["SUBSCRIBE", "a"])) true

theorem forgets_iff_exit_quit : ∃ node,
    Library.run step start
        (subscribing ++ .start 1 .removeClient :: List.replicate 4 (.advance 1 noOrder)) =
          some node ∧
      node.Finished 1 [subscribed, .quit true] .quit ∧ node.Forgets 1 ∧
      node.state.ReportsOnly (· ≠ 1) := by
  have hNode : (Library.run step start (subscribing ++
      .start 1 .removeClient :: List.replicate 4 (.advance 1 noOrder))).map
      (fun node => ((node.running 1).isNone, (node.past 1).map Prod.fst)) =
        some (true, [.subscribe .channel (command ["SUBSCRIBE", "a"]), .removeClient]) := rfl
  obtain ⟨node, hRun, hNode⟩ := Option.map_eq_some_iff.mp hNode
  obtain ⟨hIdle, hPast⟩ := Prod.mk.inj hNode
  have hFinished : node.Finished 1 [subscribed, .quit true] .quit :=
    ⟨Option.isNone_iff_eq_none.mp hIdle, by rw [hPast]; rfl⟩
  obtain ⟨hForgets, hReports⟩ := forgets_iff_exit ⟨_, hRun⟩
    (fun client => if client = 1 then some ([subscribed, .quit true], .quit) else none)
    (by simpa using hFinished)
  have hOne : node.Forgets 1 := (hForgets 1 _ _ rfl).mpr (.inl rfl)
  exact ⟨node, hRun, hFinished, hOne, by simpa using hReports (by simpa using hOne)⟩

/-- A subscribed client sends SUBSCRIBE without a channel. Its connection ends, and the
channel still lists it, so that NUMSUB counts it. -/
theorem forgets_not : ∃ node,
    Library.run step start (subscribing ++ [.start 1 (.subscribe .channel (command ["SUBSCRIBE"])),
      .advance 1 noOrder]) = some node ∧
    node.Finished 1 [subscribed, .call (.subscribe .channel (command ["SUBSCRIBE"])) true]
      .commandError ∧
    node.state.pubsubNumsub [bytes "a"] =
      .array (some [.bulkString (some (bytes "a")), .integer 1]) ∧
    ¬ node.Forgets 1 := by
  have hNode : (Library.run step start (subscribing ++
      [.start 1 (.subscribe .channel (command ["SUBSCRIBE"])), .advance 1 noOrder])).map
      (fun node => (((node.running 1).isNone, (node.past 1).map Prod.fst),
        node.state.pubsubNumsub [bytes "a"], (node.state.clients 1).isSome)) =
        some ((true, [.subscribe .channel (command ["SUBSCRIBE", "a"]),
          .subscribe .channel (command ["SUBSCRIBE"])]),
          .array (some [.bulkString (some (bytes "a")), .integer 1]), true) := rfl
  obtain ⟨node, hRun, hNode⟩ := Option.map_eq_some_iff.mp hNode
  simp only [Prod.mk.injEq] at hNode
  obtain ⟨⟨hIdle, hPast⟩, hNumsub, hState⟩ := hNode
  refine ⟨node, hRun, ⟨Option.isNone_iff_eq_none.mp hIdle, by rw [hPast]; rfl⟩, hNumsub,
    fun hForgets => ?_⟩
  rw [hForgets.2] at hState
  cases hState

end Node
end CacheCat.Broadcast
