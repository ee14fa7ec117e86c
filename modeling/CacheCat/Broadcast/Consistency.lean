import CacheCat.Broadcast.Shares

/-! Between the locks of one call the tables disagree. Whenever a client's call is over,
they agree about the client again, whatever the other clients have done in the
meantime, and the client has been told its true number of subscriptions at each point. -/
namespace CacheCat.Broadcast

open Library (Program Pool Reachable)

/-! ### No set without clients -/

def Registry.Populated (registry : Registry) : Prop := ∀ kind, (registry.tables kind).Populated

variable {registry : Registry}

theorem Registry.Populated.setTable (h : registry.Populated) {subs : Subscribers}
    (hSubs : subs.Populated) (kind : Kind) : (registry.setTable kind subs).Populated := by
  intro other
  by_cases hSame : other = kind
  · rw [Registry.setTable, hSame]
    simpa using hSubs
  · rw [Registry.setTable]
    simpa only [Function.update_of_ne hSame] using h other

theorem Registry.Populated.congr {next : Registry} (h : registry.Populated)
    (hTables : next.tables = registry.tables) : next.Populated := by
  unfold Registry.Populated
  rw [hTables]
  exact h

theorem Registry.tables_send (registry : Registry) (messages : List (Nat × Message)) :
    (registry.send messages).2.tables = registry.tables := by
  have hDeliver (sent : Finset Nat × Registry) (target : Nat × Message) :
      (deliver sent target).2.tables = sent.2.tables := by
    unfold deliver
    cases (sent.2.slots target.1).sendTo target.2 <;> rfl
  have hFold (sent : Finset Nat × Registry) :
      (messages.foldl deliver sent).2.tables = sent.2.tables := by
    induction messages generalizing sent with
    | nil => rfl
    | cons target messages ih => exact (ih (deliver sent target)).trans (hDeliver sent target)
  exact hFold (∅, registry)

theorem Section.perform_populated {choice : Section.Choice} {next : Registry} {body : Section}
    {answer : body.Answer} (h : registry.Populated)
    (hPerform : body.perform choice registry = some (next, answer)) : next.Populated := by
  cases body with
  | register kind names id =>
    cases hPerform
    exact h.setTable (Subscribers.Populated.foldl (fun _ name hSubs => hSubs.insertClient name id)
      names (h kind)) kind
  | unregister kind names id =>
    cases hPerform
    exact h.setTable (Subscribers.Populated.foldl (fun _ name hSubs => hSubs.removeClient name id)
      names (h kind)) kind
  | retainOthers kind id =>
    cases hPerform
    exact h.setTable (Subscribers.populated_retainOthers id) kind
  -- the other sections do not write to the tables
  | getOrCreateClient | confirmSubscribed | confirmUnsubscribed
    | confirmAllUnsubscribed | dropClient
  | dropReceiver => cases hPerform; exact h.congr rfl
  | send messages => cases hPerform; exact h.congr (registry.tables_send messages)
  | namesOf | exactSubs | patternTargets =>
    rw [perform] at hPerform
    split at hPerform
    · cases hPerform
      exact h
    · cases hPerform

/-! ### The calls on one share -/

/-- The tables agree about a client with these subscriptions, and it has a state only if
there are any. -/
def Share.Settled (share : Share) (set : Finset Subscription) : Prop :=
  share = ⟨set, ClientState.present set⟩

variable {share : Share} {set : Finset Subscription}

theorem Share.Settled.held (h : share.Settled set) : share.held = set := by
  rw [h, ClientState.present]
  split
  next hEmpty => exact hEmpty.symm
  · rfl

/-- A client that is listed anywhere has a state. -/
def Share.Served (share : Share) : Prop := share.listed.Nonempty → share.own.isSome

theorem Share.Settled.served (h : share.Settled set) : share.Served := by
  rintro ⟨subscription, hListed⟩
  rw [h] at hListed ⊢
  rw [ClientState.present, if_neg (Finset.ne_empty_of_mem hListed), Option.isSome_some]

/-- A client that is listed less is served as well. -/
theorem Share.Served.mono (h : share.Served) {listed : Set Subscription}
    (hListed : listed ⊆ share.listed) : Share.Served ⟨listed, share.own⟩ :=
  fun hSome => h (hSome.mono hListed)

namespace Operation

/-- The client's subscriptions after an operation. -/
def apply (set : Finset Subscription) : Operation → Finset Subscription
  | subscribe kind names => set ∪ named kind names
  | unsubscribe kind names => set \ named kind names
  | unsubscribeAll kind => set.filter (·.kind ≠ kind)
  | removeClient => ∅
  | publish .. | dropReceiver _ => set

/-- The reply to a client with these subscriptions: for each name, in the order of the
command, the number of subscriptions once the names so far have been dealt with. -/
def Confirms (set : Finset Subscription) : Operation → Option Value → Prop
  | subscribe kind names, reply => reply = some (.batch
      (confirmations kind.subscribe (fun done => set ∪ named kind done) names))
  | unsubscribe kind names, reply => reply = some (.batch
      (confirmations kind.unsubscribe (fun done => set \ named kind done) names))
  | unsubscribeAll kind, reply => ∃ names, Enumerates names kind set ∧
      reply = some (.batch (allConfirmations kind set names))
  | publish .., _ | dropReceiver _, _ | removeClient, _ => True

end Operation

namespace Call

/-- A command that is not understood changes nothing. -/
def apply (set : Finset Subscription) (call : Call) : Finset Subscription :=
  match call.operation with
  | .error _ => set
  | .ok operation => operation.apply set

def Confirms (set : Finset Subscription) (call : Call) (reply : Parsed (Option Value)) : Prop :=
  match call.operation with
  | .error error => reply = .error error
  | .ok operation => ∃ answer, reply = .ok answer ∧ operation.Confirms set answer

end Call

variable {kind : Kind}

theorem subscribeParams_ne_nil {items : List Value} {names : List Bytes}
    (hNames : subscribeParams kind items = .ok names) : names ≠ [] := by
  match items with
  | [] | [_] => cases hNames
  | _ :: first :: rest =>
    have hRest : (first :: rest).mapM Value.stringBytesClone = some names := by
      change Parsed.okOr ((first :: rest).mapM Value.stringBytesClone) _ = .ok names at hNames
      rwa [Parsed.okOr_eq_ok] at hNames
    rw [List.mapM_cons, Option.bind_eq_bind, Option.bind_eq_some_iff] at hRest
    obtain ⟨name, -, hRest⟩ := hRest
    rw [Option.bind_eq_bind, Option.bind_eq_some_iff] at hRest
    obtain ⟨later, -, hRest⟩ := hRest
    rw [← Option.some.inj hRest]
    exact List.cons_ne_nil name later

section

variable {share : Share} {set : Finset Subscription} {client : Nat}

theorem settled_withdrawn (h : share.Settled set) (ended : Finset Subscription) :
    Share.Settled ⟨share.listed \ ended, ClientState.present (share.held \ ended)⟩
      (set \ ended) := by
  rw [h.held]
  refine Share.ext ?_ rfl
  rw [h, Finset.coe_sdiff]

variable {names : List Bytes}

theorem subscribe_keeps (h : share.Settled set) (kind : Kind) (hNames : names ≠ []) :
    (Procedure.subscribeTo kind names client >>=
      fun result => pure (some result.1)).Keeps Share.effect
      Share.Served (fun after reply => after.Settled ((Operation.subscribe kind names).apply set) ∧
        (Operation.subscribe kind names).Confirms set reply) share := by
  intro entered rx hEntered
  obtain rfl : entered = ⟨set, some set⟩ := by rw [hEntered, h.held, h]
  refine ⟨fun _ => rfl, ?_⟩
  rintro listed _ ⟨⟩
  refine ⟨fun _ => rfl, ?_⟩
  intro confirmed frames hConfirmed
  obtain ⟨rfl, rfl⟩ := hConfirmed rfl
  have hSome : set ∪ named kind names ≠ ∅ := by
    intro hEmpty
    simp [named, hNames] at hEmpty
  exact ⟨fun _ => rfl, Share.ext (Finset.coe_union _ _).symm (if_neg hSome).symm, rfl⟩

theorem unsubscribe_keeps (h : share.Settled set) (kind : Kind) (names : List Bytes) :
    (some <$> Procedure.unsubscribeFrom kind names client).Keeps Share.effect Share.Served
      (fun after reply => after.Settled ((Operation.unsubscribe kind names).apply set) ∧
        (Operation.unsubscribe kind names).Confirms set reply) share := by
  rintro unlisted _ ⟨⟩
  refine ⟨h.served.mono Set.sdiff_subset, ?_⟩
  rintro confirmed frames ⟨rfl, rfl⟩
  have hSettled := settled_withdrawn h (named kind names)
  refine ⟨hSettled.served, hSettled, ?_⟩
  rw [← h.held]
  rfl

theorem Enumerates.sdiff_named (hNames : Enumerates names kind set) :
    set \ named kind names = set.filter (·.kind ≠ kind) := by
  ext ⟨kind', name⟩
  have hName := hNames.2 name
  simp only [Finset.mem_sdiff, mem_named, Finset.mem_filter]
  grind

theorem allConfirmations_ne_nil (kind : Kind) (set : Finset Subscription) (names : List Bytes) :
    allConfirmations kind set names ≠ [] := by
  unfold allConfirmations
  split
  · exact List.cons_ne_nil _ _
  next hNames => rwa [Ne, confirmations_eq_nil]

/-- A client without a state has left nothing, and is told so. -/
theorem allConfirmations_of_settled (h : share.Settled set) (hNames : Enumerates names kind set)
    (frames : List Value)
    (hFrames : frames = if share.own.isSome then allConfirmations kind share.held names else []) :
    (if frames.isEmpty then [pushFrame kind.unsubscribe none 0] else frames) =
      allConfirmations kind set names := by
  rw [h.held, h] at hFrames
  by_cases hEmpty : set = ∅
  · have hNone : names = [] := by
      refine List.eq_nil_iff_forall_not_mem.mpr fun name hName => ?_
      simpa [hEmpty] using (hNames.2 name).mp hName
    rw [hFrames, hNone, hEmpty]
    rfl
  · rw [ClientState.present, if_neg hEmpty] at hFrames
    rw [hFrames, Option.isSome_some, if_pos rfl, if_neg]
    rw [List.isEmpty_iff]
    exact allConfirmations_ne_nil kind set names

theorem unsubscribeAll_keeps (h : share.Settled set) (kind : Kind) :
    (some <$> Procedure.unsubscribeFromAll kind client).Keeps Share.effect Share.Served
      (fun after reply => after.Settled ((Operation.unsubscribeAll kind).apply set) ∧
        (Operation.unsubscribeAll kind).Confirms set reply) share := by
  rintro looked names ⟨rfl, hNames⟩
  refine ⟨h.served, ?_⟩
  rintro unlisted _ ⟨⟩
  refine ⟨h.served.mono Set.sdiff_subset, ?_⟩
  rintro confirmed frames ⟨rfl, rfl⟩
  rw [h.held] at hNames
  have hSettled := settled_withdrawn h (named kind names)
  refine ⟨hSettled.served, ?_, names, hNames, ?_⟩
  · rw [Operation.apply, ← hNames.sdiff_named]
    exact hSettled
  · exact congrArg (fun frames => some (Value.batch frames))
      (allConfirmations_of_settled h hNames _ rfl)

/-- A reply that is wrapped on its way out. -/
theorem yields_map {A B : Type} {program : Procedure A} {f : A → B} {post : Share → B → Prop} :
    (f <$> program).Yields Share.effect post share ↔
      program.Yields Share.effect (fun after result => post after (f result)) share :=
  Program.yields_bind

/-- However an operation is interrupted, a client that is listed has a state. -/
theorem operation_keeps (h : share.Settled set) {operation : Operation}
    (hNames : ∀ kind, operation ≠ .subscribe kind []) :
    (operation.procedure client).Keeps Share.effect Share.Served
      (fun after reply => after.Settled (operation.apply set) ∧
        operation.Confirms set reply) share := by
  cases operation with
  | subscribe kind names =>
    have hSome : names ≠ [] := fun hNil => hNames kind (hNil ▸ rfl)
    cases kind with
    | channel | pattern => exact subscribe_keeps h _ hSome
  | unsubscribe kind names =>
    cases kind with
    | channel | pattern => exact unsubscribe_keeps h _ names
  | unsubscribeAll kind =>
    cases kind with
    | channel | pattern => exact unsubscribeAll_keeps h _
  | publish number channel payload =>
    rintro _ _ ⟨⟩
    refine ⟨h.served, ?_⟩
    rintro _ _ ⟨⟩
    refine ⟨h.served, ?_⟩
    rintro _ _ ⟨⟩
    exact ⟨h.served, h, trivial⟩
  | dropReceiver receiver =>
    rintro after _ rfl
    exact ⟨h.served, h, trivial⟩
  | removeClient =>
    rintro _ _ ⟨⟩
    refine ⟨h.served.mono fun _ hListed => hListed.1, ?_⟩
    rintro _ _ ⟨⟩
    refine ⟨h.served.mono fun _ hListed => hListed.1.1, ?_⟩
    rintro _ _ ⟨⟩
    have hSettled : Share.Settled ⟨{subscription ∈ {subscription ∈ share.listed |
        subscription.kind ≠ .channel} | subscription.kind ≠ .pattern}, none⟩ ∅ := by
      refine Share.ext (Set.ext fun subscription => ?_) rfl
      cases hKind : subscription.kind <;> simp [hKind]
    exact ⟨hSettled.served, hSettled, trivial⟩

/-- SUBSCRIBE names at least one channel. -/
theorem Call.operation_ne {call : Call} {operation : Operation}
    (hCall : call.operation = .ok operation) (kind : Kind) : operation ≠ .subscribe kind [] := by
  rintro rfl
  cases call with
  | subscribe kind' items =>
    rw [Call.operation] at hCall
    cases hParams : subscribeParams kind' items with
    | error error =>
      rw [hParams] at hCall
      cases hCall
    | ok names =>
      rw [hParams] at hCall
      cases hCall
      exact subscribeParams_ne_nil hParams rfl
  | unsubscribe kind' items =>
    rw [Call.operation] at hCall
    match hParams : unsubscribeParams kind' items with
    | .error error | .ok none | .ok (some names) =>
      rw [hParams] at hCall
      cases hCall
  | publish | dropReceiver | removeClient => cases hCall

theorem call_yields (h : share.Settled set) (call : Call) :
    (call.procedure client).Yields Share.effect
      (fun after reply => after.Settled (call.apply set) ∧ call.Confirms set reply) share := by
  unfold Call.procedure Call.apply Call.Confirms
  cases hCall : call.operation with
  | error error => exact ⟨h, rfl⟩
  | ok operation =>
    rw [yields_map]
    refine (operation_keeps h (Call.operation_ne hCall)).yields.mono ?_
    rintro after reply ⟨hAfter, hReply⟩
    exact ⟨hAfter, reply, rfl, hReply⟩

theorem call_asks (client : Nat) (call : Call) :
    (call.procedure client).Asks fun body => body.BelongsTo client := by
  unfold Call.procedure
  cases call.operation with
  | error error => trivial
  | ok operation =>
    cases operation with
    | subscribe kind names | unsubscribeAll kind =>
      cases kind <;> exact ⟨rfl, fun _ _ => ⟨rfl, fun _ _ => ⟨rfl, fun _ _ => trivial⟩⟩⟩
    | unsubscribe kind names => cases kind <;> exact ⟨rfl, fun _ _ => ⟨rfl, fun _ _ => trivial⟩⟩
    | publish number channel payload =>
      exact ⟨trivial, fun _ _ => ⟨trivial, fun _ _ => ⟨trivial, fun _ _ => trivial⟩⟩⟩
    | dropReceiver receiver => exact ⟨trivial, fun _ _ => trivial⟩
    | removeClient => exact ⟨rfl, fun _ _ => ⟨rfl, fun _ _ => ⟨rfl, fun _ _ => trivial⟩⟩⟩

end

/-! ### Runs -/

abbrev History := List (Call × Parsed (Option Value))

/-- The client's subscriptions after these calls. -/
def subscriptions (history : History) : Finset Subscription :=
  history.foldl (fun set entry => entry.1.apply set) ∅

theorem subscriptions_append (history : History) (call : Call) (reply : Parsed (Option Value)) :
    subscriptions (history ++ [(call, reply)]) = call.apply (subscriptions history) := by
  rw [subscriptions, List.foldl_append]
  rfl

def Truthful (history : History) : Prop :=
  ∀ earlier call reply later, history = earlier ++ (call, reply) :: later →
    call.Confirms (subscriptions earlier) reply

theorem Truthful.append {history : History} {call : Call} {reply : Parsed (Option Value)}
    (h : Truthful history) (hReply : call.Confirms (subscriptions history) reply) :
    Truthful (history ++ [(call, reply)]) := by
  intro earlier call' reply' later hSplit
  rcases later.eq_nil_or_concat with rfl | ⟨middle, last, rfl⟩
  · obtain ⟨rfl, hLast⟩ := List.append_inj' hSplit rfl
    cases hLast
    exact hReply
  · rw [List.concat_eq_append, ← List.cons_append, ← List.append_assoc] at hSplit
    exact h earlier call' reply' middle (List.append_inj' hSplit rfl).1

/-- The registry and the calls in progress. -/
abbrev Node := Pool Registry Nat Call Section Section.Answer (Parsed (Option Value))

namespace Node

def start : Node := Pool.new .new

def step (node : Node) : Pool.Label Nat Call Section.Choice → Option Node :=
  Pool.step (fun choice registry body => Section.perform choice registry body) Call.procedure node

structure Consistent (node : Node) : Prop where
  /-- No empty set is stored, not even during a call. -/
  populated : ∀ kind name set, (node.state.tables kind).lookup name = some set → set ≠ ∅
  mirrored : ∀ client, node.running client = none → ∀ subscription,
    client ∈ node.state.subscribersOf subscription ↔
      ∃ state, node.state.clients client = some state ∧ subscription ∈ state.subscribed
  present : ∀ client, node.running client = none →
    ((node.state.clients client).isSome ↔
      ∃ subscription, client ∈ node.state.subscribersOf subscription)
  /-- The subscriptions are those that the client's calls amount to. -/
  accounted : ∀ client, node.running client = none → ∀ subscription,
    client ∈ node.state.subscribersOf subscription ↔ subscription ∈ subscriptions (node.past client)
  /-- Every reply the client has got was true when its call was made. -/
  confirmed : ∀ client, Truthful (node.past client)

theorem settled_of_reachable {node : Node} (hRun : Reachable step start node) (client : Nat) :
    Truthful (node.past client) ∧ (node.running client = none →
      (node.state.share client).Settled (subscriptions (node.past client))) := by
  have hJob : ∀ client (call : Call) history share,
      Truthful history ∧ share.Settled (subscriptions history) →
      (call.procedure client).Yields Share.effect
        (fun after reply => Truthful (history ++ [(call, reply)]) ∧
          after.Settled (subscriptions (history ++ [(call, reply)]))) share := by
    rintro client call history share ⟨hTruthful, hSettled⟩
    refine (call_yields hSettled call).mono ?_
    rintro after reply ⟨hAfter, hReply⟩
    rw [subscriptions_append]
    exact ⟨hTruthful.append hReply, hAfter⟩
  have hInit : ∀ client, Truthful [] ∧ (Registry.new.share client).Settled (subscriptions []) := by
    intro client
    refine ⟨?_, Share.ext (Set.ext fun subscription => ?_) rfl⟩
    · intro earlier call reply later hSplit
      simp at hSplit
    · simp [Registry.share, Registry.subscribersOf, Registry.new, Subscribers.clientsOf,
        subscriptions]
  obtain ⟨⟨before, hTruthful, -⟩, hIdle⟩ := Pool.related
    (fun _ history (share : Share) => Truthful history ∧ share.Settled (subscriptions history))
    separates call_asks hJob hInit hRun client
  exact ⟨hTruthful, fun hNone => (hIdle hNone).2⟩

theorem clients_of_settled {registry : Registry} {client : Nat}
    (h : (registry.share client).Settled set) (subscription : Subscription) :
    (∃ state, registry.clients client = some state ∧ subscription ∈ state.subscribed) ↔
      subscription ∈ set := by
  have hHeld : (registry.slots client).own.getD ∅ = set := h.held
  rw [← hHeld, Slot.own, Registry.clients]
  cases (registry.slots client).state <;> simp

theorem isSome_of_settled {registry : Registry} {client : Nat}
    (h : (registry.share client).Settled set) :
    (registry.clients client).isSome ↔ set.Nonempty := by
  have hOwn : ((registry.clients client).map (·.subscribed)).isSome =
      (ClientState.present set).isSome :=
    congrArg (·.own.isSome) h
  rw [Option.isSome_map] at hOwn
  rw [hOwn, ClientState.present, Finset.nonempty_iff_ne_empty]
  split
  next hEmpty => simp [hEmpty]
  next hSome => simpa using hSome

/-- However the calls of the clients are interleaved: whenever a client's call is over, the
tables agree about the client, and it has been told the truth. -/
theorem consistent_of_reachable {node : Node} (hRun : Reachable step start node) :
    node.Consistent := by
  have hSettled (client : Nat) (hIdle : node.running client = none) :=
    (settled_of_reachable hRun client).2 hIdle
  have hListed (client : Nat) (hIdle : node.running client = none) (subscription : Subscription) :
      client ∈ node.state.subscribersOf subscription ↔
        subscription ∈ subscriptions (node.past client) :=
    Set.ext_iff.mp (congrArg Share.listed (hSettled client hIdle)) subscription
  constructor
  case populated =>
    refine Pool.state_invariant hRun Registry.Populated ?_ ?_
    · intro kind name set hSet
      cases hSet
    · intro choice registry body next answer hPopulated hPerform
      exact Section.perform_populated hPopulated hPerform
  case mirrored =>
    intro client hIdle subscription
    rw [hListed client hIdle]
    exact (clients_of_settled (hSettled client hIdle) subscription).symm
  case present =>
    intro client hIdle
    simp only [hListed client hIdle]
    exact isSome_of_settled (hSettled client hIdle)
  case accounted => exact hListed
  case confirmed => exact fun client => (settled_of_reachable hRun client).1

/-- The items of a command. -/
def command (words : List String) : List Value :=
  words.map fun word => .bulkString (some (bytes word))

def noOrder : Section.Choice := ⟨[], [], []⟩

/-- Two clients whose sections alternate, and a publication between them. -/
def alternating : List (Pool.Label Nat Call Section.Choice) :=
  [.start 1 (.subscribe .channel (command ["SUBSCRIBE", "a", "b", "a"])),
    .start 2 (.subscribe .channel (command ["SUBSCRIBE", "a"])),
    .advance 1 noOrder, .advance 2 noOrder, .advance 2 noOrder, .advance 1 noOrder,
    .start 3 (.publish 0 (bytes "a") (bytes "x")), .advance 3 ⟨[], [2, 1], []⟩,
    .advance 1 noOrder, .advance 1 noOrder, .advance 3 noOrder, .advance 3 noOrder,
    .start 1 (.unsubscribe .channel (command ["UNSUBSCRIBE"])),
    .advance 1 ⟨[bytes "b", bytes "a"], [], []⟩, .advance 2 noOrder, .advance 1 noOrder,
    .advance 2 noOrder, .advance 1 noOrder, .advance 1 noOrder, .advance 3 noOrder]

theorem consistent_of_reachable_alternating :
    ∃ node, Library.run step start alternating = some node ∧ (node.past 1).map Prod.snd = [
      .ok (some (.batch [pushFrame "subscribe" (some (bytes "a")) 1,
        pushFrame "subscribe" (some (bytes "b")) 2, pushFrame "subscribe" (some (bytes "a")) 2])),
      .ok (some (.batch [pushFrame "unsubscribe" (some (bytes "b")) 1,
        pushFrame "unsubscribe" (some (bytes "a")) 0]))] ∧ node.Consistent := by
  have hReplies : (Library.run step start alternating).map
      (fun node => (node.past 1).map Prod.snd) = some [
        .ok (some (.batch [pushFrame "subscribe" (some (bytes "a")) 1,
          pushFrame "subscribe" (some (bytes "b")) 2, pushFrame "subscribe" (some (bytes "a")) 2])),
        .ok (some (.batch [pushFrame "unsubscribe" (some (bytes "b")) 1,
          pushFrame "unsubscribe" (some (bytes "a")) 0]))] := rfl
  obtain ⟨node, hRun, hNode⟩ := Option.map_eq_some_iff.mp hReplies
  exact ⟨node, hRun, hNode, consistent_of_reachable ⟨_, hRun⟩⟩

end Node
end CacheCat.Broadcast
