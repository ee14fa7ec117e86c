import CacheCat.Broadcast.Registry

/-! What the tables say about one client, and how the critical sections change it. The
sections of a client change nobody else's share. -/
namespace CacheCat.Broadcast

open Library (Pool)

namespace Subscribers

variable (subs : Subscribers)

/-- No set is stored without a client in it. -/
def Populated : Prop := ∀ name set, subs.lookup name = some set → set ≠ ∅

variable (names : List Bytes) (client : Nat) (name other : Bytes)

theorem clientsOf_insertClient (client : Nat) :
    (subs.insertClient name client).clientsOf other =
      if other = name then insert client (subs.clientsOf name) else subs.clientsOf other := by
  unfold insertClient
  split
  next hSame => rw [hSame, clientsOf, Finmap.lookup_insert, Option.getD_some]
  next hOther => rw [clientsOf, Finmap.lookup_insert_of_ne _ hOther, clientsOf]

theorem getD_remainder :
    (subs.remainder client name).getD ∅ = (subs.clientsOf name).erase client := by
  rw [remainder, clientsOf]
  cases subs.lookup name with
  | none => rfl
  | some set => by_cases hEmpty : set.erase client = ∅ <;> simp [Option.filter_some, hEmpty]

variable {subs client name} in
theorem ne_empty_of_remainder {set : Finset Nat} (hSet : subs.remainder client name = some set) :
    set ≠ ∅ := by
  rw [remainder, Option.filter_eq_some_iff] at hSet
  exact of_decide_eq_true hSet.2

/-- A name goes with its last client, and the other names stay. -/
theorem lookup_removeClient : (subs.removeClient name client).lookup other =
    if other = name then subs.remainder client name else subs.lookup other := by
  unfold removeClient remainder
  by_cases hSame : other = name
  · subst hSame
    cases hLookup : subs.lookup other with
    | none => simp [hLookup]
    | some set => by_cases hEmpty : set.erase client = ∅ <;> simp [Option.filter_some, hEmpty]
  · rw [if_neg hSame]
    split
    · split
      · exact Finmap.lookup_erase_ne hSame
      · exact Finmap.lookup_insert_of_ne _ hSame
    · rfl

theorem clientsOf_removeClient :
    (subs.removeClient name client).clientsOf other =
      if other = name then (subs.clientsOf name).erase client else subs.clientsOf other := by
  rw [clientsOf, lookup_removeClient, ← getD_remainder]
  split <;> rfl

theorem lookup_retainOthers : (subs.retainOthers client).lookup name = subs.remainder client name :=
  Finmap.keysLookupEquiv_symm_apply_lookup _ _

theorem clientsOf_retainOthers :
    (subs.retainOthers client).clientsOf name = (subs.clientsOf name).erase client := by
  rw [clientsOf, lookup_retainOthers, getD_remainder]

/-- The loop of SUBSCRIBE over its names, which adds one client to each. -/
theorem mem_clientsOf_foldl_insertClient (client other : Nat) :
    other ∈ clientsOf (names.foldl (·.insertClient · client) subs) name ↔
      other ∈ subs.clientsOf name ∨ other = client ∧ name ∈ names := by
  induction names generalizing subs with
  | nil => simp
  | cons first names ih =>
    rw [List.foldl_cons, ih, clientsOf_insertClient, List.mem_cons]
    split
    next hSame => simp only [hSame, Finset.mem_insert]; tauto
    next hOther => simp [hOther]

/-- The loop of UNSUBSCRIBE over its names, which takes one client from each. -/
theorem mem_clientsOf_foldl_removeClient (client other : Nat) :
    other ∈ clientsOf (names.foldl (·.removeClient · client) subs) name ↔
      other ∈ subs.clientsOf name ∧ ¬ (other = client ∧ name ∈ names) := by
  induction names generalizing subs with
  | nil => simp
  | cons first names ih =>
    rw [List.foldl_cons, ih, clientsOf_removeClient, List.mem_cons]
    split
    next hSame => simp only [hSame, Finset.mem_erase]; tauto
    next hOther => simp [hOther]

variable {subs}

theorem Populated.insertClient (h : subs.Populated) (name : Bytes) (client : Nat) :
    (subs.insertClient name client).Populated := by
  intro other set hSet
  by_cases hSame : other = name
  · rw [hSame, Subscribers.insertClient, Finmap.lookup_insert, Option.some.injEq] at hSet
    rw [← hSet]
    exact Finset.insert_ne_empty client (subs.clientsOf name)
  · rw [Subscribers.insertClient, Finmap.lookup_insert_of_ne _ hSame] at hSet
    exact h other set hSet

theorem Populated.removeClient (h : subs.Populated) (name : Bytes) (client : Nat) :
    (subs.removeClient name client).Populated := by
  intro other set hSet
  rw [lookup_removeClient] at hSet
  split at hSet
  · exact ne_empty_of_remainder hSet
  · exact h other set hSet

theorem populated_retainOthers : (subs.retainOthers client).Populated := by
  intro name set hSet
  rw [lookup_retainOthers] at hSet
  exact ne_empty_of_remainder hSet

/-- What a change by one name keeps, the loop over the names keeps. -/
theorem Populated.foldl {change : Subscribers → Bytes → Subscribers}
    (hChange : ∀ subs name, Populated subs → (change subs name).Populated) (names : List Bytes)
    (h : subs.Populated) : Populated (names.foldl change subs) := by
  induction names generalizing subs with
  | nil => exact h
  | cons name names ih => exact ih (hChange subs name h)

end Subscribers

/-! ### The confirmations -/

/-- One frame for each name, with the number of subscriptions after the names so far. -/
def confirmations (word : String) (after : List Bytes → Finset Subscription) (names : List Bytes) :
    List Value :=
  names.mapIdx fun i name => pushFrame word (some name) (after (names.take (i + 1))).card

theorem confirmations_cons (word : String) (after : List Bytes → Finset Subscription) (name : Bytes)
    (names : List Bytes) : confirmations word after (name :: names) =
      pushFrame word (some name) (after [name]).card ::
        confirmations word (fun done => after (name :: done)) names := by
  simp [confirmations, List.mapIdx_cons]

namespace ClientState

/-- The frames count the subscriptions as they grow, repeated names included. -/
theorem subscribeAll_frames (kind : Kind) (state : ClientState) (names : List Bytes) :
    (state.subscribeAll kind names).1 =
      confirmations kind.subscribe (fun done => state.subscribed ∪ named kind done) names := by
  induction names generalizing state with
  | nil => rfl
  | cons name names ih =>
    rw [confirmations_cons]
    refine congrArg₂ List.cons ?_ ((ih _).trans ?_)
    · simp [subTotal, named]
    · simp [named, Finset.insert_union]

theorem unsubscribeAll_frames (kind : Kind) (state : ClientState) (names : List Bytes) :
    (state.unsubscribeAll kind names).1 =
      confirmations kind.unsubscribe (fun done => state.subscribed \ named kind done) names := by
  induction names generalizing state with
  | nil => rfl
  | cons name names ih =>
    rw [confirmations_cons]
    refine congrArg₂ List.cons ?_ ((ih _).trans ?_)
    · simp [subTotal, named, Finset.sdiff_singleton_eq_erase]
    · simp [named, Finset.erase_sdiff_comm, Finset.sdiff_insert]

end ClientState

theorem confirmations_empty (word : String) (names : List Bytes) :
    confirmations word (fun _ => ∅) names =
      names.map fun name => pushFrame word (some name) 0 := by
  refine List.ext_getElem (by simp [confirmations]) fun i _ _ => ?_
  simp [confirmations]

theorem confirmations_eq_nil (word : String) (after : List Bytes → Finset Subscription)
    (names : List Bytes) : confirmations word after names = [] ↔ names = [] := by
  rw [confirmations, List.mapIdx_eq_nil_iff]

/-- The names of one kind among the subscriptions, each once. -/
def Enumerates (names : List Bytes) (kind : Kind) (set : Finset Subscription) : Prop :=
  names.Nodup ∧ ∀ name, name ∈ names ↔ ⟨kind, name⟩ ∈ set

/-- The frames of a client that leaves all its channels or all its patterns. -/
def allConfirmations (kind : Kind) (set : Finset Subscription) (names : List Bytes) : List Value :=
  if names = [] then [pushFrame kind.unsubscribe none set.card]
  else confirmations kind.unsubscribe (fun done => set \ named kind done) names

/-! ### One client -/

def ClientState.present (set : Finset Subscription) : Option (Finset Subscription) :=
  if set = ∅ then none else some set

namespace Slot

variable (slot : Slot)

/-- The subscriptions of a client with a state. -/
def own : Option (Finset Subscription) := slot.state.map (·.subscribed)

theorem own_getOrCreateClient : slot.getOrCreateClient.2.own = some (slot.own.getD ∅) := by
  unfold getOrCreateClient
  cases hState : slot.state <;> simp [subscribeReceiver, setWatch, own, hState]

theorem state_stop : slot.stop.state = none := by
  unfold stop
  cases hState : slot.state <;> simp [hState]

/-- A client without subscriptions loses its state. -/
theorem own_cleanupClientIfEmpty :
    slot.cleanupClientIfEmpty.own = slot.own.bind ClientState.present := by
  unfold cleanupClientIfEmpty
  cases hState : slot.state with
  | none => simp [own, hState]
  | some state =>
    simp only [own, hState, Option.any_some, decide_eq_true_eq, Option.map_some, Option.bind_some,
      ClientState.present]
    split
    · rw [state_stop, Option.map_none]
    · rw [hState, Option.map_some]

theorem state_sendTo {slot next : Slot} {message : Message}
    (hSent : slot.sendTo message = some next) : next.state = slot.state := by
  simp only [sendTo, Option.bind_eq_bind, Option.bind_eq_some_iff, Option.some.injEq] at hSent
  obtain ⟨state, -, watch, -, rfl⟩ := hSent
  rfl

variable (kind : Kind) (names : List Bytes) {set : Finset Subscription}

theorem confirmSubscribed_effect (hOwn : slot.own = some set) :
    (slot.confirmSubscribed kind names).2.own = some (set ∪ named kind names) ∧
      (slot.confirmSubscribed kind names).1 =
        confirmations kind.subscribe (fun done => set ∪ named kind done) names := by
  obtain ⟨state, hState, rfl⟩ := Option.map_eq_some_iff.mp hOwn
  rw [confirmSubscribed, hState]
  refine ⟨?_, ClientState.subscribeAll_frames kind state names⟩
  simp [own, ClientState.subscribeAll_state]

/-- The client loses its state with its last subscription. -/
theorem confirmUnsubscribed_effect :
    (slot.confirmUnsubscribed kind names).2.own =
        ClientState.present (slot.own.getD ∅ \ named kind names) ∧
      (slot.confirmUnsubscribed kind names).1 =
        confirmations kind.unsubscribe (fun done => slot.own.getD ∅ \ named kind done) names := by
  cases hState : slot.state with
  | none =>
    rw [confirmUnsubscribed, hState]
    simp [own, hState, ClientState.present, confirmations_empty]
  | some state =>
    rw [confirmUnsubscribed, hState]
    refine ⟨?_, ?_⟩
    · rw [own_cleanupClientIfEmpty]
      simp [own, hState, ClientState.unsubscribeAll_state]
    · simpa [own, hState] using ClientState.unsubscribeAll_frames kind state names

theorem confirmAllUnsubscribed_snd :
    (slot.confirmAllUnsubscribed kind names).2 = (slot.confirmUnsubscribed kind names).2 := by
  unfold confirmAllUnsubscribed confirmUnsubscribed
  split <;> rfl

/-- A client without a state is sent nothing, and one without names a single frame. -/
theorem confirmAllUnsubscribed_frames :
    (slot.confirmAllUnsubscribed kind names).1 =
      if slot.own.isSome then allConfirmations kind (slot.own.getD ∅) names else [] := by
  cases hState : slot.state with
  | none => simp [confirmAllUnsubscribed, own, hState]
  | some state =>
    have hFrames := ClientState.unsubscribeAll_frames kind state names
    rw [confirmAllUnsubscribed, hState]
    simp only [hFrames, List.isEmpty_iff, confirmations_eq_nil, allConfirmations, own, hState,
      Option.map_some, Option.isSome_some, if_true, Option.getD_some]
    split
    next hNames => simp [hNames, ClientState.unsubscribeAll, ClientState.subTotal]
    · rfl

theorem enumerates_of_visits (hVisits : Visits names (slot.namesOf kind)) :
    Enumerates names kind (slot.own.getD ∅) := by
  refine ⟨hVisits.1, fun name => ?_⟩
  rw [← List.mem_toFinset, hVisits.2, namesOf, own]
  cases slot.state with
  | none => simp
  | some state =>
    simp only [Option.map_some, Option.getD_some, Finset.mem_image, Finset.mem_filter]
    constructor
    · rintro ⟨subscription, ⟨hMem, rfl⟩, rfl⟩
      exact hMem
    · intro hMem
      exact ⟨⟨kind, name⟩, ⟨hMem, rfl⟩, rfl⟩

end Slot

/-! ### Shares -/

/-- The channels and patterns that list the client, and the client's own set. -/
@[ext] structure Share where
  listed : Set Subscription
  own : Option (Finset Subscription)

namespace Registry

variable (registry : Registry) (kind : Kind) (names : List Bytes) (client : Nat)

/-- The clients that a channel or pattern lists. -/
def subscribersOf (subscription : Subscription) : Finset Nat :=
  (registry.tables subscription.kind).clientsOf subscription.name

def share : Share :=
  ⟨{subscription | client ∈ registry.subscribersOf subscription}, (registry.slots client).own⟩

theorem share_setSlot (slot : Slot) :
    (registry.setSlot client slot).share =
      Function.update registry.share client ⟨(registry.share client).listed, slot.own⟩ := by
  funext other
  by_cases hSame : other = client
  · subst hSame
    simp [share, setSlot, subscribersOf]
  · simp [share, setSlot, subscribersOf, Function.update_of_ne hSame]

theorem subscribersOf_setTable (subs : Subscribers) (subscription : Subscription) :
    (registry.setTable kind subs).subscribersOf subscription =
      if subscription.kind = kind then subs.clientsOf subscription.name
      else registry.subscribersOf subscription := by
  unfold subscribersOf setTable
  split
  next hSame => simp [hSame]
  next hOther => simp only [Function.update_of_ne hOther]

/-- A change of one table that concerns one client. -/
theorem share_setTable {subs : Subscribers} {listed : Set Subscription}
    (hSubs : ∀ other name, other ∈ subs.clientsOf name ↔
      if other = client then ⟨kind, name⟩ ∈ listed else other ∈ registry.subscribersOf ⟨kind, name⟩)
    (hListed : ∀ subscription, subscription.kind ≠ kind →
      (subscription ∈ listed ↔ client ∈ registry.subscribersOf subscription)) :
    (registry.setTable kind subs).share =
      Function.update registry.share client ⟨listed, (registry.share client).own⟩ := by
  funext other
  have hNow (subscription : Subscription) :
      other ∈ (registry.setTable kind subs).subscribersOf subscription ↔
        if other = client then subscription ∈ listed
          else other ∈ registry.subscribersOf subscription := by
    rw [subscribersOf_setTable]
    split
    next hKind =>
      subst hKind
      exact hSubs other subscription.name
    next hKind =>
      split
      next hSame => rw [hSame, hListed subscription hKind]
      · rfl
  by_cases hSame : other = client
  · simp only [if_pos hSame] at hNow
    rw [hSame] at hNow ⊢
    rw [Function.update_self]
    exact Share.ext (Set.ext hNow) rfl
  · simp only [if_neg hSame] at hNow
    rw [Function.update_of_ne hSame]
    exact Share.ext (Set.ext hNow) rfl

theorem share_register :
    (registry.register kind names client).share = Function.update registry.share client
      ⟨(registry.share client).listed ∪ named kind names, (registry.share client).own⟩ := by
  refine share_setTable registry kind client (fun other name => ?_) fun subscription hKind => ?_
  · rw [Subscribers.mem_clientsOf_foldl_insertClient]
    split
    next hSame => simp [hSame, share, subscribersOf, mem_named]
    next hOther => simp [hOther, subscribersOf]
  · simp [share, mem_named, hKind]

theorem share_unregister :
    (registry.unregister kind names client).share = Function.update registry.share client
      ⟨(registry.share client).listed \ named kind names, (registry.share client).own⟩ := by
  refine share_setTable registry kind client (fun other name => ?_) fun subscription hKind => ?_
  · rw [Subscribers.mem_clientsOf_foldl_removeClient]
    split
    next hSame => simp [hSame, share, subscribersOf, mem_named]
    next hOther => simp [hOther, subscribersOf]
  · simp [share, mem_named, hKind]

theorem share_retainOthers :
    (registry.retainOthers kind client).share = Function.update registry.share client
      ⟨{subscription ∈ (registry.share client).listed | subscription.kind ≠ kind},
        (registry.share client).own⟩ := by
  refine share_setTable registry kind client (fun other name => ?_) fun subscription hKind => ?_
  · rw [Subscribers.clientsOf_retainOthers]
    split
    next hSame => simp [hSame]
    next hOther => simp [hOther, subscribersOf]
  · simp [share, hKind]

/-- A message shows in nobody's share. -/
theorem share_deliver (sent : Finset Nat × Registry) (target : Nat × Message) :
    (deliver sent target).2.share = sent.2.share := by
  unfold deliver
  cases hSent : (sent.2.slots target.1).sendTo target.2 with
  | none => rfl
  | some slot =>
    rw [share_setSlot, Slot.own, Slot.state_sendTo hSent]
    exact Function.update_eq_self target.1 sent.2.share

theorem share_send (messages : List (Nat × Message)) :
    (registry.send messages).2.share = registry.share := by
  have hFold (sent : Finset Nat × Registry) :
      (messages.foldl deliver sent).2.share = sent.2.share := by
    induction messages generalizing sent with
    | nil => rfl
    | cons target messages ih => exact (ih (deliver sent target)).trans (share_deliver sent target)
  exact hFold (∅, registry)

variable {registry client} in
/-- An update at one client, as its own share and the shares of the others see it. -/
theorem share_apart {next : Registry} {after : Share}
    (hShare : next.share = Function.update registry.share client after) :
    next.share client = after ∧ ∀ other, other ≠ client →
      next.share other = registry.share other := by
  rw [hShare]
  exact ⟨Function.update_self .., fun other hOther => Function.update_of_ne hOther ..⟩

/-- A section of `clients` that concerns one client. -/
theorem share_atSlot {A : Type} (body : Slot → A × Slot) :
    (registry.atSlot client body).1.share client =
        ⟨(registry.share client).listed, (body (registry.slots client)).2.own⟩ ∧
      ∀ other, other ≠ client → (registry.atSlot client body).1.share other =
        registry.share other := by
  exact share_apart (registry.share_setSlot client _)

end Registry

/-! ### Sections and shares -/

namespace Share

/-- The client's subscriptions as its own set has them. -/
def held (share : Share) : Finset Subscription := share.own.getD ∅

/-- What a section of the client does to its share. -/
def effect (share : Share) : (body : Section) → Share → body.Answer → Prop
  | .getOrCreateClient _, after, _ => after = ⟨share.listed, some share.held⟩
  | .register kind names _, after, _ => after = ⟨share.listed ∪ named kind names, share.own⟩
  | .confirmSubscribed kind names _, after, frames =>
    share.own.isSome → after = ⟨share.listed, some (share.held ∪ named kind names)⟩ ∧
      frames = confirmations kind.subscribe (fun done => share.held ∪ named kind done) names
  | .namesOf kind _, after, names => after = share ∧ Enumerates names kind share.held
  | .unregister kind names _, after, _ => after = ⟨share.listed \ named kind names, share.own⟩
  | .confirmUnsubscribed kind names _, after, frames =>
    after = ⟨share.listed, ClientState.present (share.held \ named kind names)⟩ ∧
      frames = confirmations kind.unsubscribe (fun done => share.held \ named kind done) names
  | .confirmAllUnsubscribed kind names _, after, frames =>
    after = ⟨share.listed, ClientState.present (share.held \ named kind names)⟩ ∧
      frames = if share.own.isSome then allConfirmations kind share.held names else []
  | .retainOthers kind _, after, _ =>
    after = ⟨{subscription ∈ share.listed | subscription.kind ≠ kind}, share.own⟩
  | .dropClient _, after, _ => after = ⟨share.listed, none⟩
  | .exactSubs _, after, _ | .patternTargets _, after, _ | .send _, after, _
  | .dropReceiver .., after, _ => after = share

end Share

/-- A task enters the sections of its own client only; those of a publication name none. -/
def Section.BelongsTo (client : Nat) : Section → Prop
  | getOrCreateClient id | register _ _ id | confirmSubscribed _ _ id | namesOf _ id
  | unregister _ _ id | confirmUnsubscribed _ _ id | confirmAllUnsubscribed _ _ id
  | retainOthers _ id | dropClient id => id = client
  | exactSubs _ | patternTargets _ | send _ | dropReceiver .. => True

variable {registry : Registry}

/-- Each critical section, taken alone: its client's share changes as `Share.effect` says,
and the other shares do not. -/
theorem Section.perform_effect {choice : Section.Choice} {next : Registry} {body : Section}
    {answer : body.Answer} {client : Nat} (hBelongs : body.BelongsTo client)
    (hPerform : body.perform choice registry = some (next, answer)) :
    Share.effect (registry.share client) body (next.share client) answer ∧
      ∀ other, other ≠ client → next.share other = registry.share other := by
  cases body with
  | getOrCreateClient id =>
    cases hBelongs
    cases hPerform
    obtain ⟨hMine, hOthers⟩ := registry.share_atSlot client (·.getOrCreateClient)
    rw [Slot.own_getOrCreateClient] at hMine
    exact ⟨hMine, hOthers⟩
  | register kind names id | unregister kind names id | retainOthers kind id =>
    cases hBelongs
    cases hPerform
    apply Registry.share_apart
    first
      | exact registry.share_register kind names client
      | exact registry.share_unregister kind names client
      | exact registry.share_retainOthers kind client
  | dropClient id =>
    cases hBelongs
    cases hPerform
    obtain ⟨hMine, hOthers⟩ := registry.share_atSlot client fun slot => ((), slot.stop)
    rw [Slot.own, Slot.state_stop] at hMine
    exact ⟨hMine, hOthers⟩
  | confirmSubscribed kind names id =>
    cases hBelongs
    cases hPerform
    obtain ⟨hMine, hOthers⟩ := registry.share_atSlot client (·.confirmSubscribed kind names)
    refine ⟨fun hSome => ?_, hOthers⟩
    obtain ⟨set, hOwn⟩ := Option.isSome_iff_exists.mp hSome
    obtain ⟨hAfter, hFrames⟩ :=
      Slot.confirmSubscribed_effect (registry.slots client) kind names hOwn
    rw [hAfter] at hMine
    rw [Share.held, hOwn, Option.getD_some]
    exact ⟨hMine, hFrames⟩
  | namesOf kind id =>
    cases hBelongs
    rw [perform] at hPerform
    split at hPerform
    next hVisits =>
      cases hPerform
      exact ⟨⟨rfl, Slot.enumerates_of_visits _ kind choice.names hVisits⟩, fun _ _ => rfl⟩
    · cases hPerform
  | confirmUnsubscribed kind names id =>
    cases hBelongs
    cases hPerform
    obtain ⟨hMine, hOthers⟩ := registry.share_atSlot client (·.confirmUnsubscribed kind names)
    obtain ⟨hAfter, hFrames⟩ := Slot.confirmUnsubscribed_effect (registry.slots client) kind names
    rw [hAfter] at hMine
    exact ⟨⟨hMine, hFrames⟩, hOthers⟩
  | confirmAllUnsubscribed kind names id =>
    cases hBelongs
    cases hPerform
    obtain ⟨hMine, hOthers⟩ := registry.share_atSlot client (·.confirmAllUnsubscribed kind names)
    rw [Slot.confirmAllUnsubscribed_snd, (Slot.confirmUnsubscribed_effect _ kind names).1] at hMine
    exact ⟨⟨hMine, Slot.confirmAllUnsubscribed_frames _ kind names⟩, hOthers⟩
  | exactSubs channel | patternTargets channel =>
    rw [perform] at hPerform
    split at hPerform
    · cases hPerform
      exact ⟨rfl, fun _ _ => rfl⟩
    · cases hPerform
  | send messages =>
    cases hPerform
    have hShare := registry.share_send messages
    exact ⟨congrFun hShare client, fun other _ => congrFun hShare other⟩
  | dropReceiver id receiver =>
    cases hPerform
    have hShare : (registry.atSlot id fun slot => ((), slot.dropReceiver receiver)).1.share =
        registry.share :=
      (registry.share_setSlot id _).trans (Function.update_eq_self id registry.share)
    exact ⟨congrFun hShare client, fun other _ => congrFun hShare other⟩

/-- Nobody's section shows in anybody else's share. -/
theorem separates : Pool.Separates
    (fun choice registry body => Section.perform choice registry body)
    (fun client body => body.BelongsTo client) (fun client registry => registry.share client)
    Share.effect where
  own _ _ _ _ _ _ hBelongs hPerform := (Section.perform_effect hBelongs hPerform).1
  other _ _ _ other _ _ _ hBelongs hOther hPerform :=
    (Section.perform_effect hBelongs hPerform).2 other hOther

end CacheCat.Broadcast
