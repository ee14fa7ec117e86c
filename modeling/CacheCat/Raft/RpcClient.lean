import CacheCat.Data.Text
import CacheCat.Library.Framing
import CacheCat.Library.Run

/-! One connection to another node (`RpcClient`). The calls share a table of slots; a
call uses the slot given by the low bits of its request id, and so do the writer and
the reader task of the connection. When one of the tasks ends, it frees the slots
under their owners, who may still be waiting while the next call moves in. -/
namespace CacheCat.Raft

open Library (bigEndian ofBigEndian Reachable)

/-! ### A slot -/

def maxPending : Nat := 65536

def indexMask : Nat := maxPending - 1

/-- The body of a frame. The reader counts the frames, so that two frames with the
same bytes are different responses. -/
structure Response where
  number : Nat
  body : Bytes
deriving DecidableEq

/-- The waker is known by the number of the call whose task it wakes. -/
structure Slot where
  data : Option Response
  error : Option String
  waker : Option Nat
  occupied : Bool
  generation : Nat

namespace Slot

def empty : Slot := ⟨none, none, none, false, 0⟩

/-- The visit of `fail_all_pending`. -/
def fail (slot : Slot) (reason : String) : Slot :=
  if slot.occupied then
    { slot with occupied := false, data := none, error := some reason, waker := none }
  else slot

/-- `none` if the slot is taken. -/
def acquire (slot : Slot) (requestId : Nat) : Option Slot :=
  if slot.occupied then none
  else some { slot with occupied := true, generation := requestId, data := none, error := none }

def deliver (slot : Slot) (requestId : Nat) (response : Response) : Slot :=
  if slot.generation = requestId then
    { slot with error := none, data := some response, waker := none }
  else slot

def release (slot : Slot) : Slot := { slot with occupied := false }

/-- Take what is there, the data first. -/
def take (slot : Slot) : Option (Except String Response) × Slot :=
  match slot.data, slot.error with
  | some response, _ => (some (.ok response), { slot with data := none })
  | none, some error => (some (.error error), { slot with error := none })
  | none, none => (none, slot)

/-- `ResponseFuture::poll`: look again after the waker is registered. -/
def poll (slot : Slot) (call : Nat) : Option (Except String Response) × Slot :=
  match slot.take with
  | (some result, slot) => (some result, slot)
  | (none, slot) => { slot with waker := some call }.take

/-- A poll returns the data if there is any, and never puts any back. -/
theorem poll_cases (slot : Slot) (call : Nat) :
    (∃ response, slot.data = some response ∧
        slot.poll call = (some (.ok response), { slot with data := none })) ∨
      slot.data = none ∧ ∃ result next, slot.poll call = (result, next) ∧
        (∀ response, result ≠ some (.ok response)) ∧ next.data = none ∧
        next.occupied = slot.occupied ∧ next.generation = slot.generation := by
  obtain ⟨data, error, waker, occupied, generation⟩ := slot
  cases data with
  | some response => exact .inl ⟨response, rfl, rfl⟩
  | none =>
    cases error with
    | some error | none => exact .inr ⟨rfl, _, _, rfl, by simp, rfl, rfl, rfl⟩

end Slot

/-! ### The connection -/

inductive Call where
  /-- It has a request id and no slot yet. -/
  | numbered (funcId : Nat) (reqBuf : Bytes)
  /-- It waits for room in the channel to the writer. -/
  | sending (buf : Bytes)
  | waiting
  /-- Its future is ready and not dropped yet. -/
  | returned (result : Except String Response)
  /-- `none` if it was cancelled. -/
  | ended (result : Option (Except String Response))
deriving DecidableEq

def Call.isEnded : Call → Bool
  | ended _ => true
  | _ => false

/-- The tasks of the connection. A task that has left its loop frees the slots one
after the other. -/
inductive Task where
  | running
  | failing (slot : Nat)
  | ended
deriving DecidableEq

/-- The table, the calls by their number, the channel to the writer, and what went
over the wire. -/
structure Client where
  slots : Nat → Slot
  calls : Nat → Option Call
  started : Nat
  /-- Some clone of the client is left. -/
  held : Bool
  channel : List Bytes
  writer : Task
  reader : Task
  written : List Bytes
  received : List Bytes

def channelCapacity : Nat := 4096

/-- `next_request_id` starts with 1 and wraps around. -/
def requestId (call : Nat) : Nat := (1 + call) % 2 ^ 32

def slotIndex (requestId : Nat) : Nat := requestId &&& indexMask

def frameOf (requestId funcId : Nat) (reqBuf : Bytes) : Bytes :=
  bigEndian 4 requestId ++ bigEndian 4 funcId ++ reqBuf

/-- The first four bytes of a frame. -/
def idOf (frame : Bytes) : Nat := ofBigEndian (frame.take 4)

/-- The answer of `hand` on the other side to a request. -/
def respond (request responseData : Bytes) : Bytes := bigEndian 4 (idOf request) ++ responseData

namespace Client

def connected : Client := ⟨fun _ => .empty, fun _ => none, 0, true, [], .running, .running, [], []⟩

def setSlot (client : Client) (index : Nat) (slot : Slot) : Client :=
  { client with slots := Function.update client.slots index slot }

def setCall (client : Client) (call : Nat) (state : Call) : Client :=
  { client with calls := Function.update client.calls call (some state) }

variable (client : Client)

@[simp] theorem slots_setSlot (index : Nat) (slot : Slot) :
    (client.setSlot index slot).slots index = slot := Function.update_self ..

theorem slots_setSlot_of_ne {index other : Nat} (slot : Slot) (h : other ≠ index) :
    (client.setSlot index slot).slots other = client.slots other := Function.update_of_ne h ..

@[simp] theorem calls_setCall (call : Nat) (state : Call) :
    (client.setCall call state).calls call = some state := Function.update_self ..

theorem calls_setCall_of_ne {call other : Nat} (state : Call) (h : other ≠ call) :
    (client.setCall call state).calls other = client.calls other := Function.update_of_ne h ..

/-- The slot of a call. -/
def slotOf (client : Client) (call : Nat) : Slot := client.slots (slotIndex (requestId call))

def updateSlotOf (client : Client) (call : Nat) (slot : Slot) : Client :=
  client.setSlot (slotIndex (requestId call)) slot

def start (client : Client) (funcId : Nat) (reqBuf : Bytes) : Option Client :=
  if client.held then
    some { client.setCall client.started (.numbered funcId reqBuf) with
      started := client.started + 1 }
  else none

def acquire (client : Client) (call : Nat) : Option Client :=
  match client.calls call with
  | some (.numbered funcId reqBuf) =>
    match (client.slotOf call).acquire (requestId call) with
    | none => some (client.setCall call (.ended (some (.error "too many requests"))))
    | some slot => some ((client.updateSlotOf call slot).setCall call
        (.sending (frameOf (requestId call) funcId reqBuf)))
  | _ => none

/-- The channel is closed once the writer task is gone with its receiver. -/
def send (client : Client) (call : Nat) : Option Client :=
  match client.calls call with
  | some (.sending buf) =>
    if client.writer = .ended then
      some ((client.updateSlotOf call (client.slotOf call).release).setCall call
        (.ended (some (.error "channel closed"))))
    else if client.channel.length < channelCapacity then
      some { client.setCall call .waiting with channel := client.channel ++ [buf] }
    else none
  | _ => none

def poll (client : Client) (call : Nat) : Option Client :=
  match client.calls call with
  | some .waiting =>
    match (client.slotOf call).poll call with
    | (some result, slot) => some ((client.updateSlotOf call slot).setCall call (.returned result))
    | (none, slot) => some (client.updateSlotOf call slot)
  | _ => none

/-- The future of the call is dropped, finished or not. A call that is dropped while
it is sending has no `ResponseFuture` yet and keeps its slot. -/
def drop (client : Client) (call : Nat) : Option Client :=
  match client.calls call with
  | some (.sending _) => some (client.setCall call (.ended none))
  | some .waiting => some ((client.updateSlotOf call (client.slotOf call).release).setCall call
    (.ended none))
  | some (.returned result) =>
    some ((client.updateSlotOf call (client.slotOf call).release).setCall call
      (.ended (some result)))
  | _ => none

/-- The last clone of the client goes; no call borrows it any more. -/
def release (client : Client) : Option Client :=
  if client.held ∧ ∀ call < client.started, (client.calls call).any Call.isEnded then
    some { client with held := false }
  else none

def write (client : Client) : Option Client :=
  match client.writer, client.channel with
  | .running, buf :: channel =>
    some { client with channel := channel, written := client.written ++ [buf] }
  | _, _ => none

/-- The sink reports an error, whether or not the request got through. -/
def writeFails (client : Client) (through : Bool) : Option Client :=
  match client.writer, client.channel with
  | .running, buf :: channel =>
    some { client with
      channel := channel
      written := if through then client.written ++ [buf] else client.written
      writer := .failing 0 }
  | _, _ => none

def writerCloses (client : Client) : Option Client :=
  if client.writer = .running ∧ client.channel = [] ∧ client.held = false then
    some { client with writer := .failing 0 }
  else none

def failing (client : Client) (index : Nat) (reason : String) : Client :=
  client.setSlot index ((client.slots index).fail reason)

def writerVisits (client : Client) : Option Client :=
  match client.writer with
  | .failing index =>
    if index < maxPending then
      some { client.failing index "connection closed while writing" with
        writer := .failing (index + 1) }
    else some { client with writer := .ended }
  | _ => none

/-- The other side answers what reached it, in any order. -/
def receive (client : Client) (frame : Bytes) : Option Client :=
  if client.reader = .running ∧
      (frame.length < 4 ∨ ∃ request ∈ client.written, frame = respond request (frame.drop 4)) then
    let counted := { client with received := client.received ++ [frame] }
    if frame.length < 4 then some counted
    else
      let index := slotIndex (idOf frame)
      some (counted.setSlot index
        ((client.slots index).deliver (idOf frame) ⟨client.received.length, frame.drop 4⟩))
  else none

def readerCloses (client : Client) : Option Client :=
  if client.reader = .running then some { client with reader := .failing 0 } else none

def readerVisits (client : Client) : Option Client :=
  match client.reader with
  | .failing index =>
    if index < maxPending then
      some { client.failing index "connection closed while reading" with
        reader := .failing (index + 1) }
    else some { client with reader := .ended }
  | _ => none

end Client

inductive RpcEvent where
  | start (funcId : Nat) (reqBuf : Bytes)
  | acquire (call : Nat)
  | send (call : Nat)
  | poll (call : Nat)
  | drop (call : Nat)
  | release
  | write
  | writeFails (through : Bool)
  | writerCloses
  | writerVisits
  | receive (frame : Bytes)
  | readerCloses
  | readerVisits

namespace Client

def step (client : Client) : RpcEvent → Option Client
  | .start funcId reqBuf => client.start funcId reqBuf
  | .acquire call => client.acquire call
  | .send call => client.send call
  | .poll call => client.poll call
  | .drop call => client.drop call
  | .release => client.release
  | .write => client.write
  | .writeFails through => client.writeFails through
  | .writerCloses => client.writerCloses
  | .writerVisits => client.writerVisits
  | .receive frame => client.receive frame
  | .readerCloses => client.readerCloses
  | .readerVisits => client.readerVisits

end Client

/-! ### What correlates calls and responses -/

namespace Call

/-- The call may still look into its slot or free it. -/
def IsActive : Call → Prop
  | sending _ => True
  | waiting => True
  | returned _ => True
  | _ => False

def IsNumbered : Call → Prop
  | numbered _ _ => True
  | _ => False

def response : Call → Option Response
  | returned (.ok response) => some response
  | ended (some (.ok response)) => some response
  | _ => none

end Call

/-- Where a response can be once it is received. -/
inductive Place where
  | slot (index : Nat)
  | call (call : Nat)

namespace Client

def Uses (client : Client) (call index : Nat) : Prop :=
  slotIndex (requestId call) = index ∧ ∃ state ∈ client.calls call, state.IsActive

/-- The response is the body of a received frame with this id. -/
def Carries (client : Client) (response : Response) (id : Nat) : Prop :=
  ∃ frame ∈ client.received[response.number]?, idOf frame = id ∧ frame.drop 4 = response.body

def responseAt (client : Client) : Place → Option Response
  | .slot index => (client.slots index).data
  | .call call => (client.calls call).bind Call.response

/-- Some request with this id reached the other side. -/
def Answerable (client : Client) (id : Nat) : Prop := ∃ request ∈ client.written, idOf request = id

/-- The request of a call that has come as far as its slot. -/
def IsRequest (client : Client) (buf : Bytes) : Prop :=
  ∃ call, ∃ state ∈ client.calls call, ¬ state.IsNumbered ∧ idOf buf = requestId call

/-- As long as both tasks run, the active call of a slot is the one it is occupied by.
When the writer has stopped, later calls are not answered, and when the reader has
stopped, nobody is: so what is in a slot is for everyone who still looks there. -/
structure Correlated (client : Client) : Prop where
  fresh : ∀ call, client.started ≤ call → client.calls call = none
  framed : ∀ call buf, client.calls call = some (.sending buf) → idOf buf = requestId call
  sent : ∀ buf, buf ∈ client.channel ∨ buf ∈ client.written → client.IsRequest buf
  delivered : ∀ index response, (client.slots index).data = some response →
    client.Carries response (client.slots index).generation ∧
    ∀ call, client.Uses call index → requestId call = (client.slots index).generation
  exclusive : client.reader = .running → client.writer = .running → ∀ call index,
    client.Uses call index →
      (client.slots index).occupied = true ∧ (client.slots index).generation = requestId call
  unanswered : client.reader = .running → client.writer ≠ .running → ∀ call index,
    client.Uses call index → client.Answerable (client.slots index).generation →
      requestId call = (client.slots index).generation
  completed : ∀ call response, client.responseAt (.call call) = some response →
    client.Carries response (requestId call)
  once : ∀ place place' response response', client.responseAt place = some response →
    client.responseAt place' = some response' → response.number = response'.number → place = place'

variable {call index : Nat} {state : Call} {next : Client} {response : Response}

theorem requestId_injective {call' : Nat} (h : call < 2 ^ 32) (h' : call' < 2 ^ 32)
    (hSame : requestId call = requestId call') : call = call' := by
  unfold requestId at hSame
  omega

theorem connected_correlated : connected.Correlated where
  fresh _ _ := rfl
  framed _ _ h := by cases h
  sent _ h := by rcases h with h | h <;> cases h
  delivered _ _ h := by cases h
  exclusive _ _ _ _ h := by
    obtain ⟨-, state, hState, -⟩ := h
    cases hState
  unanswered _ h := absurd rfl h
  completed _ _ h := by cases h
  once place _ _ _ h := by cases place <;> cases h

variable {client : Client}

section

variable (h : client.Correlated)

include h

/-- A slot changes. New data is for everybody who looks there and is nowhere else. -/
theorem Correlated.setSlot {slot : Slot}
    (hData : ∀ response, slot.data = some response →
      (client.slots index).data = some response ∧
        slot.generation = (client.slots index).generation ∨
      (client.Carries response slot.generation ∧
        ∀ call, client.Uses call index → requestId call = slot.generation) ∧
        ∀ place other, client.responseAt place = some other → other.number ≠ response.number)
    (hExclusive : client.reader = .running → client.writer = .running → ∀ call,
      client.Uses call index → slot.occupied = true ∧ slot.generation = requestId call)
    (hUnanswered : client.reader = .running → client.writer ≠ .running → ∀ call,
      client.Uses call index → client.Answerable slot.generation →
      requestId call = slot.generation) :
    (client.setSlot index slot).Correlated := by
  have hPlaces (place : Place) (response : Response)
      (hSome : (client.setSlot index slot).responseAt place = some response) :
      client.responseAt place = some response ∨ place = .slot index ∧
        ∀ place other, client.responseAt place = some other → other.number ≠ response.number := by
    cases place with
    | call call => exact .inl hSome
    | slot other =>
      obtain rfl | hOther := eq_or_ne other index
      · rw [responseAt, slots_setSlot] at hSome
        exact (hData response hSome).imp And.left fun hNew => ⟨rfl, hNew.2⟩
      · rw [responseAt, slots_setSlot_of_ne _ _ hOther] at hSome
        exact .inl hSome
  exact {
    fresh := h.fresh
    framed := h.framed
    sent := h.sent
    delivered := fun other response hSome => by
      obtain rfl | hOther := eq_or_ne other index
      · rw [slots_setSlot] at hSome ⊢
        rcases hData response hSome with ⟨hOld, hGeneration⟩ | hNew
        · rw [hGeneration]
          exact h.delivered other response hOld
        · exact hNew.1
      · rw [slots_setSlot_of_ne _ _ hOther] at hSome ⊢
        exact h.delivered other response hSome
    exclusive := fun hReader hWriter call other hUses => by
      obtain rfl | hOther := eq_or_ne other index
      · rw [slots_setSlot]
        exact hExclusive hReader hWriter call hUses
      · rw [slots_setSlot_of_ne _ _ hOther]
        exact h.exclusive hReader hWriter call other hUses
    unanswered := fun hReader hWriter call other hUses => by
      obtain rfl | hOther := eq_or_ne other index
      · rw [slots_setSlot]
        exact hUnanswered hReader hWriter call hUses
      · rw [slots_setSlot_of_ne _ _ hOther]
        exact h.unanswered hReader hWriter call other hUses
    completed := h.completed
    once := fun place place' first second hFirst hSecond hNumber => by
      rcases hPlaces place first hFirst with hOld | ⟨hPlace, hNew⟩ <;>
        rcases hPlaces place' second hSecond with hOld' | ⟨hPlace', hNew'⟩
      · exact h.once place place' first second hOld hOld' hNumber
      · exact absurd hNumber (hNew' place first hOld)
      · exact absurd hNumber.symm (hNew place' second hOld')
      · rw [hPlace, hPlace'] }

/-- The owner of a slot stays the same. -/
theorem Correlated.weaken {slot : Slot}
    (hData : slot.data = none ∨ slot.data = (client.slots index).data)
    (hGeneration : slot.generation = (client.slots index).generation)
    (hOccupied : client.reader = .running → client.writer = .running → ∀ call,
      client.Uses call index → slot.occupied = (client.slots index).occupied) :
    (client.setSlot index slot).Correlated := by
  refine h.setSlot (fun response hSome => .inl ⟨?_, hGeneration⟩)
    (fun hReader hWriter call hUses => ?_) ?_
  · rcases hData with hNone | hSame
    · rw [hNone] at hSome
      cases hSome
    · rw [← hSame, hSome]
  · rw [hOccupied hReader hWriter call hUses, hGeneration]
    exact h.exclusive hReader hWriter call index hUses
  · rw [hGeneration]
    exact fun hReader hWriter call => h.unanswered hReader hWriter call index

/-- A call goes on, perhaps into its slot, and perhaps with a response that is nowhere
else. -/
theorem Correlated.setCall {started : Nat} (hStarted : client.started ≤ started ∧ call < started)
    (hActive : state.IsActive → (∃ old ∈ client.calls call, old.IsActive) ∨
      (client.slotOf call).data = none ∧ (client.slotOf call).occupied = true ∧
      (client.slotOf call).generation = requestId call)
    (hNumbered : state.IsNumbered → client.calls call = none)
    (hSending : ∀ buf, state = .sending buf → idOf buf = requestId call)
    (hResponse : ∀ response, state.response = some response →
      client.Carries response (requestId call) ∧ ∀ place response',
      client.responseAt place = some response' → response'.number = response.number →
      place = .call call) :
    { client.setCall call state with started }.Correlated := by
  have hSelf := client.calls_setCall call state
  have hOthers {other : Nat} (hOther : other ≠ call) := client.calls_setCall_of_ne state hOther
  have hUses (other index : Nat) (hUses : (client.setCall call state).Uses other index) :
      client.Uses other index ∨ (client.slots index).data = none ∧
        (client.slots index).occupied = true ∧
          (client.slots index).generation = requestId other := by
    obtain ⟨hIndex, now, hNow, hIs⟩ := hUses
    by_cases hOther : other = call
    · subst hOther
      rw [hSelf] at hNow
      cases hNow
      refine (hActive hIs).imp (fun hOld => ⟨hIndex, hOld⟩) fun hSlot => ?_
      rwa [slotOf, hIndex] at hSlot
    · rw [hOthers hOther] at hNow
      exact .inl ⟨hIndex, now, hNow, hIs⟩
  have hPlaces (place : Place) (response : Response)
      (hSome : (client.setCall call state).responseAt place = some response) :
      client.responseAt place = some response ∨ place = .call call ∧
        state.response = some response := by
    cases place with
    | slot index => exact .inl hSome
    | call other =>
      by_cases hOther : other = call
      · subst hOther
        exact .inr ⟨rfl, by simpa [responseAt, hSelf] using hSome⟩
      · exact .inl (by simpa [responseAt, hOthers hOther] using hSome)
  exact {
    fresh := fun other hLate => by
      have hOther : other ≠ call := by
        have hLate : started ≤ other := hLate
        omega
      exact (hOthers hOther).trans (h.fresh other (hStarted.1.trans hLate))
    framed := fun other buf hSome => by
      by_cases hOther : other = call
      · subst hOther
        exact hSending buf (Option.some.inj (hSelf.symm.trans hSome))
      · exact h.framed other buf ((hOthers hOther).symm.trans hSome)
    sent := fun buf hBuf => by
      obtain ⟨other, now, hNow, hLater, hId⟩ := h.sent buf hBuf
      by_cases hOther : other = call
      · subst hOther
        refine ⟨other, state, hSelf, fun hState => ?_, hId⟩
        rw [hNumbered hState] at hNow
        cases hNow
      · exact ⟨other, now, (hOthers hOther).trans hNow, hLater, hId⟩
    delivered := fun index response hSome => by
      refine ⟨(h.delivered index response hSome).1, fun other hOther => ?_⟩
      rcases hUses other index hOther with hOld | hNew
      · exact (h.delivered index response hSome).2 other hOld
      · exact hNew.2.2.symm
    exclusive := fun hReader hWriter other index hOther => by
      rcases hUses other index hOther with hOld | hNew
      · exact h.exclusive hReader hWriter other index hOld
      · exact hNew.2
    unanswered := fun hReader hWriter other index hOther hAnswerable => by
      rcases hUses other index hOther with hOld | hNew
      · exact h.unanswered hReader hWriter other index hOld hAnswerable
      · exact hNew.2.2.symm
    completed := fun other response hSome => by
      rcases hPlaces (.call other) response hSome with hOld | ⟨hCall, hNew⟩
      · exact h.completed other response hOld
      · cases hCall
        exact (hResponse response hNew).1
    once := fun place place' response response' hPlace hPlace' hNumber => by
      rcases hPlaces place response hPlace with hOld | ⟨hCall, hNew⟩ <;>
        rcases hPlaces place' response' hPlace' with hOld' | ⟨hCall', hNew'⟩
      · exact h.once place place' response response' hOld hOld' hNumber
      · rw [hCall']
        exact (hResponse response' hNew').2 place response hOld hNumber
      · rw [hCall]
        exact ((hResponse response hNew).2 place' response' hOld' hNumber.symm).symm
      · rw [hCall, hCall'] }

theorem Correlated.lt_started (hState : client.calls call = some state) :
    call < client.started := by
  by_contra hLate
  rw [h.fresh call (Nat.le_of_not_lt hLate)] at hState
  cases hState

/-- A call that is under way goes on without a new response. -/
theorem Correlated.proceed {old : Call} (hOld : client.calls call = some old)
    (hActive : state.IsActive → old.IsActive) (hNumbered : ¬ state.IsNumbered)
    (hSending : ∀ buf, state ≠ .sending buf)
    (hResponse : state.response = none ∨ state.response = old.response) :
    (client.setCall call state).Correlated := by
  refine h.setCall ⟨Nat.le_refl _, h.lt_started hOld⟩ (fun hIs => .inl ⟨old, hOld, hActive hIs⟩)
    (fun hIs => absurd hIs hNumbered)
      (fun buf hIs => absurd hIs (hSending buf)) fun response hSome => ?_
  have hKept : client.responseAt (.call call) = some response := by
    rcases hResponse with hNone | hKept
    · rw [hNone] at hSome
      cases hSome
    · simpa [responseAt, hOld] using hKept.symm.trans hSome
  exact ⟨h.completed call response hKept, fun place response' hPlace hNumber =>
    h.once place _ response' response hPlace hKept hNumber⟩

/-- The tasks and the channel go on. A request is put on the wire by a running writer
only. -/
theorem Correlated.wire {channel written : List Bytes} {writer reader : Task} {held : Bool}
    (hSent : ∀ buf, buf ∈ channel ∨ buf ∈ written → client.IsRequest buf)
    (hWriter : writer = .running → client.writer = .running)
    (hReader : reader = .running → client.reader = .running)
    (hWritten : client.writer ≠ .running → written = client.written) :
    { client with channel, written, writer, reader, held }.Correlated where
  fresh := h.fresh
  framed := h.framed
  sent := hSent
  delivered := h.delivered
  exclusive hR hW := h.exclusive (hReader hR) (hWriter hW)
  unanswered hR _ call index hUses hAnswerable := by
    by_cases hRunning : client.writer = .running
    · exact (h.exclusive (hReader hR) hRunning call index hUses).2.symm
    · obtain ⟨request, hRequest, hId⟩ := hAnswerable
      exact h.unanswered (hReader hR) hRunning call index hUses
        ⟨request, hWritten hRunning ▸ hRequest, hId⟩
  completed := h.completed
  once := h.once

end

/-! ### The steps -/

theorem idOf_append {id : Nat} (hId : id < 2 ^ 32) (rest : Bytes) :
    idOf (bigEndian 4 id ++ rest) = id := by
  have hTake : (bigEndian 4 id ++ rest).take 4 = bigEndian 4 id := by
    rw [List.take_append_of_le_length (by simp), List.take_of_length_le (by simp)]
  rw [idOf, hTake]
  exact Library.ofBigEndian_bigEndian hId

theorem idOf_lt (frame : Bytes) : idOf frame < 2 ^ 32 := by
  have hLength : (frame.take 4).length ≤ 4 := by
    rw [List.length_take]
    exact Nat.min_le_left ..
  calc idOf frame < 256 ^ (frame.take 4).length := Library.ofBigEndian_lt _
    _ ≤ 256 ^ 4 := Nat.pow_le_pow_right (by decide) hLength

theorem requestId_lt (call : Nat) : requestId call < 2 ^ 32 := Nat.mod_lt _ (by decide)

section

variable (h : client.Correlated)

include h

/-- No answer to a call can be on the way before it has its slot. -/
theorem Correlated.not_answerable (hCalls : client.started ≤ 2 ^ 32)
    (hState : client.calls call = some state) (hNumbered : state.IsNumbered) :
    ¬ client.Answerable (requestId call) := by
  rintro ⟨request, hRequest, hId⟩
  obtain ⟨other, now, hNow, hLater, hOther⟩ := h.sent request (.inr hRequest)
  have hSame : call = other := requestId_injective ((h.lt_started hState).trans_le hCalls)
    ((h.lt_started hNow).trans_le hCalls) (hId.symm.trans hOther)
  subst hSame
  rw [hState] at hNow
  cases hNow
  exact hLater hNumbered

/-- Whoever looks into a slot whose generation is answered is its owner. -/
theorem Correlated.owner (hReader : client.reader = .running) (hUses : client.Uses call index)
    (hAnswerable : client.Answerable (client.slots index).generation) :
    requestId call = (client.slots index).generation := by
  by_cases hWriter : client.writer = .running
  · exact (h.exclusive hReader hWriter call index hUses).2.symm
  · exact h.unanswered hReader hWriter call index hUses hAnswerable

theorem Correlated.acquire (hCalls : client.started ≤ 2 ^ 32)
    (hStep : client.acquire call = some next) : next.Correlated := by
  unfold Client.acquire at hStep
  split at hStep
  next funcId reqBuf hCall =>
    split at hStep
    · cases hStep
      exact h.proceed hCall False.elim id (by simp) (.inl rfl)
    next slot hSlot =>
      cases hStep
      have hFree : (client.slotOf call).occupied = false := by
        by_contra hTaken
        rw [Slot.acquire, if_pos (by simpa using hTaken)] at hSlot
        cases hSlot
      rw [Slot.acquire, if_neg (by simp [hFree])] at hSlot
      cases hSlot
      have hNext : (client.updateSlotOf call { client.slotOf call with
          occupied := true, generation := requestId call, data := none, error :=
            none }).Correlated :=
        h.setSlot (by simp)
        (fun hReader hWriter other hUses => by
          have hTaken := (h.exclusive hReader hWriter other _ hUses).1
          rw [slotOf] at hFree
          rw [hFree] at hTaken
          cases hTaken)
        (fun _ _ _ _ hAnswerable => absurd hAnswerable (h.not_answerable hCalls hCall trivial))
      refine hNext.setCall ⟨Nat.le_refl _, h.lt_started hCall⟩ (fun _ => .inr ?_) False.elim
        (fun buf hBuf => ?_) (by simp [Call.response])
      · rw [slotOf, updateSlotOf, slots_setSlot]
        exact ⟨rfl, rfl, rfl⟩
      · cases hBuf
        exact idOf_append (requestId_lt call) _
  · cases hStep

theorem Correlated.start {funcId : Nat} {reqBuf : Bytes}
    (hStep : client.start funcId reqBuf = some next) : next.Correlated := by
  obtain ⟨-, ⟨⟩⟩ := Option.ite_none_right_eq_some.mp hStep
  exact h.setCall ⟨Nat.le_succ _, Nat.lt_succ_self _⟩ False.elim
    (fun _ => h.fresh _ (Nat.le_refl _)) (by simp) (by simp [Call.response])

/-- A call that frees its slot is its only user, as long as both tasks run. -/
theorem Correlated.leave {old : Call} {result : Option (Except String Response)}
    (hCalls : client.started ≤ 2 ^ 32) (hOld : client.calls call = some old)
    (hActive : old.IsActive)
    (hResponse : (Call.ended result).response = none ∨ (Call.ended result).response =
      old.response) :
    ((client.updateSlotOf call (client.slotOf call).release).setCall call
      (.ended result)).Correlated := by
  have hLeft := h.proceed hOld False.elim id (by simp) hResponse
  refine hLeft.weaken (.inr rfl) rfl fun hReader hWriter other hUses => ?_
  obtain ⟨hIndex, state, hState, hIs⟩ := hUses
  by_cases hOther : other = call
  · subst hOther
    rw [calls_setCall] at hState
    cases hState
    exact hIs.elim
  · rw [calls_setCall_of_ne _ _ hOther] at hState
    have hMine := h.exclusive hReader hWriter call _ ⟨rfl, old, hOld, hActive⟩
    have hOthers := h.exclusive hReader hWriter other _ ⟨hIndex, state, hState, hIs⟩
    exact absurd (requestId_injective ((h.lt_started hState).trans_le hCalls)
      ((h.lt_started hOld).trans_le hCalls) (hOthers.2.symm.trans hMine.2)) hOther

theorem Correlated.send (hCalls : client.started ≤ 2 ^ 32) (hStep : client.send call = some next) :
    next.Correlated := by
  unfold Client.send at hStep
  split at hStep
  next buf hCall =>
    split at hStep
    · cases hStep
      exact h.leave hCalls hCall trivial (.inl rfl)
    obtain ⟨-, ⟨⟩⟩ := Option.ite_none_right_eq_some.mp hStep
    have hNext : (client.setCall call .waiting).Correlated :=
      h.proceed hCall (fun _ => trivial) id (by simp) (.inl rfl)
    refine hNext.wire (fun other hOther => ?_) id id (fun _ => rfl)
    rw [List.mem_append, List.mem_singleton, or_right_comm] at hOther
    rcases hOther with hOther | rfl
    · exact hNext.sent other hOther
    · exact ⟨call, .waiting, calls_setCall .., id, h.framed call other hCall⟩
  · cases hStep

theorem Correlated.poll (hStep : client.poll call = some next) : next.Correlated := by
  unfold Client.poll at hStep
  split at hStep
  next hCall =>
    have hUses : client.Uses call (slotIndex (requestId call)) := ⟨rfl, .waiting, hCall, trivial⟩
    rcases (client.slotOf call).poll_cases call with
      ⟨response, hData, hPoll⟩ | ⟨-, result, slot, hPoll, hResult, hNone, hOccupied, hGeneration⟩
    · rw [hPoll] at hStep
      cases hStep
      have hTaken :
          (client.updateSlotOf call { client.slotOf call with data := none }).Correlated :=
        h.weaken (.inl rfl) rfl fun _ _ _ _ => rfl
      have hDelivered := h.delivered _ response hData
      refine hTaken.setCall ⟨Nat.le_refl _,
        h.lt_started hCall⟩ (fun _ => .inl ⟨.waiting, hCall, trivial⟩) False.elim (by simp)
          fun other hOther => ?_
      cases hOther
      refine ⟨hDelivered.2 call hUses ▸ hDelivered.1, fun place other hPlace hNumber => ?_⟩
      -- it was in the slot only, and there it is no more
      by_cases hSlot : place = .slot (slotIndex (requestId call))
      · rw [hSlot, responseAt, updateSlotOf, slots_setSlot] at hPlace
        cases hPlace
      · have hOld : client.responseAt place = some other := by
          cases place with
          | call _ => exact hPlace
          | slot index =>
            have hIndex : index ≠ slotIndex (requestId call) :=
              fun hSame => hSlot (congrArg _ hSame)
            rwa [responseAt, updateSlotOf, slots_setSlot_of_ne _ _ hIndex] at hPlace
        exact absurd (h.once place (.slot _) other response hOld hData hNumber) hSlot
    · rw [hPoll] at hStep
      have hNext : (client.updateSlotOf call slot).Correlated :=
        h.weaken (.inl hNone) hGeneration fun _ _ _ _ => hOccupied
      split at hStep
      next result' slot' hEq =>
        cases hEq
        cases hStep
        refine hNext.proceed hCall (fun _ => trivial) id (by simp) (.inl ?_)
        cases result' with
        | ok response => exact absurd rfl (hResult response)
        | error error => rfl
      next hEq =>
        cases hEq
        cases hStep
        exact hNext
  · cases hStep

theorem Correlated.drop (hCalls : client.started ≤ 2 ^ 32) (hStep : client.drop call = some next) :
    next.Correlated := by
  unfold Client.drop at hStep
  split at hStep
  next buf hCall =>
    cases hStep
    exact h.proceed hCall False.elim id (by simp) (.inl rfl)
  next hCall =>
    cases hStep
    exact h.leave hCalls hCall trivial (.inl rfl)
  next result hCall =>
    cases hStep
    refine h.leave hCalls hCall trivial (.inr ?_)
    cases result <;> rfl
  · cases hStep

theorem Correlated.release (hStep : client.release = some next) : next.Correlated := by
  obtain ⟨-, ⟨⟩⟩ := Option.ite_none_right_eq_some.mp hStep
  exact h.wire h.sent id id fun _ => rfl

theorem Correlated.write (hStep : client.write = some next) : next.Correlated := by
  unfold Client.write at hStep
  split at hStep
  next buf channel hWriter hChannel =>
    cases hStep
    refine h.wire (fun other hOther => h.sent other ?_) id id fun hStopped =>
      absurd hWriter hStopped
    rw [hChannel, List.mem_cons]
    rw [List.mem_append, List.mem_singleton] at hOther
    tauto
  · cases hStep

theorem Correlated.writeFails {through : Bool} (hStep : client.writeFails through = some next) :
    next.Correlated := by
  unfold Client.writeFails at hStep
  split at hStep
  next buf channel hWriter hChannel =>
    cases hStep
    refine h.wire (fun other hOther => h.sent other ?_) (fun _ => hWriter) id
      fun hStopped => absurd hWriter hStopped
    rw [hChannel, List.mem_cons]
    cases through
    · exact hOther.imp_left .inr
    · rw [if_pos rfl, List.mem_append, List.mem_singleton] at hOther
      tauto
  · cases hStep

theorem Correlated.writerCloses (hStep : client.writerCloses = some next) : next.Correlated := by
  obtain ⟨hReady, ⟨⟩⟩ := Option.ite_none_right_eq_some.mp hStep
  exact h.wire h.sent (fun _ => hReady.1) id fun _ => rfl

theorem Correlated.readerCloses (hStep : client.readerCloses = some next) : next.Correlated := by
  obtain ⟨hRunning, ⟨⟩⟩ := Option.ite_none_right_eq_some.mp hStep
  exact h.wire h.sent id (fun _ => hRunning) fun _ => rfl

/-- A slot is freed under its owner only when one of the tasks has stopped. -/
theorem Correlated.failing (index : Nat) (reason : String)
    (hStopped : client.reader ≠ .running ∨ client.writer ≠ .running) :
    (client.failing index reason).Correlated := by
  rw [Client.failing, Slot.fail]
  split
  · exact h.weaken (.inl rfl) rfl fun hReader hWriter => by simp [hReader, hWriter] at hStopped
  · exact h.weaken (.inr rfl) rfl fun _ _ _ _ => rfl

theorem Correlated.writerVisits (hStep : client.writerVisits = some next) : next.Correlated := by
  unfold Client.writerVisits at hStep
  split at hStep
  next index hWriter =>
    have hFailed := h.failing index "connection closed while writing" (.inr (by simp [hWriter]))
    split at hStep
    · cases hStep
      exact hFailed.wire hFailed.sent nofun id fun _ => rfl
    · cases hStep
      exact h.wire h.sent nofun id fun _ => rfl
  · cases hStep

theorem Correlated.readerVisits (hStep : client.readerVisits = some next) : next.Correlated := by
  unfold Client.readerVisits at hStep
  split at hStep
  next index hReader =>
    have hFailed := h.failing index "connection closed while reading" (.inl (by simp [hReader]))
    split at hStep
    · cases hStep
      exact hFailed.wire hFailed.sent id nofun fun _ => rfl
    · cases hStep
      exact h.wire h.sent id nofun fun _ => rfl
  · cases hStep

end

/-! ### A frame arrives -/

theorem Carries.number_lt {id : Nat} (h : client.Carries response id) :
    response.number < client.received.length := by
  obtain ⟨frame, hFrame, -⟩ := h
  exact (List.getElem?_eq_some_iff.mp hFrame).1

theorem Correlated.number_lt (h : client.Correlated) {place : Place}
    (hPlace : client.responseAt place = some response) :
    response.number < client.received.length := by
  cases place with
  | slot index => exact (h.delivered index response hPlace).1.number_lt
  | call call => exact (h.completed call response hPlace).number_lt

/-- The frame is counted, and nothing else happens. -/
theorem Correlated.counted (h : client.Correlated) (frame : Bytes) :
    { client with received := client.received ++ [frame] }.Correlated := by
  have hCarries {response : Response} {id : Nat} (hOld : client.Carries response id) :
      { client with received := client.received ++ [frame] }.Carries response id := by
    have hBelow := hOld.number_lt
    obtain ⟨other, hOther, hSame⟩ := hOld
    exact ⟨other, (List.getElem?_append_left hBelow).trans hOther, hSame⟩
  exact {
    fresh := h.fresh
    framed := h.framed
    sent := h.sent
    delivered := fun index response hSome =>
      ⟨hCarries (h.delivered index response hSome).1, (h.delivered index response hSome).2⟩
    exclusive := h.exclusive
    unanswered := h.unanswered
    completed := fun call response hSome => hCarries (h.completed call response hSome)
    once := h.once }

theorem Correlated.receive (h : client.Correlated) {frame : Bytes}
    (hStep : client.receive frame = some next) : next.Correlated := by
  obtain ⟨hReady, hStep⟩ := Option.ite_none_right_eq_some.mp hStep
  have hCounted := h.counted frame
  split at hStep
  · cases hStep
    exact hCounted
  next hLong =>
    cases hStep
    rw [Slot.deliver]
    split
    next hGeneration =>
      obtain ⟨request, hRequest, hFrame⟩ := hReady.2.resolve_left hLong
      have hAnswerable : client.Answerable (client.slots (slotIndex (idOf frame))).generation := by
        refine ⟨request, hRequest, ?_⟩
        rw [hGeneration, hFrame, respond, idOf_append (idOf_lt request)]
      refine hCounted.setSlot (fun response hSome => .inr ⟨⟨?_, fun call hUses => ?_⟩, ?_⟩)
        (fun hReader hWriter call => hCounted.exclusive hReader hWriter call _)
        fun hReader hWriter call => hCounted.unanswered hReader hWriter call _
      · cases hSome
        exact ⟨frame, List.getElem?_concat_length .., hGeneration.symm, rfl⟩
      · exact h.owner hReady.1 hUses hAnswerable
      · cases hSome
        exact fun place other hPlace => (h.number_lt hPlace).ne
    · exact hCounted.weaken (.inr rfl) rfl fun _ _ _ _ => rfl

/-! ### Whole runs -/

theorem Correlated.step (h : client.Correlated) (hCalls : client.started ≤ 2 ^ 32)
    {event : RpcEvent} (hStep : client.step event = some next) : next.Correlated := by
  cases event with
  | start funcId reqBuf => exact h.start hStep
  | acquire call => exact h.acquire hCalls hStep
  | send call => exact h.send hCalls hStep
  | poll call => exact h.poll hStep
  | drop call => exact h.drop hCalls hStep
  | release => exact h.release hStep
  | write => exact h.write hStep
  | writeFails through => exact h.writeFails hStep
  | writerCloses => exact h.writerCloses hStep
  | writerVisits => exact h.writerVisits hStep
  | receive frame => exact h.receive hStep
  | readerCloses => exact h.readerCloses hStep
  | readerVisits => exact h.readerVisits hStep

theorem started_le_of_step {event : RpcEvent} (hStep : client.step event = some next) :
    client.started ≤ next.started := by
  cases event <;>
    simp only [step, start, acquire, send, poll, drop, release, write, writeFails, writerCloses,
      writerVisits, receive, readerCloses, readerVisits] at hStep <;>
    repeat' split at hStep
  all_goals cases hStep
  all_goals first | exact Nat.le_refl _ | exact Nat.le_succ _

theorem correlated_of_reachable (hRun : Reachable step connected client)
    (hCalls : client.started ≤ 2 ^ 32) : client.Correlated := by
  refine hRun.invariant (fun client => client.started ≤ 2 ^ 32 → client.Correlated)
    (fun _ => connected_correlated) (fun client event next hInv hStep hNext => ?_) hCalls
  have hBefore := (started_le_of_step hStep).trans hNext
  exact (hInv hBefore).step hBefore hStep

/-- The call has got its response. -/
def Completes (client : Client) (call : Nat) (response : Response) : Prop :=
  ∃ state ∈ client.calls call, state.response = some response

/-- A call that succeeds returns the body of a frame with its own id, and no frame is
returned by two calls. -/
theorem responses_correlated (hRun : Reachable step connected client)
    (hCalls : client.started ≤ 2 ^ 32) :
    (∀ call response, client.Completes call response → client.Carries response (requestId call)) ∧
      ∀ call call' response response', client.Completes call response →
        client.Completes call' response' → response.number = response'.number → call = call' := by
  have hCorrelated := correlated_of_reachable hRun hCalls
  have hAt {call : Nat} {response : Response} (hCompletes : client.Completes call response) :
      client.responseAt (.call call) = some response := by
    obtain ⟨state, hState, hResponse⟩ := hCompletes
    rw [responseAt, hState, Option.bind_some, hResponse]
  refine ⟨fun call response hCompletes => hCorrelated.completed call response (hAt hCompletes),
    fun call call' response response' hFirst hSecond hNumber => ?_⟩
  exact Place.call.inj (hCorrelated.once _ _ response response' (hAt hFirst) (hAt hSecond) hNumber)

/-- Two calls that are answered in the other order. -/
def crossedAnswers : List RpcEvent :=
  [.start 7 [], .acquire 0, .send 0, .start 7 [], .acquire 1, .send 1, .write, .write,
    .receive [0, 0, 0, 2, 20], .receive [0, 0, 0, 1, 10], .poll 0, .poll 1, .drop 0, .drop 1]

theorem responses_correlated_crossedAnswers :
    ∃ client, Library.run step connected crossedAnswers = some client ∧
      client.Completes 0 ⟨1, [10]⟩ ∧ client.Carries ⟨1, [10]⟩ 1 := by
  have hRun : ((Library.run step connected crossedAnswers).map fun client =>
      (client.started, client.calls 0)) = some (2, some (.ended (some (.ok ⟨1, [10]⟩)))) := by
    decide +kernel
  obtain ⟨client, hClient, hCalls⟩ := Option.map_eq_some_iff.mp hRun
  obtain ⟨hStarted, hCall⟩ := Prod.mk.inj hCalls
  have hCompletes : client.Completes 0 ⟨1, [10]⟩ := ⟨_, hCall, rfl⟩
  exact ⟨client, hClient, hCompletes,
    (responses_correlated ⟨_, hClient⟩ (by rw [hStarted]; decide)).1 0 _ hCompletes⟩

end Client

end CacheCat.Raft
