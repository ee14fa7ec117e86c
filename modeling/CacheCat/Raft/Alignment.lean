import CacheCat.Raft.PipelineClient
import Mathlib.Data.List.Nodup

/-! The invariant of a pipelined connection. The n-th frame that was written is the n-th
request that arrives, the n-th future, the n-th response and goes to the n-th callback. -/
namespace CacheCat.Raft.Pipeline

open Library (Link)

variable {Request Response : Type}

/-! ### What the steps do to the calls -/

def Stage.answer : Stage Response → Option (Answer Response)
  | waiting (.sent answer) => some answer
  | returned answer => some answer
  | _ => none

namespace Calls

variable (calls : Calls Request Response)

def requestOf (call : Nat) : Option Request := (calls call).map Call.request

def answerOf (call : Nat) : Option (Answer Response) :=
  (calls call).bind fun state => state.stage.answer

/-- The request has been handed to the writer task. -/
def Submitted (call : Nat) : Prop := ∃ state, calls call = some state ∧ state.stage ≠ .sending

/-- No request changes or is taken back. -/
structure Grows (calls next : Calls Request Response) : Prop where
  requestOf : ∀ call request, calls.requestOf call = some request →
    next.requestOf call = some request
  submitted : ∀ call, calls.Submitted call → next.Submitted call

/-- Besides, there is no new call. -/
structure Advances (calls next : Calls Request Response) : Prop extends Grows calls next where
  unstarted : ∀ call, calls call = none → next call = none

/-- Nobody is given a result. -/
def Quiet (calls next : Calls Request Response) : Prop :=
  ∀ call result, next.answerOf call = some (.result result) →
    calls.answerOf call = some (.result result)

structure Fails (calls next : Calls Request Response) : Prop extends Advances calls next where
  quiet : calls.Quiet next

variable {calls}

theorem Fails.refl (calls : Calls Request Response) : calls.Fails calls :=
  ⟨⟨⟨fun _ _ => id, fun _ => id⟩, fun _ => id⟩, fun _ _ => id⟩

theorem Fails.trans {middle last : Calls Request Response} (h : calls.Fails middle)
    (hLast : middle.Fails last) : calls.Fails last where
  requestOf call request hRequest :=
    hLast.requestOf call request (h.requestOf call request hRequest)
  submitted call hSubmitted := hLast.submitted call (h.submitted call hSubmitted)
  unstarted call hNone := hLast.unstarted call (h.unstarted call hNone)
  quiet call result hAnswer := h.quiet call result (hLast.quiet call result hAnswer)

theorem requestOf_setStage (calls : Calls Request Response) (call other : Nat)
    (stage : Stage Response) :
    (calls.setStage call stage).requestOf other = calls.requestOf other := by
  unfold setStage
  split
  next state hState =>
    unfold requestOf
    by_cases hSame : other = call
    · rw [hSame, Function.update_self, hState]
      rfl
    · rw [Function.update_of_ne hSame]
  · rfl

variable {call : Nat} {stage : Stage Response}

variable {other : Nat}

theorem submitted_setStage (hStage : stage ≠ .sending) (hOther : calls.Submitted other) :
    (calls.setStage call stage).Submitted other := by
  unfold setStage
  split
  · obtain ⟨old, hOld, hOldStage⟩ := hOther
    by_cases hSame : other = call
    · rw [hSame]
      exact ⟨_, Function.update_self .., hStage⟩
    · exact ⟨old, (Function.update_of_ne hSame _ _).trans hOld, hOldStage⟩
  · exact hOther

theorem answerOf_setStage {answer : Answer Response}
    (hAnswer : (calls.setStage call stage).answerOf other = some answer) :
    calls.answerOf other = some answer ∨ other = call ∧ stage.answer = some answer := by
  unfold setStage at hAnswer
  split at hAnswer
  · unfold answerOf at hAnswer
    by_cases hSame : other = call
    · rw [hSame, Function.update_self] at hAnswer
      exact .inr ⟨hSame, hAnswer⟩
    · rw [Function.update_of_ne hSame] at hAnswer
      exact .inl hAnswer
  · exact .inl hAnswer

theorem Advances.setStage (calls : Calls Request Response) (call : Nat)
    (hStage : stage ≠ .sending) : calls.Advances (calls.setStage call stage) where
  requestOf other _ hRequest := (calls.requestOf_setStage call other stage).trans hRequest
  submitted _ hOther := submitted_setStage hStage hOther
  unstarted other hNone := by
    have hRequest := calls.requestOf_setStage call other stage
    rw [Calls.requestOf, Calls.requestOf, hNone, Option.map_none,
      Option.map_eq_none_iff] at hRequest
    exact hRequest

theorem Fails.setStage (hStage : stage ≠ .sending)
    (hAnswer : ∀ result, stage.answer = some (.result result) →
      calls.answerOf call = some (.result result)) : calls.Fails (calls.setStage call stage) := by
  refine ⟨.setStage calls call hStage, fun other result hOther => ?_⟩
  obtain hBefore | ⟨rfl, hNew⟩ := answerOf_setStage hOther
  · exact hBefore
  · exact hAnswer result hNew

theorem submitted_setStage_self {state : Call Request Response} (hState : calls call = some state)
    (hStage : stage ≠ .sending) : (calls.setStage call stage).Submitted call := by
  rw [setStage, hState]
  exact ⟨_, Function.update_self .., hStage⟩

/-- A new call. -/
theorem Grows.add (hNew : calls call = none) (request : Request) :
    calls.Grows (Function.update calls call (some ⟨request, .sending⟩)) := by
  have hOther {other : Nat} {state : Call Request Response} (hState : calls other = some state) :
      Function.update calls call (some ⟨request, .sending⟩) other = some state := by
    rw [Function.update_of_ne, hState]
    rintro rfl
    rw [hNew] at hState
    cases hState
  constructor
  case requestOf =>
    intro other request' hRequest
    obtain ⟨state, hState, rfl⟩ := Option.map_eq_some_iff.mp hRequest
    rw [Calls.requestOf, hOther hState, Option.map_some]
  case submitted =>
    rintro other ⟨state, hState, hStage⟩
    exact ⟨state, hOther hState, hStage⟩

theorem Quiet.add (calls : Calls Request Response) (call : Nat) (request : Request) :
    calls.Quiet (Function.update calls call (some ⟨request, .sending⟩)) := by
  intro other result hAnswer
  by_cases hSame : other = call
  · rw [answerOf, hSame, Function.update_self] at hAnswer
    cases hAnswer
  · rwa [answerOf, Function.update_of_ne hSame] at hAnswer

theorem settle_cases (calls : Calls Request Response) (call : Nat) (reply : Reply Response) :
    calls.settle call reply = calls.setStage call (.waiting reply) ∨
      calls.settle call reply = calls := by
  unfold settle
  split
  · exact .inl rfl
  · exact .inr rfl

theorem Advances.settle (calls : Calls Request Response) (call : Nat) (reply : Reply Response) :
    calls.Advances (calls.settle call reply) := by
  obtain hCase | hCase := calls.settle_cases call reply
  · rw [hCase]
    exact .setStage calls call nofun
  · rw [hCase]
    exact (Fails.refl calls).toAdvances

theorem answerOf_settle {reply : Reply Response} {answer : Answer Response}
    (hAnswer : (calls.settle call reply).answerOf other = some answer) :
    calls.answerOf other = some answer ∨ other = call ∧ reply = .sent answer := by
  obtain hCase | hCase := calls.settle_cases call reply
  · rw [hCase] at hAnswer
    refine (answerOf_setStage hAnswer).imp_right fun hNew => ⟨hNew.1, ?_⟩
    cases reply with
    | sent given => exact congrArg Reply.sent (Option.some.inj hNew.2)
    | pending | closed => cases hNew.2
  · rw [hCase] at hAnswer
    exact .inl hAnswer

theorem Fails.settle {reply : Reply Response} (hReply : ∀ result, reply ≠ .sent (.result result)) :
    calls.Fails (calls.settle call reply) := by
  refine ⟨.settle calls call reply, fun other result hAnswer => ?_⟩
  exact (answerOf_settle hAnswer).resolve_right fun hNew => hReply result hNew.2

theorem Fails.closeAll (calls : Calls Request Response) (channel : List Nat) :
    calls.Fails (calls.closeAll channel) := by
  induction channel generalizing calls with
  | nil => exact .refl calls
  | cons call channel ih =>
    have hClosed : ∀ result, (Reply.closed : Reply Response) ≠ .sent (.result result) :=
      fun _ => nofun
    exact (Fails.settle hClosed).trans (ih _)

end Calls

/-! ### What is kept -/

section

variable (codecs : Codecs Request Response)

/-- The frame is the request of the call. -/
def Calls.Frames (calls : Calls Request Response) (call : Nat) (frame : Bytes) : Prop :=
  ∃ request, calls.requestOf call = some request ∧ codecs.request.serialize request = some frame

/-- Every frame on its way to the other side is the request of the call it was written
for. -/
structure Framed (client : Client Request Response) (written : List Nat) (upstream : Link Bytes) :
    Prop where
  length_eq : written.length = upstream.sent.length
  frame : ∀ (number call : Nat) frame, written[number]? = some call →
    upstream.sent[number]? = some frame → client.calls.Frames codecs call frame
  writing : ∀ call frame, client.writer = .writing call frame →
    client.calls.Frames codecs call frame

/-- The other side takes the requests and answers them in order. -/
structure Serves (upstream : Link Bytes) (server : Server Request Response)
    (downstream : Link Bytes) : Prop where
  arrived : ∀ (number : Nat) arrival, server.arrived[number]? = some arrival →
    ∃ frame, upstream.sent[number]? = some frame ∧
      codecs.request.deserialize frame = some arrival.request
  arriving : server.running → server.arrived.length = upstream.received
  answered : ∀ (number : Nat) frame, downstream.sent[number]? = some frame →
    ∃ arrival result, server.arrived[number]? = some arrival ∧ arrival.result = some result ∧
      codecs.result.serialize result = some frame
  answering : server.running → downstream.sent.length = server.answered

end

def Writer.held : Writer → List Nat
  | written call => [call]
  | _ => []

def Reader.held : Reader → List Nat
  | reading call => [call]
  | _ => []

/-- The callbacks that wait for a frame, from the first to the last. -/
def Client.outstanding (client : Client Request Response) : List Nat :=
  client.reader.held ++ client.callbacks ++ client.writer.held

/-- The callbacks are those of the frames that have not been answered yet. If the writer
has stopped, some at the end may be missing. -/
def Awaits (client : Client Request Response) (written : List Nat) (received : Nat) : Prop :=
  client.reader ≠ .ended → ∃ missing, client.outstanding ++ missing = written.drop received ∧
    (client.writer ≠ .ended → missing = [])

def Writer.current : Writer → List Nat
  | writing call _ => [call]
  | _ => []

/-- No request is written twice. -/
structure Distinct (client : Client Request Response) (written : List Nat) : Prop where
  fresh : ∀ call, client.started ≤ call → client.calls call = none
  once : (written ++ client.writer.current ++ client.requests).Nodup
  submitted : ∀ call ∈ written ++ client.writer.current ++ client.requests,
    client.calls.Submitted call

/-- The result is that of the request which the call has written. -/
def Owns (calls : Calls Request Response) (written : List Nat) (server : Server Request Response)
    (call : Nat) (result : Except String Response) : Prop :=
  ∃ (number : Nat) (arrival : _), written[number]? = some call ∧
    server.arrived[number]? = some arrival ∧ calls.requestOf call = some arrival.request ∧
      arrival.result = some result

def Paired (calls : Calls Request Response) (written : List Nat)
    (server : Server Request Response) : Prop :=
  ∀ call result, calls.answerOf call = some (.result result) → Owns calls written server call result

structure Aligned (codecs : Codecs Request Response) (connection : Connection Request Response) :
    Prop where
  framed : Framed codecs connection.client connection.written connection.upstream
  serves : Serves codecs connection.upstream connection.server connection.downstream
  awaits : Awaits connection.client connection.written connection.downstream.received
  distinct : Distinct connection.client connection.written
  paired : Paired connection.client.calls connection.written connection.server

/-! ### The parts of the invariant -/

section

variable {A : Type} {list : List A} {number : Nat} {a b : A}

/-- What a list has at a position, a longer list has there, too. -/
theorem getElem?_append_of_some (h : list[number]? = some a) (more : List A) :
    (list ++ more)[number]? = some a := by
  rw [List.getElem?_append_left (List.getElem?_eq_some_iff.mp h).1, h]

theorem getElem?_concat_eq_some (h : (list ++ [b])[number]? = some a) :
    list[number]? = some a ∨ number = list.length ∧ a = b := by
  rcases lt_trichotomy number list.length with hOld | rfl | hBeyond
  · rw [List.getElem?_append_left hOld] at h
    exact .inl h
  · rw [List.getElem?_concat_length, Option.some.injEq] at h
    exact .inr ⟨rfl, h.symm⟩
  · have hEnd : (list ++ [b]).length ≤ number := by
      rw [List.length_append]
      exact hBeyond
    rw [List.getElem?_eq_none hEnd] at h
    cases h

end

section

variable {codecs : Codecs Request Response} {client next : Client Request Response}
    {written : List Nat} {upstream downstream : Link Bytes} {server : Server Request Response}

variable {calls later : Calls Request Response} {call : Nat} {frame : Bytes} {request : Request}

theorem Calls.Frames.grow (hGrows : calls.Grows later) (h : calls.Frames codecs call frame) :
    later.Frames codecs call frame := by
  obtain ⟨request, hRequest, hFrame⟩ := h
  exact ⟨request, hGrows.requestOf call request hRequest, hFrame⟩

section

variable (h : Framed codecs client written upstream)

include h

theorem Framed.grow (hGrows : client.calls.Grows next.calls)
    (hWriter : ∀ call frame, next.writer = .writing call frame →
      next.calls.Frames codecs call frame) :
    Framed codecs next written upstream where
  length_eq := h.length_eq
  frame number call frame hCall hFrame := (h.frame number call frame hCall hFrame).grow hGrows
  writing := hWriter

theorem Framed.writing_grow (hGrows : client.calls.Grows later) :
    ∀ call frame, client.writer = .writing call frame → later.Frames codecs call frame :=
  fun call frame hWriting => (h.writing call frame hWriting).grow hGrows

/-- The frame that the writer has in hand goes out. -/
theorem Framed.send (hFrame : client.calls.Frames codecs call frame) :
    Framed codecs client (written ++ [call]) (upstream.send frame) where
  length_eq := by simp [Link.send, h.length_eq]
  frame number call' frame' hCall hSent := by
    obtain hSent | ⟨hNumber, rfl⟩ := getElem?_concat_eq_some hSent
    · obtain hCall | ⟨hBeyond, -⟩ := getElem?_concat_eq_some hCall
      · exact h.frame number call' frame' hCall hSent
      · have hBound := (List.getElem?_eq_some_iff.mp hSent).1
        rw [hBeyond, h.length_eq] at hBound
        exact absurd hBound (Nat.lt_irrefl _)
    · rw [hNumber, ← h.length_eq, List.getElem?_concat_length, Option.some.injEq] at hCall
      rwa [← hCall]
  writing := h.writing

end

section

variable (h : Serves codecs upstream server downstream)

include h

theorem Serves.received_le (hFramed : Framed codecs client written upstream) :
    downstream.received ≤ written.length := by
  refine downstream.received_le.trans (Nat.le_of_not_lt fun hLong => ?_)
  -- the frame after the last request would answer nothing
  obtain ⟨arrival, result, hArrival, -, -⟩ :=
    h.answered written.length _ (List.getElem?_eq_getElem hLong)
  obtain ⟨frame, hFrame, -⟩ := h.arrived written.length arrival hArrival
  have hBound := (List.getElem?_eq_some_iff.mp hFrame).1
  rw [hFramed.length_eq] at hBound
  exact Nat.lt_irrefl _ hBound

theorem Serves.send_upstream (frame : Bytes) :
    Serves codecs (upstream.send frame) server downstream where
  arrived number arrival hArrival := by
    obtain ⟨sent, hSent, hRequest⟩ := h.arrived number arrival hArrival
    exact ⟨sent, getElem?_append_of_some hSent [frame], hRequest⟩
  arriving := h.arriving
  answered := h.answered
  answering := h.answering

/-- What has been received makes no difference to the answers. -/
theorem Serves.receive {later : Link Bytes} (hSent : later.sent = downstream.sent) :
    Serves codecs upstream server later where
  arrived := h.arrived
  arriving := h.arriving
  answered number frame hFrame := h.answered number frame (hSent ▸ hFrame)
  answering hRunning := hSent ▸ h.answering hRunning

/-- Nor does it make a difference to what has arrived, once the server has stopped. -/
theorem Serves.lose {later : Link Bytes} (hSent : later.sent = upstream.sent)
    (hReceived : server.running → server.arrived.length = later.received) :
    Serves codecs later server downstream where
  arrived := by
    rw [hSent]
    exact h.arrived
  arriving := hReceived
  answered := h.answered
  answering := h.answering

end

theorem Framed.receive (h : Framed codecs client written upstream) {later : Link Bytes}
    (hSent : later.sent = upstream.sent) : Framed codecs client written later where
  length_eq := hSent ▸ h.length_eq
  frame number call frame hCall hFrame := h.frame number call frame hCall (hSent ▸ hFrame)
  writing := h.writing

/-- The server keeps the results it has. -/
def Server.Keeps (server later : Server Request Response) : Prop :=
  ∀ (number : Nat) (arrival : _), server.arrived[number]? = some arrival → arrival.result.isSome →
    later.arrived[number]? = some arrival

theorem Server.Keeps.refl (server : Server Request Response) : server.Keeps server :=
  fun _ _ hArrival _ => hArrival

theorem Server.Keeps.finish {number : Nat}
    (hArrival : server.arrived[number]? = some ⟨request, none⟩) (result : Except String Response) :
    server.Keeps { server with arrived := server.arrived.set number ⟨request, some result⟩ } := by
  intro other arrival hOther hResult
  rw [List.getElem?_set_ne, hOther]
  rintro rfl
  rw [hArrival, Option.some.injEq] at hOther
  rw [← hOther] at hResult
  cases hResult

section

variable (h : Serves codecs upstream server downstream)

include h

theorem Serves.arrive (hRunning : server.running) {later : Link Bytes}
    (hFrame : upstream.sent[upstream.received]? = some frame)
    (hRequest : codecs.request.deserialize frame = some request)
    (hSent : later.sent = upstream.sent) (hReceived : later.received = upstream.received + 1) :
    Serves codecs later
      { server with arrived := server.arrived ++ [⟨request, none⟩] } downstream where
  arrived number arrival hArrival := by
    rw [hSent]
    obtain hOld | ⟨rfl, rfl⟩ := getElem?_concat_eq_some hArrival
    · exact h.arrived number arrival hOld
    · rw [h.arriving hRunning]
      exact ⟨frame, hFrame, hRequest⟩
  arriving _ := by
    rw [hReceived, ← h.arriving hRunning, List.length_append]
    rfl
  answered number frame' hAnswer := by
    obtain ⟨arrival, result, hArrival, hResult⟩ := h.answered number frame' hAnswer
    exact ⟨arrival, result, getElem?_append_of_some hArrival _, hResult⟩
  answering := h.answering

theorem Serves.finish {number : Nat} (hArrival : server.arrived[number]? = some ⟨request, none⟩)
    (result : Except String Response) :
    Serves codecs upstream
      { server with arrived := server.arrived.set number ⟨request, some result⟩ } downstream where
  arrived other arrival hOther := by
    by_cases hSame : number = other
    · rw [← hSame, List.getElem?_set_self (List.getElem?_eq_some_iff.mp hArrival).1,
        Option.some.injEq] at hOther
      rw [← hSame, ← hOther]
      exact h.arrived number ⟨request, none⟩ hArrival
    · rw [List.getElem?_set_ne hSame] at hOther
      exact h.arrived other arrival hOther
  arriving hRunning := by
    rw [List.length_set]
    exact h.arriving hRunning
  answered other frame hFrame := by
    obtain ⟨arrival, given, hOther, hGiven, hCode⟩ := h.answered other frame hFrame
    exact ⟨arrival, given,
      Server.Keeps.finish hArrival result other arrival hOther (by rw [hGiven]; rfl), hGiven, hCode⟩
  answering := h.answering

theorem Serves.respond (hRunning : server.running) {result : Except String Response}
    (hArrival : server.arrived[server.answered]? = some ⟨request, some result⟩)
    (hFrame : codecs.result.serialize result = some frame) (broken : Option Bool) :
    Serves codecs upstream ⟨server.arrived, server.answered + 1, broken.isNone⟩
      (if broken = some false then downstream else downstream.send frame) where
  arrived := h.arrived
  arriving _ := h.arriving hRunning
  answered number frame' hAnswer := by
    split at hAnswer
    · exact h.answered number frame' hAnswer
    · obtain hOld | ⟨rfl, rfl⟩ := getElem?_concat_eq_some hAnswer
      · exact h.answered number frame' hOld
      · rw [h.answering hRunning]
        exact ⟨_, result, hArrival, rfl, hFrame⟩
  answering hRunning' := by
    obtain rfl := Option.isNone_iff_eq_none.mp hRunning'
    rw [if_neg nofun, Link.send, List.length_append, h.answering hRunning]
    rfl

/-- A server that has stopped. -/
theorem Serves.halt : Serves codecs upstream { server with running := false } downstream where
  arrived := h.arrived
  arriving := nofun
  answered := h.answered
  answering := nofun

end

theorem Owns.mono {laterWritten : List Nat} {laterServer : Server Request Response}
    {result : Except String Response} (h : Owns calls written server call result)
    (hGrows : calls.Grows later)
    (hWritten : ∀ number : Nat, written[number]? = some call → laterWritten[number]? = some call)
    (hKeeps : server.Keeps laterServer) : Owns later laterWritten laterServer call result := by
  obtain ⟨number, arrival, hCall, hArrival, hRequest, hResult⟩ := h
  refine ⟨number, arrival, hWritten number hCall, hKeeps number arrival hArrival ?_,
    hGrows.requestOf call _ hRequest, hResult⟩
  rw [hResult]
  rfl

theorem Paired.grow (h : Paired calls written server) (hGrows : calls.Grows later)
    (hQuiet : calls.Quiet later) : Paired later written server :=
  fun call result hAnswer =>
    (h call result (hQuiet call result hAnswer)).mono hGrows (fun _ => id) (.refl server)

theorem Paired.keep (h : Paired calls written server) {later : Server Request Response}
    (hKeeps : server.Keeps later) : Paired calls written later :=
  fun call result hAnswer =>
    (h call result hAnswer).mono (Calls.Fails.refl calls).toGrows (fun _ => id) hKeeps

theorem Distinct.grow (h : Distinct client written) {later : List Nat}
    (hGrows : client.calls.Grows next.calls)
    (hFresh : ∀ call, next.started ≤ call → next.calls call = none)
    (hSublist : List.Sublist (later ++ next.writer.current ++ next.requests)
      (written ++ client.writer.current ++ client.requests)) : Distinct next later where
  fresh := hFresh
  once := h.once.sublist hSublist
  submitted call hCall := hGrows.submitted call (h.submitted call (hSublist.subset hCall))

theorem Distinct.advance (h : Distinct client written) {later : List Nat}
    (hAdvances : client.calls.Advances next.calls) (hStarted : next.started = client.started)
    (hSublist : List.Sublist (later ++ next.writer.current ++ next.requests)
      (written ++ client.writer.current ++ client.requests)) : Distinct next later := by
  refine h.grow hAdvances.toGrows (fun call hCall => ?_) hSublist
  rw [hStarted] at hCall
  exact hAdvances.unstarted call (h.fresh call hCall)

theorem Distinct.submit (h : Distinct client written) (hAdvances : client.calls.Advances calls)
    (hNow : calls.Submitted call) (hBefore : ¬ client.calls.Submitted call) :
    Distinct { client with calls, requests := client.requests ++ [call] } written := by
  have hNew : call ∉ written ++ client.writer.current ++ client.requests :=
    fun hOld => hBefore (h.submitted call hOld)
  constructor
  case fresh => exact fun other hOther => hAdvances.unstarted other (h.fresh other hOther)
  case once =>
    rw [← List.append_assoc, List.nodup_append_comm]
    exact List.nodup_cons.mpr ⟨hNew, h.once⟩
  case submitted =>
    intro other hOther
    rw [← List.append_assoc, List.mem_append, List.mem_singleton] at hOther
    obtain hOther | rfl := hOther
    · exact hAdvances.submitted other (h.submitted other hOther)
    · exact hNow

end

end CacheCat.Raft.Pipeline
