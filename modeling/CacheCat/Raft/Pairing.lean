import CacheCat.Raft.Alignment

/-! The requests and the responses of a pipelined connection are paired by position. A task
that stops ends the pairing for all later positions, never for one in between. -/
namespace CacheCat.Raft.Pipeline

open Library (Link Reachable)

variable {Request Response : Type}

variable {result : Except String Response}

namespace Aligned

variable {codecs : Codecs Request Response} {connection next : Connection Request Response}

variable {client : Client Request Response} {call : Nat} {server : Server Request Response}

section

variable (h : Aligned codecs connection)

include h

/-- The calls advance, and the writer has taken nothing but the next request. -/
theorem advance (hFails : connection.client.calls.Fails client.calls)
    (hStarted : client.started = connection.client.started)
    (hWriter : ∀ call frame, client.writer = .writing call frame →
      client.calls.Frames codecs call frame)
    (hRequests : List.Sublist (client.writer.current ++ client.requests)
      (connection.client.writer.current ++ connection.client.requests))
    (hAwaits : Awaits client connection.written connection.downstream.received) :
    Aligned codecs (connection.setClient client) where
  framed := h.framed.grow hFails.toGrows hWriter
  serves := h.serves
  awaits := hAwaits
  distinct := by
    refine h.distinct.advance hFails.toAdvances hStarted ?_
    rw [List.append_assoc, List.append_assoc]
    exact hRequests.append_left connection.written
  paired := h.paired.grow hFails.toGrows hFails.quiet

/-- Only the calls change. -/
theorem setCalls {calls : Calls Request Response} (hFails : connection.client.calls.Fails calls) :
    Aligned codecs (connection.setClient { connection.client with calls }) :=
  h.advance hFails rfl (h.framed.writing_grow hFails.toGrows) (List.Sublist.refl _) h.awaits

/-- A callback is used for a failure, or dropped. -/
theorem settle (call : Nat) {reply : Reply Response}
    (hReply : ∀ result, reply ≠ .sent (.result result)) :
    Aligned codecs (connection.setClient (connection.client.settle call reply)) :=
  h.setCalls (.settle hReply)

theorem stopWriter
    (hHeld : connection.client.reader = .ended ∨ connection.client.writer.held = []) :
    Aligned codecs (connection.setClient connection.client.stopWriter) := by
  refine h.advance (.closeAll _ _) rfl nofun (List.nil_sublist _) fun hReader => ?_
  obtain ⟨missing, hMissing, -⟩ := h.awaits hReader
  refine ⟨missing, ?_, fun hWriter => absurd rfl hWriter⟩
  rwa [Client.outstanding, hHeld.resolve_left hReader] at hMissing

theorem stopReader : Aligned codecs (connection.setClient connection.client.stopReader) := by
  have hFails := Calls.Fails.closeAll connection.client.calls connection.client.callbacks
  exact h.advance hFails rfl (h.framed.writing_grow hFails.toGrows) (List.Sublist.refl _)
    fun hReader => absurd rfl hReader

/-! ### The calls -/

theorem start {request : Request} (hStep : connection.client.start request = some client) :
    Aligned codecs (connection.setClient client) := by
  obtain ⟨-, ⟨⟩⟩ := Option.ite_none_right_eq_some.mp hStep
  have hGrows := Calls.Grows.add
      (h.distinct.fresh connection.client.started (Nat.le_refl _)) request
  have hFresh : ∀ call, connection.client.started + 1 ≤ call →
      Function.update connection.client.calls connection.client.started (some ⟨request, .sending⟩)
        call = none := by
    intro call hCall
    rw [Function.update_of_ne (by omega)]
    exact h.distinct.fresh call (by omega)
  exact {
    framed := h.framed.grow hGrows (h.framed.writing_grow hGrows)
    serves := h.serves
    awaits := h.awaits
    distinct := h.distinct.grow hGrows hFresh (List.Sublist.refl _)
    paired := h.paired.grow hGrows (.add _ _ request) }

theorem submit (hStep : connection.client.submit call = some client) :
    Aligned codecs (connection.setClient client) := by
  unfold Client.submit at hStep
  split at hStep
  next hSending =>
    obtain ⟨state, hState, hStage⟩ := Option.map_eq_some_iff.mp hSending
    split at hStep
    · cases hStep
      exact h.setCalls (.setStage nofun nofun)
    · obtain ⟨-, ⟨⟩⟩ := Option.ite_none_right_eq_some.mp hStep
      have hFails : connection.client.calls.Fails
          (connection.client.calls.setStage call (.waiting .pending)) := .setStage nofun nofun
      exact {
        framed := h.framed.grow hFails.toGrows (h.framed.writing_grow hFails.toGrows)
        serves := h.serves
        awaits := h.awaits
        distinct := h.distinct.submit hFails.toAdvances (Calls.submitted_setStage_self hState nofun)
          fun ⟨state', hState', hStage'⟩ =>
            hStage' (by rw [hState] at hState'; cases hState'; exact hStage)
        paired := h.paired.grow hFails.toGrows hFails.quiet }
  · cases hStep

theorem await (hStep : connection.client.await call = some client) :
    Aligned codecs (connection.setClient client) := by
  unfold Client.await at hStep
  split at hStep
  next answer hStage =>
    cases hStep
    refine h.setCalls (.setStage (by simp) fun result hAnswer => ?_)
    obtain ⟨state, hState, hWaiting⟩ := Option.map_eq_some_iff.mp hStage
    rw [Calls.answerOf, hState, Option.bind_some, hWaiting]
    exact hAnswer
  · cases hStep
    exact h.setCalls (.setStage (by simp) (by simp [Stage.answer]))
  · cases hStep

theorem cancel (hStep : connection.client.cancel call = some client) :
    Aligned codecs (connection.setClient client) := by
  unfold Client.cancel at hStep
  split at hStep
  case h_1 | h_2 =>
    cases hStep
    exact h.setCalls (.setStage nofun nofun)
  · cases hStep

theorem release (hStep : connection.client.release = some client) :
    Aligned codecs (connection.setClient client) := by
  obtain ⟨-, ⟨⟩⟩ := Option.ite_none_right_eq_some.mp hStep
  exact h.advance (.refl _) rfl h.framed.writing (List.Sublist.refl _) h.awaits

/-! ### The writer task -/

theorem take {reason : String} (hStep : connection.take codecs reason = some next) :
    Aligned codecs next := by
  unfold Connection.take at hStep
  split at hStep
  next call requests hIdle hRequests =>
    split at hStep
    next frame hFrame =>
      cases hStep
      obtain ⟨state, hState, hFrame⟩ := Option.bind_eq_some_iff.mp hFrame
      have hRequest : connection.client.calls.requestOf call = some state.request := by
        rw [Calls.requestOf, hState, Option.map_some]
      refine h.advance (.refl _) rfl ?_ ?_ ?_
      · rintro _ _ ⟨⟩
        exact ⟨state.request, hRequest, hFrame⟩
      · rw [hIdle, hRequests]
        exact List.Sublist.refl _
      · intro hReader
        obtain ⟨missing, hMissing, hNone⟩ := h.awaits hReader
        rw [Client.outstanding, hIdle] at hMissing
        exact ⟨missing, hMissing, fun _ => hNone (by simp [hIdle])⟩
    · cases hStep
      have hFails : connection.client.calls.Fails (connection.client.calls.settle call
        (.sent (.failed ("Serialize error: " ++ reason)))) := .settle fun _ hEq => by cases hEq
      refine h.advance hFails rfl (h.framed.writing_grow hFails.toGrows) ?_ h.awaits
      rw [hRequests]
      exact (List.sublist_cons_self call requests).append_left _
  · cases hStep

/-- A frame goes out. -/
theorem emit {frame : Bytes} (hWriting : connection.client.writer = .writing call frame)
    (hFails : connection.client.calls.Fails client.calls)
    (hStarted : client.started = connection.client.started) (hCurrent : client.writer.current = [])
    (hRequests : client.requests.Sublist connection.client.requests)
    (hAwaits : Awaits client (connection.written ++ [call]) connection.downstream.received) :
    Aligned codecs { connection with
      client
      written := connection.written ++ [call]
      upstream := connection.upstream.send frame } where
  framed := (h.framed.send (h.framed.writing call frame hWriting)).grow hFails.toGrows
    fun call' frame' hWriter => by
      rw [hWriter] at hCurrent
      cases hCurrent
  serves := h.serves.send_upstream frame
  awaits := hAwaits
  distinct := by
    refine h.distinct.advance hFails.toAdvances hStarted ?_
    rw [hCurrent, hWriting, List.append_nil]
    exact hRequests.append_left _
  paired := fun other result hAnswer => by
    have hOwns := h.paired other result (hFails.quiet other result hAnswer)
    exact hOwns.mono hFails.toGrows (fun _ hOther => getElem?_append_of_some hOther [call])
      (.refl _)

theorem write (hStep : connection.write = some next) : Aligned codecs next := by
  unfold Connection.write at hStep
  split at hStep
  next call frame hWriting =>
    cases hStep
    refine h.emit hWriting (.refl _) rfl rfl (List.Sublist.refl _) fun hReader => ?_
    obtain ⟨missing, hMissing, hNone⟩ := h.awaits hReader
    obtain rfl := hNone (by rw [hWriting]; nofun)
    refine ⟨[], ?_, fun _ => rfl⟩
    rw [Client.outstanding, hWriting] at hMissing
    rw [List.drop_append_of_le_length (h.serves.received_le h.framed), ← hMissing]
    simp [Client.outstanding, Writer.held]
  · cases hStep

theorem writeFails {reason : String} {through : Bool}
    (hStep : connection.writeFails reason through = some next) : Aligned codecs next := by
  unfold Connection.writeFails at hStep
  split at hStep
  next call frame hWriting =>
    cases hStep
    have hHeld : connection.client.writer.held = [] := by
      rw [hWriting]
      rfl
    cases through with
    | false => exact (h.settle call fun _ hEq => by cases hEq).stopWriter (.inr hHeld)
    | true =>
      refine h.emit hWriting ((Calls.Fails.settle fun _ hEq => by cases hEq).trans (.closeAll _ _))
        rfl rfl (List.nil_sublist _) fun hReader => ?_
      obtain ⟨missing, hMissing, -⟩ := h.awaits hReader
      refine ⟨missing ++ [call], ?_, fun hWriter => absurd rfl hWriter⟩
      change connection.client.reader.held ++ connection.client.callbacks ++ [] ++
        (missing ++ [call]) = _
      rw [List.drop_append_of_le_length (h.serves.received_le h.framed), ← hMissing,
        Client.outstanding, hHeld, ← List.append_assoc]
  · cases hStep

theorem passOn (hStep : connection.passOn = some next) : Aligned codecs next := by
  unfold Connection.passOn at hStep
  split at hStep
  next call hWritten =>
    split at hStep
    next hEnded =>
      cases hStep
      exact (h.settle call fun _ hEq => by cases hEq).stopWriter (.inl hEnded)
    · obtain ⟨-, ⟨⟩⟩ := Option.ite_none_right_eq_some.mp hStep
      have hCurrent : connection.client.writer.current = [] := by
        rw [hWritten]
        rfl
      refine h.advance (.refl _) rfl nofun ?_ fun hReader => ?_
      · rw [hCurrent]
        exact List.Sublist.refl _
      · obtain ⟨missing, hMissing, hNone⟩ := h.awaits hReader
        refine ⟨missing, ?_, fun _ => hNone (by rw [hWritten]; nofun)⟩
        rw [← hMissing]
        simp [Client.outstanding, hWritten, Writer.held]
  · cases hStep

theorem writerCloses (hStep : connection.writerCloses = some next) : Aligned codecs next := by
  obtain ⟨hClosing, ⟨⟩⟩ := Option.ite_none_right_eq_some.mp hStep
  exact h.stopWriter (.inr (by rw [hClosing.1]; rfl))

/-! ### The reader task -/

theorem takeCallback (hStep : connection.takeCallback = some next) : Aligned codecs next := by
  unfold Connection.takeCallback at hStep
  split at hStep
  next call callbacks hIdle hCallbacks =>
    cases hStep
    refine h.advance (.refl _) rfl h.framed.writing (List.Sublist.refl _) fun _ => ?_
    obtain ⟨missing, hMissing, hNone⟩ := h.awaits (by rw [hIdle]; nofun)
    refine ⟨missing, ?_, hNone⟩
    rw [← hMissing]
    simp [Client.outstanding, hIdle, hCallbacks, Reader.held]
  · cases hStep

/-- The next frame answers the request of the callback that the reader has in hand. -/
theorem owns_next {frame : Bytes} (hReading : connection.client.reader = .reading call)
    (hFrame : connection.downstream.sent[connection.downstream.received]? = some frame)
    (hResult : codecs.result.deserialize frame = some result) :
    Owns connection.client.calls connection.written connection.server call result := by
  obtain ⟨missing, hMissing, -⟩ := h.awaits (by rw [hReading]; nofun)
  obtain ⟨arrival, given, hArrival, hGiven, hCode⟩ := h.serves.answered _ frame hFrame
  obtain ⟨sent, hSent, hRequest⟩ := h.serves.arrived _ arrival hArrival
  have hCall : connection.written[connection.downstream.received]? = some call := by
    have hHead := congrArg List.head? hMissing
    rw [Client.outstanding, hReading, List.head?_drop] at hHead
    exact hHead.symm
  obtain ⟨request, hOwn, hSerialized⟩ := h.framed.frame _ call sent hCall hSent
  have hSame : arrival.request = request := by
    rw [codecs.request.deserialize_code hSerialized, Option.some.injEq] at hRequest
    exact hRequest.symm
  have hValue : given = result := by
    rw [codecs.result.deserialize_code hCode, Option.some.injEq] at hResult
    exact hResult
  exact ⟨_, arrival, hCall, hArrival, hSame ▸ hOwn, hValue ▸ hGiven⟩

/-- The callbacks after one has got its frame. -/
theorem awaits_next {calls : Calls Request Response}
    (hReading : connection.client.reader = .reading call) :
    Awaits { connection.client with calls, reader := .idle } connection.written
      (connection.downstream.received + 1) := by
  intro _
  obtain ⟨missing, hMissing, hNone⟩ := h.awaits (by rw [hReading]; nofun)
  refine ⟨missing, ?_, hNone⟩
  have hTail := congrArg List.tail hMissing
  rw [Client.outstanding, hReading, List.tail_drop] at hTail
  exact hTail

theorem read (hStep : connection.read codecs = some next) : Aligned codecs next := by
  unfold Connection.read at hStep
  split at hStep
  next call hReading =>
    rw [Option.bind_eq_bind, Option.bind_eq_some_iff] at hStep
    obtain ⟨⟨frame, downstream⟩, hReceive, hStep⟩ := hStep
    obtain ⟨hFrame, hSent, hReceived⟩ := Link.receive_eq_some hReceive
    cases hStep
    have hServes : Serves codecs connection.upstream connection.server downstream :=
      h.serves.receive hSent
    cases hResult : codecs.result.deserialize frame with
    | none =>
      have hClosed : ∀ result, (Reply.closed : Reply Response) ≠ .sent (.result result) :=
        fun _ => nofun
      have hStopped := (h.settle call hClosed).stopReader
      exact {
        framed := hStopped.framed
        serves := hServes
        awaits := fun hReader => absurd rfl hReader
        distinct := hStopped.distinct
        paired := hStopped.paired }
    | some result =>
      have hAdvances := Calls.Advances.settle connection.client.calls call (.sent (.result result))
      exact {
        framed := h.framed.grow hAdvances.toGrows (h.framed.writing_grow hAdvances.toGrows)
        serves := hServes
        awaits := by
          rw [hReceived]
          exact h.awaits_next hReading
        distinct := h.distinct.advance hAdvances rfl (List.Sublist.refl _)
        paired := fun other given hAnswer => by
          obtain hBefore | ⟨rfl, hNew⟩ := Calls.answerOf_settle hAnswer
          · exact (h.paired other given hBefore).mono hAdvances.toGrows (fun _ => id) (.refl _)
          · cases hNew
            exact (h.owns_next hReading hFrame hResult).mono hAdvances.toGrows (fun _ => id)
              (.refl _) }
  · cases hStep

theorem readFails {reason : Option String} (hStep : connection.readFails reason = some next) :
    Aligned codecs next := by
  unfold Connection.readFails at hStep
  split at hStep
  next call hReading =>
    cases hStep
    exact (h.settle call fun _ hEq => by cases hEq).stopReader
  · cases hStep

theorem readerCloses (hStep : connection.readerCloses = some next) : Aligned codecs next := by
  obtain ⟨-, ⟨⟩⟩ := Option.ite_none_right_eq_some.mp hStep
  exact h.stopReader

/-! ### The other side -/

/-- The connection changes on the other side only. -/
theorem setServer {upstream downstream : Link Bytes}
    (hSent : upstream.sent = connection.upstream.sent)
    (hServes : Serves codecs upstream server downstream) (hKeeps : connection.server.Keeps server)
    (hReceived : downstream.received = connection.downstream.received) :
    Aligned codecs { connection with upstream, server, downstream } where
  framed := h.framed.receive hSent
  serves := hServes
  awaits := by
    rw [hReceived]
    exact h.awaits
  distinct := h.distinct
  paired := h.paired.keep hKeeps

theorem halt :
    Aligned codecs { connection with server := { connection.server with running := false } } :=
  h.setServer rfl h.serves.halt (.refl connection.server) rfl

theorem breakUpstream (number : Nat) :
    Aligned codecs { connection with upstream := connection.upstream.sever number } :=
  h.setServer rfl (h.serves.lose rfl h.serves.arriving) (.refl connection.server) rfl

theorem breakDownstream (number : Nat) :
    Aligned codecs { connection with downstream := connection.downstream.sever number } :=
  h.setServer rfl (h.serves.receive rfl) (.refl connection.server) rfl

theorem arrive (hStep : connection.arrive codecs = some next) : Aligned codecs next := by
  obtain ⟨hReady, hStep⟩ := Option.ite_none_right_eq_some.mp hStep
  rw [Option.bind_eq_bind, Option.bind_eq_some_iff] at hStep
  obtain ⟨⟨frame, upstream⟩, hReceive, ⟨⟩⟩ := hStep
  obtain ⟨hFrame, hSent, hReceived⟩ := Link.receive_eq_some hReceive
  cases hRequest : codecs.request.deserialize frame with
  | none => exact h.setServer hSent (h.serves.halt.lose hSent nofun) (.refl connection.server) rfl
  | some request =>
    exact h.setServer hSent (h.serves.arrive hReady.1 hFrame hRequest hSent hReceived)
      (fun _ _ hArrival _ => getElem?_append_of_some hArrival _) rfl

theorem finish {number : Nat} (hStep : connection.server.finish number result = some server) :
    Aligned codecs { connection with server } := by
  unfold Server.finish at hStep
  split at hStep
  next request hArrival =>
    obtain ⟨-, ⟨⟩⟩ := Option.ite_none_right_eq_some.mp hStep
    exact h.setServer rfl (h.serves.finish hArrival result) (.finish hArrival result) rfl
  · cases hStep

theorem respond {broken : Option Bool} (hStep : connection.respond codecs broken = some next) :
    Aligned codecs next := by
  unfold Connection.respond at hStep
  split at hStep
  next request result hArrival =>
    obtain ⟨hRunning, hStep⟩ := Option.ite_none_right_eq_some.mp hStep
    split at hStep
    · cases hStep
      exact h.halt
    next frame hFrame =>
      cases hStep
      refine h.setServer rfl (h.serves.respond hRunning hArrival hFrame broken)
        (fun _ _ hArrival _ => hArrival) ?_
      split
      · rfl
      · rfl
  · cases hStep

theorem stop (hStep : connection.server.stop = some server) :
    Aligned codecs { connection with server } := by
  obtain ⟨-, ⟨⟩⟩ := Option.ite_none_right_eq_some.mp hStep
  exact h.halt

theorem step (event : Event Request Response) (hStep : connection.step codecs event = some next) :
    Aligned codecs next := by
  cases event with
  | start request =>
    obtain ⟨client, hClient, rfl⟩ := Option.map_eq_some_iff.mp hStep
    exact h.start hClient
  | submit call =>
    obtain ⟨client, hClient, rfl⟩ := Option.map_eq_some_iff.mp hStep
    exact h.submit hClient
  | await call =>
    obtain ⟨client, hClient, rfl⟩ := Option.map_eq_some_iff.mp hStep
    exact h.await hClient
  | cancel call =>
    obtain ⟨client, hClient, rfl⟩ := Option.map_eq_some_iff.mp hStep
    exact h.cancel hClient
  | release =>
    obtain ⟨client, hClient, rfl⟩ := Option.map_eq_some_iff.mp hStep
    exact h.release hClient
  | take reason => exact h.take hStep
  | write => exact h.write hStep
  | writeFails reason through => exact h.writeFails hStep
  | passOn => exact h.passOn hStep
  | writerCloses => exact h.writerCloses hStep
  | takeCallback => exact h.takeCallback hStep
  | read => exact h.read hStep
  | readFails reason => exact h.readFails hStep
  | readerCloses => exact h.readerCloses hStep
  | breakUpstream number =>
    cases hStep
    exact h.breakUpstream number
  | breakDownstream number =>
    cases hStep
    exact h.breakDownstream number
  | arrive => exact h.arrive hStep
  | finish number result =>
    obtain ⟨server, hServer, rfl⟩ := Option.map_eq_some_iff.mp hStep
    exact h.finish hServer
  | respond broken => exact h.respond hStep
  | stop =>
    obtain ⟨server, hServer, rfl⟩ := Option.map_eq_some_iff.mp hStep
    exact h.stop hServer

end

theorem established : Aligned codecs Connection.established where
  framed := ⟨rfl, nofun, nofun⟩
  serves := ⟨nofun, fun _ => rfl, nofun, fun _ => rfl⟩
  awaits := fun _ => ⟨[], rfl, fun _ => rfl⟩
  distinct := ⟨fun _ _ => rfl, List.nodup_nil, nofun⟩
  paired := nofun

theorem of_reachable (hReachable :
    Reachable (Connection.step codecs) Connection.established connection) :
    Aligned codecs connection :=
  hReachable.invariant (Aligned codecs) established fun _ event _ h hStep => h.step event hStep

end Aligned

/-- However the callers, the tasks and the connection behave: a call that has got a result,
whether it has returned or is about to, has sent its request once, and the result is what
the other side computed for that request. -/
theorem Connection.responses_paired {codecs : Codecs Request Response}
    {connection : Connection Request Response}
    (hReachable : Reachable (Connection.step codecs) Connection.established connection) {call : Nat}
    {state : Call Request Response} (hCall : connection.client.calls call = some state)
    (hAnswer : state.stage.answer = some (.result result)) :
    ∃ number : Nat, connection.written[number]? = some call ∧
      (∀ other : Nat, connection.written[other]? = some call → other = number) ∧
      connection.server.arrived[number]? = some ⟨state.request, some result⟩ := by
  have h := Aligned.of_reachable hReachable
  have hGiven : connection.client.calls.answerOf call = some (.result result) := by
    rw [Calls.answerOf, hCall]
    exact hAnswer
  obtain ⟨number, arrival, hNumber, hArrival, hRequest, hResult⟩ := h.paired call result hGiven
  refine ⟨number, hNumber, ?_, ?_⟩
  · -- no request is written twice
    intro other hOther
    have hOnce : connection.written.Nodup :=
      h.distinct.once.sublist ((List.sublist_append_left _ _).trans (List.sublist_append_left _ _))
    have hBound : other < connection.written.length := (List.getElem?_eq_some_iff.mp hOther).1
    exact (List.getElem?_inj hBound hOnce).mp (hOther.trans hNumber.symm)
  · rw [Calls.requestOf, hCall, Option.map_some, Option.some.injEq] at hRequest
    rw [hArrival, hRequest, ← hResult]

/-- Numbers as requests and as responses. -/
def numberCodecs : Codecs Nat Nat :=
  ⟨.ofList [10, 20, 30], .ofList [.ok 1, .ok 2, .error "refused"]⟩

/-- The second of three calls is written first and given up, the results get ready in the
other order, and the connection breaks with the third call. -/
def overtaking : List (Event Nat Nat) :=
  [.start 10, .start 20, .start 30, .submit 1, .submit 0, .submit 2, .take "", .write, .passOn,
    .take "", .write, .arrive, .arrive, .finish 1 (.ok 1), .cancel 1, .passOn,
    .finish 0 (.ok 2), .respond none, .takeCallback, .read, .respond (some true), .take "",
    .writeFails "broken pipe" true, .takeCallback, .read, .await 0, .await 2]

theorem Connection.responses_paired_overtaking : ∃ connection : Connection Nat Nat,
    Library.run (Connection.step numberCodecs) Connection.established overtaking = some connection ∧
      connection.client.calls 0 = some ⟨10, .returned (.result (.ok 1))⟩ ∧
      connection.client.calls 2 = some ⟨30, .returned (.failed "Send failed: broken pipe")⟩ ∧
      ∃ number : Nat, connection.written[number]? = some 0 ∧
        (∀ other : Nat, connection.written[other]? = some 0 → other = number) ∧
        connection.server.arrived[number]? = some ⟨10, some (.ok 1)⟩ := by
  have hCalls : (Library.run (Connection.step numberCodecs) Connection.established overtaking).map
      (fun connection => (connection.client.calls 0, connection.client.calls 2)) =
      some (some ⟨10, .returned (.result (.ok 1))⟩,
        some ⟨30, .returned (.failed "Send failed: broken pipe")⟩) := rfl
  obtain ⟨connection, hRun, hCalls⟩ := Option.map_eq_some_iff.mp hCalls
  obtain ⟨hFirst, hLast⟩ := Prod.ext_iff.mp hCalls
  exact ⟨connection, hRun, hFirst, hLast, Connection.responses_paired ⟨_, hRun⟩ hFirst rfl⟩

end CacheCat.Raft.Pipeline
