import CacheCat.Protocol.Transaction

/-! A command that is refused between MULTI and EXEC. It leaves no mark on the
transaction: EXEC carries out whatever has been queued before and after it. -/
namespace CacheCat.Protocol

/-- The frame is refused for what it says: it names no command, the command does not
accept the items whatever state the client is in, or the service answers that it
does not. -/
inductive Exchange.Refused (exchange : Exchange) : Prop
  | unknown {error : ProtocolError} (hAnswer : exchange.dispatched = .answer error.toValue)
  | items {command : Command} {items : List Value} {error : ProtocolError}
      (hCommand : exchange.dispatched = .execute command items)
      (hRefuses : ∀ client, command.execute client items = refuse client error)
  | service {command : ServiceCommand} {items : List Value} {error : ProtocolError}
      (hAsked : exchange.asked = [⟨.service command items, .error (.protocol error)⟩])
  | subscribe {name : String} {items : List Value} {error : ProtocolError}
      (hAsked : exchange.asked = [⟨.subscribe name items, .error (.protocol error)⟩])

/-- A data command whose items are not accepted is refused in every state. -/
theorem Exchange.refused_of_raftRequest {exchange : Exchange} {command : RaftCommand}
    {items : List Value} {error : ProtocolError}
    (hCommand : exchange.dispatched = .execute (.data command) items)
    (hItems : command.raftRequest items = .error error) : exchange.Refused := by
  have hRefuses (client : Client) :
      Command.execute client items (.data command) = refuse client error := by
    change executeData command client items = refuse client error
    unfold executeData
    rw [hItems]
    split <;> rfl
  exact .items hCommand hRefuses

/-- A successful MULTI, the frames after it, and the EXEC that ends the transaction. -/
structure RunsToExec (exchanges : List Exchange) (last : Client) (final : Exchange) : Prop where
  begins : ∃ client opened start items, Serves client [start] opened ∧
    start.dispatched = .execute .multi items ∧ start.reply = some .ok ∧ Serves opened exchanges last
  remains : ∀ exchange ∈ exchanges, ¬ exchange.dispatched.Closes
  ends : ∃ after items, Serves last [final] after ∧ final.dispatched = .execute .exec items ∧
    items.length < 2

def execAbort : Value :=
  ProtocolError.toValue (.custom "EXECABORT Transaction discarded because of previous errors.")

/-- EXEC touches nothing and reports the abort if a frame was refused, and otherwise
carries out everything that was queued. -/
structure AllOrNothing (exchanges : List Exchange) (last : Client) (final : Exchange) : Prop where
  aborts : (∃ exchange ∈ exchanges, exchange.Refused) →
    (∀ asked ∈ final.asked, ¬ asked.1.TouchesData) ∧ final.reply = some execAbort
  applies : (∀ exchange ∈ exchanges, ¬ exchange.Refused) →
    Executes (exchanges.filterMap (·.dispatched.queued)) last.dbNumber final ∧
      AppliesInOrder (exchanges.filterMap (·.dispatched.queued)) last.dbNumber

section

variable {client last : Client} {exchanges : List Exchange} {final : Exchange}

/-- The queue holds what was queued, whatever else was sent. -/
theorem Serves.queue_eq_queued (hRun : Serves client exchanges last) {operations : List Operation}
    (hQueue : client.transactionQueue = some operations)
    (hOpen : ∀ exchange ∈ exchanges, ¬ exchange.dispatched.Closes) :
    last.transactionQueue = some (operations ++ exchanges.filterMap (·.dispatched.queued)) := by
  induction hRun generalizing operations with
  | nil client => simpa using hQueue
  | streamEnded _ _ ih => exact ih hQueue hOpen
  | @frame client last exchange exchanges _ hClient hFrame _ ih =>
    subst hClient
    rw [List.forall_mem_cons] at hOpen
    have hServed : exchange.Served := hFrame
    rw [ih (exchange.after_queue hServed hQueue hOpen.1) hOpen.2]
    cases hQueued : exchange.dispatched.queued <;> simp [hQueued]

/-- EXEC carries out all that was queued, in every session. -/
theorem RunsToExec.executes (hSession : RunsToExec exchanges last final) :
    Executes (exchanges.filterMap (·.dispatched.queued)) last.dbNumber final := by
  obtain ⟨client, opened, start, startItems, hStart, hMulti, hOk, hRun⟩ := hSession.begins
  obtain ⟨after, items, hFinal, hExec, hItems⟩ := hSession.ends
  obtain ⟨hStarted, -, -, hOpened⟩ := hStart.of_single
  have hBegun : opened.transactionQueue = some [] :=
    hOpened.trans (queue_of_multi hStarted hMulti hOk)
  obtain ⟨hServed, hClient, hDb, -⟩ := hFinal.of_single
  rw [hRun.queue_eq_queued hBegun hSession.remains] at hClient
  exact hDb ▸ executes_of_served hServed hExec hItems hClient

end

/-- A transaction is carried out as a whole or not at all exactly if none of its
frames is refused. -/
theorem allOrNothing_iff {exchanges : List Exchange} {last : Client} {final : Exchange}
    (hSession : RunsToExec exchanges last final) :
    AllOrNothing exchanges last final ↔ ∀ exchange ∈ exchanges, ¬ exchange.Refused := by
  have hExecutes := hSession.executes
  constructor
  · intro hAll exchange hMem hRefused
    obtain ⟨response, hAsked, -⟩ := hExecutes
    have hUntouched := (hAll.aborts ⟨exchange, hMem, hRefused⟩).1
    rw [hAsked] at hUntouched
    exact hUntouched _ (List.mem_singleton.mpr rfl) trivial
  · intro hAccepted
    refine ⟨?_, fun _ => ⟨hExecutes, appliesInOrder _ _⟩⟩
    rintro ⟨exchange, hMem, hRefused⟩
    exact absurd hRefused (hAccepted exchange hMem)

/-- EXEC by the client of the transaction that holds these operations. -/
def execExchange (operations : List Operation) : Exchange where
  client := .inMulti operations
  value := .array (some (words ["EXEC"]))
  asked := [⟨.write (.redis (.redisExec operations)) 0, .ok (.array (some [.integer 1]))⟩]
  reply := some (.array (some [.integer 1]))
  after := .new 1 true

variable (operations : List Operation)

theorem execExchange_dispatched :
    (execExchange operations).dispatched = .execute .exec (words ["EXEC"]) :=
  Client.dispatch_eq rfl rfl (by decide +kernel : _ = "EXEC") (by decide +kernel)

theorem serves_exec : Serves (.inMulti operations) [execExchange operations] (.new 1 true) := by
  refine .frame rfl rfl ?_ (.nil _)
  exact .ask (.done _)

/-- The frames of a transaction with INCR n among them, up to its EXEC. -/
theorem runsToExec_of_serves {exchanges : List Exchange} {operations : List Operation}
    (hRun : Serves incrExchange.after exchanges (.inMulti operations))
    (hOpen : ∀ exchange ∈ exchanges, ¬ exchange.dispatched.Closes) :
    RunsToExec (incrExchange :: exchanges) (.inMulti operations) (execExchange operations) where
  begins := ⟨_, _, multiExchange, _, serves_multi, multiExchange_dispatched, rfl,
    .frame rfl rfl incrExchange_served hRun⟩
  remains := by simpa [incrExchange_dispatched, Dispatch.Closes] using hOpen
  ends := ⟨_, _, serves_exec operations, execExchange_dispatched operations, by decide⟩

/-- MULTI, INCR n and EXEC. -/
theorem allOrNothing_incr :
    AllOrNothing [incrExchange] incrExchange.after (execExchange [.base (.incr ⟨bytes "n"⟩)]) := by
  refine (allOrNothing_iff (runsToExec_of_serves (.nil _) (by simp))).mpr ?_
  rw [List.forall_mem_singleton]
  rintro (hAnswer | ⟨hCommand, hRefuses⟩ | hAsked | hAsked)
  · cases incrExchange_dispatched.symm.trans hAnswer
  · cases incrExchange_dispatched.symm.trans hCommand
    cases hRefuses (.inMulti [])
  · cases hAsked
  · cases hAsked

/-- INCR without a key. -/
def bareIncrExchange : Exchange where
  client := incrExchange.after
  value := .array (some (words ["INCR"]))
  asked := []
  reply := some (ProtocolError.toValue (.wrongArgCount "INCR"))
  after := incrExchange.after

theorem bareIncrExchange_dispatched :
    bareIncrExchange.dispatched = .execute (.data .incr) (words ["INCR"]) :=
  Client.dispatch_eq rfl rfl (by decide +kernel : _ = "INCR") (by decide +kernel)

/-- After MULTI and INCR n, a wrong INCR is refused; EXEC increments n nevertheless. -/
theorem exec_after_refusal :
    RunsToExec [incrExchange, bareIncrExchange] incrExchange.after
        (execExchange [.base (.incr ⟨bytes "n"⟩)]) ∧
      bareIncrExchange.Refused ∧
      (execExchange [.base (.incr ⟨bytes "n"⟩)]).reply = some (.array (some [.integer 1])) ∧
      ¬ AllOrNothing [incrExchange, bareIncrExchange] incrExchange.after
        (execExchange [.base (.incr ⟨bytes "n"⟩)]) := by
  have hServes : Serves incrExchange.after [bareIncrExchange] incrExchange.after := by
    refine .frame rfl rfl ?_ (.nil _)
    change (bareIncrExchange.dispatched.perform bareIncrExchange.client).Transcript _ _
    rw [bareIncrExchange_dispatched]
    exact .done _
  have hRefused : bareIncrExchange.Refused :=
    Exchange.refused_of_raftRequest bareIncrExchange_dispatched rfl
  refine ⟨runsToExec_of_serves hServes ?_, hRefused, rfl, fun hAll => ?_⟩
  · simp [bareIncrExchange_dispatched, Dispatch.Closes]
  · cases (hAll.aborts ⟨bareIncrExchange, by simp, hRefused⟩).2

end CacheCat.Protocol
