import CacheCat.Cache.Locks
import CacheCat.Protocol.Session
import CacheCat.StateMachine.Apply

/-! Transactions. Each command decides for itself whether it joins the transaction
of its client; what holds between MULTI and EXEC or DISCARD is therefore read off
the whole table of commands. -/
namespace CacheCat.Protocol

/-! ### Data commands and the queue -/

/-- The operation that a well-formed data command stands for. EVALSHA has none: its
script is known to the server only. -/
def Dispatch.operation : Dispatch → Option Operation
  | .execute (.data command) items => (command.raftRequest items).toOption
  | .execute .memory items =>
    if (memorySubcommand items).toOption = some "USAGE" then
      (RaftCommand.memoryUsage.raftRequest items).toOption
    else none
  | _ => none

/-- A data command whose items its parser accepts. -/
def Dispatch.WellFormed : Dispatch → Prop
  | .execute .evalSha items => ∃ params, EvalShaParams.parse items = .ok params
  | dispatch => dispatch.operation.isSome = true

/-- What the command replies once it is queued; `none` if it never is. -/
def Dispatch.queueReply : Dispatch → Option String
  | .execute (.data command) _ => Protocol.queueReply command
  | .execute .memory _ => Protocol.queueReply .memoryUsage
  | _ => none

/-- The operation that joins the queue of a transaction. -/
def Dispatch.queued (dispatch : Dispatch) : Option Operation :=
  dispatch.queueReply.bind fun _ => dispatch.operation

/-- If it is a well-formed data command, it is one that is queued with the right
reply. -/
def Dispatch.Queues (dispatch : Dispatch) : Prop :=
  dispatch.WellFormed → dispatch.queueReply = some "QUEUED"

/-- An EXEC or DISCARD that ends the transaction. -/
def Dispatch.Closes : Dispatch → Prop
  | .execute .exec items => items.length < 2
  | .execute .discard items => items.length < 2
  | _ => False

/-- The program neither touches a database nor the queue of the client. -/
def Keeps (client : Client) (program : Execution) : Prop :=
  program.Ensures (fun _ _ => True) (fun query => ¬ query.TouchesData)
    fun outcome => outcome.1.transactionQueue = client.transactionQueue

theorem refuse_keeps (client : Client) (error : ProtocolError) :
    Keeps client (refuse client error) :=
  rfl

variable {client : Client} {exchange : Exchange} {items : List Value}

theorem keeps_of_ask {query : Query} {next : query.Answer → Execution}
    (hQuery : ¬ query.TouchesData) (hNext : ∀ answer, Keeps client (next answer)) :
    Keeps client (ask query >>= next) :=
  ⟨hQuery, fun answer _ => hNext answer⟩

section

variable (client : Client) (items : List Value)

/-- A command whose items are refused leaves no trace, queued or not. -/
theorem executeData_keeps (command : RaftCommand)
    (hItems : (command.raftRequest items).toOption = none) :
    Keeps client (executeData command client items) := by
  cases hRequest : command.raftRequest items with
  | error error =>
    unfold executeData
    rw [hRequest]
    split <;> exact refuse_keeps _ _
  | ok operation =>
    rw [hRequest] at hItems
    cases hItems

theorem executeMemory_keeps
    (hItems : (Dispatch.execute .memory items).operation = none) :
    Keeps client (executeMemory client items) := by
  unfold executeMemory
  split
  · exact refuse_keeps _ _
  next subcommand hSubcommand =>
    split
    next hUsage =>
      refine executeData_keeps client items _ ?_
      rw [Dispatch.operation, hSubcommand, hUsage] at hItems
      exact hItems
    · split
      · exact keeps_of_ask (by simp [Query.TouchesData]) fun _ => rfl
      · exact refuse_keeps _ _

end

/-! ### One frame inside a transaction -/

section

variable {client : Client} {operations : List Operation}

/-- A command that closes nothing and is no well-formed data command. -/
theorem Command.execute_keeps (hQueue : client.transactionQueue.isSome = true) (command : Command)
    (items : List Value) (hClose : ¬ (Dispatch.execute command items).Closes)
    (hItems : ¬ (Dispatch.execute command items).WellFormed) :
    Keeps client (command.execute client items) := by
  cases command with
  | data command => exact executeData_keeps _ _ _ (Option.not_isSome_iff_eq_none.mp hItems)
  | evalSha =>
    dsimp only [Command.execute, executeEvalSha]
    split
    · exact refuse_keeps _ _
    next params hParse => exact absurd ⟨params, hParse⟩ hItems
  | multi =>
    -- MULTI inside a transaction is refused
    dsimp only [Command.execute, executeMulti]
    split <;> exact refuse_keeps _ _
  | discard | exec =>
    dsimp only [Command.execute, executeDiscard, executeExec]
    rw [if_pos (not_lt.mp hClose)]
    exact refuse_keeps _ _
  | ping | echo | quit =>
    dsimp only [Command.execute, executePing, executeEcho, executeQuit]
    split <;> rfl
  | select =>
    dsimp only [Command.execute, executeSelect]
    split
    · exact refuse_keeps _ _
    · refine keeps_of_ask (by simp [Query.TouchesData]) fun count => ?_
      split <;> rfl
  | auth =>
    dsimp only [Command.execute, executeAuth]
    split
    · exact refuse_keeps _ _
    · refine keeps_of_ask (by simp [Query.TouchesData]) fun configured => ?_
      split
      · exact refuse_keeps _ _
      · split <;> rfl
  | hello =>
    dsimp only [Command.execute, executeHello]
    split
    · exact refuse_keeps _ _
    · split
      · rfl
      · refine keeps_of_ask (by simp [Query.TouchesData]) fun configured => ?_
        split <;> rfl
  | memory => exact executeMemory_keeps _ _ (Option.not_isSome_iff_eq_none.mp hItems)
  | service command => exact keeps_of_ask (by simp [Query.TouchesData]) fun _ => rfl

theorem Dispatch.perform_keeps (dispatch : Dispatch)
    (hQueue : client.transactionQueue.isSome = true) (hClose : ¬ dispatch.Closes)
    (hItems : ¬ dispatch.WellFormed) :
    (dispatch.perform client).Ensures (fun _ _ => True) (fun query => ¬ query.TouchesData)
      fun result => result.1.transactionQueue = client.transactionQueue := by
  cases dispatch with
  | answer value => rfl
  | execute command items =>
    exact (command.execute_keeps hQueue items hClose hItems).bind fun _ hOutcome => hOutcome
  | subscribe name items | duringBlock name items =>
    refine ⟨by simp [Query.TouchesData], fun answer _ => ?_⟩
    cases answer <;> rfl

variable {operation : Operation}

theorem executeData_queued {command : RaftCommand} {items : List Value} {queued : String}
    (hQueue : client.transactionQueue = some operations)
    (hRequest : (command.raftRequest items).toOption = some operation)
    (hReply : queueReply command = some queued) :
    executeData command client items =
      answer { client with transactionQueue := some (operations ++ [operation]) }
        (.simpleString queued) := by
  unfold executeData
  rw [hQueue, hReply]
  cases hParsed : command.raftRequest items with
  | error error => rw [hParsed] at hRequest; cases hRequest
  | ok parsed => rw [hParsed] at hRequest; cases hRequest; rfl

/-- A command that joins the transaction only appends its operation. -/
theorem Dispatch.perform_queued {dispatch : Dispatch} {queued : String}
    (hQueue : client.transactionQueue = some operations)
    (hOperation : dispatch.operation = some operation)
    (hReply : dispatch.queueReply = some queued) :
    dispatch.perform client =
      .done ({ client with transactionQueue := some (operations ++ [operation]) },
        some (.simpleString queued)) := by
  cases dispatch with
  | execute command items =>
    cases command with
    | data command =>
      have hData := executeData_queued hQueue hOperation hReply
      simp only [perform, Command.execute, hData]
      rfl
    | memory =>
      rw [Dispatch.operation, Option.ite_none_right_eq_some] at hOperation
      obtain ⟨hUsage, hRequest⟩ := hOperation
      have hData := executeData_queued hQueue hRequest hReply
      cases hSubcommand : memorySubcommand items with
      | error error => rw [hSubcommand] at hUsage; cases hUsage
      | ok subcommand =>
        rw [hSubcommand] at hUsage
        cases hUsage
        simp only [perform, Command.execute, executeMemory, hSubcommand, if_true, hData]
        rfl
    | _ => cases hReply
  | _ => cases hReply

/-- A data command that does not look at the transaction goes to the databases at
once. -/
theorem executeData_unqueued (client : Client) {command : RaftCommand} {items : List Value}
    (hRequest : (command.raftRequest items).toOption = some operation)
    (hReply : queueReply command = none) :
    executeData command client items = submit (readsSeveral command) client operation := by
  unfold executeData
  rw [hReply]
  cases hParsed : command.raftRequest items with
  | error error => rw [hParsed] at hRequest; cases hRequest
  | ok parsed => rw [hParsed] at hRequest; cases hRequest; cases client.transactionQueue <;> rfl

/-- What goes to the databases leaves the client as it was. -/
theorem submit_eq (several : Bool) (client : Client) (operation : Operation) :
    ∃ (query : Query) (result : query.Answer → Except CacheCatError Value),
      submit several client operation = .ask query (fun answer => .done (client, result answer)) ∧
      query.TouchesData := by
  cases operation with
  | read operation =>
    cases several with
    | false => exact ⟨.read operation client.dbNumber, id, rfl, trivial⟩
    | true => exact ⟨.multiRead operation client.dbNumber, id, rfl, trivial⟩
  | base operation | redis operation =>
    exact ⟨.write (withProto client.protoVersion _) client.dbNumber,
      (·.map (writeReply _)), rfl, trivial⟩

end

/-! ### Isolation -/

variable {operations : List Operation}

namespace Exchange

def dispatched (exchange : Exchange) : Dispatch := exchange.client.dispatch exchange.value

/-- The exchange is the outcome of serving its frame. -/
def Served (exchange : Exchange) : Prop :=
  (exchange.dispatched.perform exchange.client).Transcript exchange.asked
    (exchange.after, exchange.reply)

/-- What a transaction promises of each frame in it: no database is touched, a
well-formed data command is answered by QUEUED, and the queue grows by its
operation and by nothing else. -/
structure Isolated (exchange : Exchange) : Prop where
  untouched : ∀ asked ∈ exchange.asked, ¬ asked.1.TouchesData
  replied : exchange.dispatched.WellFormed → exchange.reply = some (.simpleString "QUEUED")
  queued : exchange.after.transactionQueue =
    exchange.client.transactionQueue.map (· ++ exchange.dispatched.operation.toList)

variable {exchange : Exchange}

/-- Nothing is queued of a frame that is no well-formed data command. -/
theorem operation_eq_none (hItems : ¬ exchange.dispatched.WellFormed) :
    exchange.dispatched.operation = none := by
  unfold Dispatch.WellFormed at hItems
  split at hItems
  next heq => rw [heq]; rfl
  · exact Option.not_isSome_iff_eq_none.mp hItems

/-- Every command that is ever queued stands for an operation. -/
theorem operation_of_queueReply {dispatch : Dispatch} {queued : String}
    (hItems : dispatch.WellFormed) (hReply : dispatch.queueReply = some queued) :
    ∃ operation, dispatch.operation = some operation := by
  unfold Dispatch.WellFormed at hItems
  split at hItems
  · cases hReply
  · exact Option.isSome_iff_exists.mp hItems

section

variable (hServed : exchange.Served)

include hServed

theorem isolated_of_not_wellFormed (hQueue : exchange.client.transactionQueue.isSome = true)
    (hClose : ¬ exchange.dispatched.Closes) (hItems : ¬ exchange.dispatched.WellFormed) :
    exchange.Isolated := by
  obtain ⟨hAsked, hAfter⟩ :=
    hServed.ensures (fun _ _ => trivial) (exchange.dispatched.perform_keeps hQueue hClose hItems)
  refine ⟨hAsked, fun h => absurd h hItems, ?_⟩
  rw [operation_eq_none hItems]
  simpa using hAfter

theorem isolated_of_queueReply (hQueue : exchange.client.transactionQueue = some operations)
    {operation : Operation} (hOperation : exchange.dispatched.operation = some operation)
    (hReply : exchange.dispatched.queueReply = some "QUEUED") : exchange.Isolated := by
  unfold Served at hServed
  rw [Dispatch.perform_queued hQueue hOperation hReply] at hServed
  obtain ⟨hAsked, hResult⟩ := hServed.of_done
  obtain ⟨hAfter, hReplied⟩ := Prod.mk.inj hResult
  refine ⟨by simp [hAsked], fun _ => hReplied, ?_⟩
  rw [hAfter, hQueue, hOperation]
  rfl

/-- A well-formed data command that is never queued goes to the server at once, or
gets an answer other than QUEUED. It leaves the client as it was. -/
theorem not_isolated_of_unqueued (hItems : exchange.dispatched.WellFormed)
    (hReply : exchange.dispatched.queueReply = none) :
    ¬ exchange.Isolated ∧ exchange.after = exchange.client := by
  have hQueued (hIsolated : exchange.Isolated) := hIsolated.replied hItems
  unfold Served at hServed
  generalize exchange.dispatched = dispatch at hItems hReply hServed
  cases dispatch with
  | execute command items =>
    cases command with
    | data command =>
      obtain ⟨operation, hOperation⟩ := Option.isSome_iff_exists.mp hItems
      obtain ⟨query, result, hAsk, hTouches⟩ :=
        submit_eq (readsSeveral command) exchange.client operation
      simp only [Dispatch.perform, Command.execute,
        executeData_unqueued exchange.client hOperation hReply, hAsk] at hServed
      obtain ⟨answer, rest, hAsked, hRest⟩ := hServed.of_ask
      exact ⟨fun hIsolated => hIsolated.untouched ⟨query, answer⟩ (by simp [hAsked]) hTouches,
        (Prod.mk.inj hRest.of_done.2).1⟩
    | evalSha =>
      obtain ⟨params, hParse⟩ := hItems
      simp only [Dispatch.perform, Command.execute, executeEvalSha, hParse] at hServed
      obtain ⟨script, rest, hAsked, hRest⟩ := hServed.of_ask
      cases script with
      | none =>
        obtain ⟨hAfter, hReplied⟩ := Prod.mk.inj hRest.of_done.2
        refine ⟨fun hIsolated => ?_, hAfter⟩
        cases hReplied.symm.trans (hQueued hIsolated)
      | some script =>
        obtain ⟨answer, last, hLast, hDone⟩ := hRest.of_ask
        exact ⟨fun hIsolated => hIsolated.untouched ⟨_, answer⟩ (by simp [hAsked, hLast]) trivial,
          (Prod.mk.inj hDone.of_done.2).1⟩
    | memory => cases hReply
    | _ => cases hItems
  | _ => cases hItems

/-- What a transaction promises is kept by exactly the frames whose command is
queued with the right reply. -/
theorem isolated_iff_queues (hQueue : exchange.client.transactionQueue.isSome = true)
    (hClose : ¬ exchange.dispatched.Closes) : exchange.Isolated ↔ exchange.dispatched.Queues := by
  obtain ⟨operations, hOperations⟩ := Option.isSome_iff_exists.mp hQueue
  constructor
  · intro hIsolated hItems
    cases hReply : exchange.dispatched.queueReply with
    | none => exact absurd hIsolated (not_isolated_of_unqueued hServed hItems hReply).1
    | some queued =>
      have hQueued := hIsolated.replied hItems
      obtain ⟨operation, hOperation⟩ := operation_of_queueReply hItems hReply
      unfold Served at hServed
      rw [Dispatch.perform_queued hOperations hOperation hReply] at hServed
      rw [(Prod.mk.inj hServed.of_done.2).2] at hQueued
      cases hQueued
      rfl
  · intro hQueues
    by_cases hItems : exchange.dispatched.WellFormed
    · obtain ⟨operation, hOperation⟩ := operation_of_queueReply hItems (hQueues hItems)
      exact isolated_of_queueReply hServed hOperations hOperation (hQueues hItems)
    · exact isolated_of_not_wellFormed hServed hQueue hClose hItems

/-- Within a transaction the queue only grows. -/
theorem after_queue (hQueue : exchange.client.transactionQueue = some operations)
    (hClose : ¬ exchange.dispatched.Closes) :
    exchange.after.transactionQueue = some (operations ++ exchange.dispatched.queued.toList) := by
  by_cases hItems : exchange.dispatched.WellFormed
  · cases hReply : exchange.dispatched.queueReply with
    | none =>
      simp [(not_isolated_of_unqueued hServed hItems hReply).2, hQueue, Dispatch.queued, hReply]
    | some queued =>
      obtain ⟨operation, hOperation⟩ := operation_of_queueReply hItems hReply
      unfold Served at hServed
      rw [Dispatch.perform_queued hQueue hOperation hReply] at hServed
      rw [(Prod.mk.inj hServed.of_done.2).1]
      simp [Dispatch.queued, hReply, hOperation]
  · have hKeeps : exchange.after.transactionQueue = exchange.client.transactionQueue :=
      (hServed.ensures (fun _ _ => trivial)
        (exchange.dispatched.perform_keeps (by simp [hQueue]) hClose hItems)).2
    have hNone : exchange.dispatched.queued = none := by
      simp [Dispatch.queued, operation_eq_none hItems]
    simp [hKeeps, hQueue, hNone]

/-- Only EXEC and DISCARD end a transaction. -/
theorem after_isSome (hQueue : exchange.client.transactionQueue.isSome = true)
    (hClose : ¬ exchange.dispatched.Closes) : exchange.after.transactionQueue.isSome = true := by
  obtain ⟨operations, hOperations⟩ := Option.isSome_iff_exists.mp hQueue
  rw [after_queue hServed hOperations hClose]
  rfl

end

end Exchange

/-! ### Whole transactions -/

section

variable {client last : Client} {exchanges : List Exchange}

theorem Serves.isSome_of_mem (hRun : Serves client exchanges last)
    (hQueue : client.transactionQueue.isSome = true)
    (hOpen : ∀ exchange ∈ exchanges, ¬ exchange.dispatched.Closes) :
    ∀ exchange ∈ exchanges,
      exchange.Served ∧ exchange.client.transactionQueue.isSome = true := by
  induction hRun with
  | nil client => simp
  | streamEnded _ _ ih => exact ih hQueue hOpen
  | @frame client last exchange exchanges _ hClient hFrame _ ih =>
    subst hClient
    rw [List.forall_mem_cons] at hOpen ⊢
    have hServed : exchange.Served := hFrame
    exact ⟨⟨hServed, hQueue⟩, ih (exchange.after_isSome hServed hQueue hOpen.1) hOpen.2⟩

/-- The queue holds the operations of the well-formed data commands, in order. -/
theorem Serves.queue_eq (hRun : Serves client exchanges last)
    (hQueue : client.transactionQueue = some operations)
    (hIsolated : ∀ exchange ∈ exchanges, exchange.Isolated) :
    last.transactionQueue = some (operations ++ exchanges.filterMap (·.dispatched.operation)) := by
  induction hRun generalizing operations with
  | nil client => simpa using hQueue
  | streamEnded _ _ ih => exact ih hQueue hIsolated
  | @frame client last exchange exchanges _ hClient _ _ ih =>
    subst hClient
    rw [List.forall_mem_cons] at hIsolated
    have hAfter := hIsolated.1.queued
    rw [hQueue] at hAfter
    rw [ih hAfter hIsolated.2]
    cases hOperation : exchange.dispatched.operation with
    | none | some operation => simp [hOperation]

end

/-! ### Application of the log entry of EXEC -/

section

open Cache StateMachine

variable {Vm : Type} (lua : LuaMachine Vm) (mode : UpdateType) (logId : LogId) (clock : Nat)
  (dbNumber : Fin (2 ^ 16)) (operations : List Operation)

/-- The log entry of an EXEC, stamped with a clock. -/
def execEntry : LogEntry :=
  ⟨logId, .normal (.new clock dbNumber (.redis (.redisExec operations)))⟩

/-- What the operations of the entry are carried out with. -/
def execUpdate (s : State Vm) : Update :=
  ⟨dbNumber, max s.writeClock (clock % Raft.clockBound), mode, false⟩

theorem applyEntry_execEntry :
    applyEntry mode (execEntry logId clock dbNumber operations) =
      (Cache.ask (.setWriteClock (clock % Raft.clockBound)) >>= fun writeClock =>
        withReadersLocked do
          return .array (some (← execOperations ⟨dbNumber, writeClock, mode, false⟩ operations))) :=
  applyEntry_normal _ _ (Raft.Request.splitU64_new clock dbNumber _ dbNumber.isLt)

/-- An EXEC comes to its end if all its operations do. -/
theorem applyEntry_exec_runs {s : State Vm} (hUnlocked : s.readersLocked = false)
    (hFree : AllUnhindered (ScriptEnds lua (execUpdate mode clock dbNumber s)) operations) :
    ∃ t reply, (machine lua).Runs s
      (applyEntry mode (execEntry logId clock dbNumber operations)) t reply := by
  rw [applyEntry_execEntry]
  let stamped : State Vm := { s with writeClock := max s.writeClock (clock % Raft.clockBound) }
  let locked : State Vm := { stamped with readersLocked := true }
  obtain ⟨t, replies, hRun, hLocked⟩ := execOperations_runs Env.quiet operations hFree locked rfl
  have hClock : (machine lua).Runs s (Cache.ask (.setWriteClock (clock % Raft.clockBound))) stamped
      (max s.writeClock (clock % Raft.clockBound)) :=
    .call rfl ⟨Env.quiet, rfl⟩
  have hLock : (machine lua).Runs stamped (Cache.ask .lockReaders) locked () := by
    refine .call rfl ⟨Env.quiet, ?_⟩
    simp [handle, stamped, hUnlocked, locked]
  have hUnlock : (machine lua).Runs t (Cache.ask .unlockReaders)
      { t with readersLocked := false } () :=
    .call rfl ⟨Env.quiet, rfl⟩
  have hOperations : (machine lua).Runs locked
      (do
        return Value.array (some (← execOperations (execUpdate mode clock dbNumber s) operations)))
      t (.array (some replies)) := hRun.bind (.done t _)
  exact ⟨_, _, hClock.bind (hLock.bind (hOperations.bind (hUnlock.bind (.done _ _))))⟩

/-- How an EXEC is applied: the clock is advanced, the readers are locked out, the
operations are carried out in order, and the readers are let in again. -/
def ExecApplied (s t : State Vm) (replies : List Value) : Prop :=
  ∃ stamped writeClock begun ended,
    (machine lua).Runs s (Cache.ask (.setWriteClock (clock % Raft.clockBound))) stamped writeClock ∧
    (machine lua).Runs stamped (Cache.ask .lockReaders) begun () ∧
    RunsInOrder lua ⟨dbNumber, writeClock, mode, false⟩ begun operations ended replies ∧
    (machine lua).Runs ended (Cache.ask .unlockReaders) t ()

theorem execApplied_of_runs {s t : State Vm} {reply : Value}
    (hRun : (machine lua).Runs s
      (applyEntry mode (execEntry logId clock dbNumber operations)) t reply) :
    ∃ replies, reply = .array (some replies) ∧
      ExecApplied lua mode clock dbNumber operations s t replies := by
  rw [applyEntry_execEntry] at hRun
  obtain ⟨stamped, writeClock, hClock, hRun⟩ := hRun.exists_of_bind
  obtain ⟨begun, _, hLock, hRun⟩ := Library.Machine.Runs.exists_of_bind hRun
  obtain ⟨ended, value, hBody, hRun⟩ := Library.Machine.Runs.exists_of_bind hRun
  obtain ⟨_, rfl, hUnlock⟩ := Library.Machine.Runs.of_bind_done hRun
  obtain ⟨replies, rfl, hOperations⟩ := Library.Machine.Runs.of_bind_done hBody
  exact ⟨replies, rfl, stamped, writeClock, begun, ended, hClock, hLock,
    runsInOrder_of_execOperations hOperations, hUnlock⟩

end

/-! ### The promise of a transaction -/

/-- Between two frames at most a subscription ends. -/
theorem Serves.queue_of_nil {last : Client} (hRun : Serves client [] last) :
    last.transactionQueue = client.transactionQueue := by
  generalize hNil : ([] : List Exchange) = exchanges at hRun
  induction hRun with
  | nil client => rfl
  | streamEnded _ _ ih => exact ih hNil
  | frame _ _ _ _ _ => cases hNil

theorem Serves.of_single {after : Client} (hRun : Serves client [exchange] after) :
    exchange.Served ∧ exchange.client.transactionQueue = client.transactionQueue ∧
      exchange.client.dbNumber = client.dbNumber ∧
      after.transactionQueue = exchange.after.transactionQueue := by
  generalize hSingle : [exchange] = exchanges at hRun
  induction hRun with
  | nil client => cases hSingle
  | streamEnded _ _ ih => exact ih hSingle
  | frame _ hClient hFrame hRest _ =>
    cases hSingle
    subst hClient
    exact ⟨hFrame, rfl, rfl, hRest.queue_of_nil⟩

/-- EXEC hands over one operation for the log and passes its response on. -/
def Executes (operations : List Operation) (dbNumber : Fin (2 ^ 16)) (exchange : Exchange) : Prop :=
  ∃ response, exchange.asked = [⟨.write (.redis (.redisExec operations)) dbNumber, response⟩] ∧
    exchange.reply = some (reply response) ∧ exchange.after.transactionQueue = none

/-- DISCARD asks nothing of the server. -/
def Discards (exchange : Exchange) : Prop :=
  exchange.asked = [] ∧ exchange.reply = some .ok ∧ exchange.after.transactionQueue = none

theorem queue_of_multi (hServed : exchange.Served)
    (hMulti : exchange.dispatched = .execute .multi items) (hOk : exchange.reply = some .ok) :
    exchange.after.transactionQueue = some [] := by
  unfold Exchange.Served at hServed
  simp only [hMulti, Dispatch.perform, Command.execute, executeMulti] at hServed
  split_ifs at hServed
  · cases hOk.symm.trans (Prod.mk.inj hServed.of_done.2).2
  · cases hOk.symm.trans (Prod.mk.inj hServed.of_done.2).2
  · rw [(Prod.mk.inj hServed.of_done.2).1]

theorem discards_of_served (hServed : exchange.Served)
    (hDiscard : exchange.dispatched = .execute .discard items) (hItems : items.length < 2)
    (hQueue : exchange.client.transactionQueue.isSome = true) : Discards exchange := by
  unfold Exchange.Served at hServed
  simp only [hDiscard, Dispatch.perform, Command.execute, executeDiscard] at hServed
  rw [if_neg (not_le.mpr hItems),
    if_neg (by simpa [Option.isSome_iff_ne_none] using hQueue)] at hServed
  obtain ⟨hAsked, hResult⟩ := hServed.of_done
  obtain ⟨hAfter, hReply⟩ := Prod.mk.inj hResult
  exact ⟨hAsked, hReply, by rw [hAfter]⟩

theorem executes_of_served (hServed : exchange.Served)
    (hExec : exchange.dispatched = .execute .exec items) (hItems : items.length < 2)
    (hQueue : exchange.client.transactionQueue = some operations) :
    Executes operations exchange.client.dbNumber exchange := by
  unfold Exchange.Served at hServed
  simp only [hExec, Dispatch.perform, Command.execute, executeExec] at hServed
  rw [if_neg (not_le.mpr hItems), hQueue] at hServed
  obtain ⟨response, rest, hAsked, hRest⟩ := hServed.of_ask
  refine ⟨response, ?_⟩
  cases response with
  | error error | ok value =>
    obtain ⟨rfl, hResult⟩ := hRest.of_done
    obtain ⟨hAfter, hReply⟩ := Prod.mk.inj hResult
    exact ⟨hAsked, hReply, by rw [hAfter]⟩

/-- What the log entry of an EXEC does on every node, at the end of whatever other
entries: it is applied to its end if none of its operations waits forever, and its
response has one result for each operation, carried out in order. -/
def AppliesInOrder (operations : List Operation) (dbNumber : Fin (2 ^ 16)) : Prop :=
  ∀ (Vm : Type) (lua : Cache.LuaMachine Vm) (mode : Cache.UpdateType) (logId : StateMachine.LogId)
    (clock : Nat) (s : Cache.State Vm), s.readersLocked = false →
    (Cache.AllUnhindered (Cache.ScriptEnds lua (execUpdate mode clock dbNumber s)) operations →
      ∃ t response, (Cache.machine lua).Runs s
        (StateMachine.applyEntry mode (execEntry logId clock dbNumber operations)) t response) ∧
    ∀ t response, (Cache.machine lua).Runs s
        (StateMachine.applyEntry mode (execEntry logId clock dbNumber operations)) t response →
      ∃ results, response = .array (some results) ∧ results.length = operations.length ∧
        ExecApplied lua mode clock dbNumber operations s t results

theorem appliesInOrder (operations : List Operation) (dbNumber : Fin (2 ^ 16)) :
    AppliesInOrder operations dbNumber := by
  intro Vm lua mode logId clock s hUnlocked
  refine ⟨fun hFree => applyEntry_exec_runs lua mode logId clock dbNumber operations hUnlocked
    hFree, fun t response hRun => ?_⟩
  obtain ⟨results, hResponse, hApplied⟩ :=
    execApplied_of_runs lua mode logId clock dbNumber operations hRun
  refine ⟨results, hResponse, ?_, hApplied⟩
  obtain ⟨_, _, _, _, _, _, hOrder, _⟩ := hApplied
  exact hOrder.length_eq

/-- Between a successful MULTI and the EXEC or DISCARD that ends the transaction
every frame keeps the promise exactly if every well-formed data command among them
is one that is queued with the reply QUEUED. Then DISCARD drops all of them, and
EXEC puts them into one log entry, in order. -/
theorem transaction_isolated {client opened last : Client} {start : Exchange}
    {startItems : List Value} {exchanges : List Exchange} (hStart : Serves client [start] opened)
    (hMulti : start.dispatched = .execute .multi startItems) (hOk : start.reply = some .ok)
    (hRun : Serves opened exchanges last)
    (hOpen : ∀ exchange ∈ exchanges, ¬ exchange.dispatched.Closes) :
    ((∀ exchange ∈ exchanges, exchange.Isolated) ↔
      ∀ exchange ∈ exchanges, exchange.dispatched.Queues) ∧
    ((∀ exchange ∈ exchanges, exchange.dispatched.Queues) →
      ∀ final after items, Serves last [final] after → items.length < 2 →
        (final.dispatched = .execute .discard items →
          Discards final ∧ after.transactionQueue = none) ∧
        (final.dispatched = .execute .exec items →
          Executes (exchanges.filterMap (·.dispatched.operation)) last.dbNumber final ∧
          AppliesInOrder (exchanges.filterMap (·.dispatched.operation)) last.dbNumber ∧
          after.transactionQueue = none)) := by
  obtain ⟨hServed, -, -, hOpened⟩ := hStart.of_single
  have hBegun : opened.transactionQueue = some [] :=
    hOpened.trans (queue_of_multi hServed hMulti hOk)
  have hFrames := hRun.isSome_of_mem (by rw [hBegun]; rfl) hOpen
  have hIff : (∀ exchange ∈ exchanges, exchange.Isolated) ↔
      ∀ exchange ∈ exchanges, exchange.dispatched.Queues :=
    forall₂_congr fun exchange hMem =>
      Exchange.isolated_iff_queues (hFrames exchange hMem).1 (hFrames exchange hMem).2
        (hOpen exchange hMem)
  refine ⟨hIff, fun hQueues final after items hFinal hItems => ?_⟩
  have hQueue := hRun.queue_eq hBegun (hIff.mpr hQueues)
  obtain ⟨hLast, hClient, hDb, hAfter⟩ := hFinal.of_single
  rw [hQueue, List.nil_append] at hClient
  constructor
  · intro hDiscard
    have hDiscards := discards_of_served hLast hDiscard hItems (by rw [hClient]; rfl)
    exact ⟨hDiscards, hAfter.trans hDiscards.2.2⟩
  · intro hExec
    have hExecutes := executes_of_served hLast hExec hItems hClient
    obtain ⟨response, hAsked, hReply, hNone⟩ := hExecutes
    refine ⟨⟨response, ?_, hReply, hNone⟩, appliesInOrder _ _, hAfter.trans hNone⟩
    rw [hAsked, hDb]

/-! ### Two sessions -/

/-- The items of a request made of texts. -/
def words (texts : List String) : List Value :=
  texts.map fun text => .bulkString (some (bytes text))

/-- A client in the transaction it has opened. -/
def Client.inMulti (operations : List Operation) : Client :=
  { Client.new 1 true with transactionQueue := some operations, multi := true }

def multiExchange : Exchange where
  client := .new 1 true
  value := .array (some (words ["MULTI"]))
  asked := []
  reply := some .ok
  after := .inMulti []

theorem multiExchange_dispatched :
    multiExchange.dispatched = .execute .multi (words ["MULTI"]) :=
  Client.dispatch_eq rfl rfl (by decide +kernel : _ = "MULTI") (by decide +kernel)

theorem serves_multi : Serves (.new 1 true) [multiExchange] (.inMulti []) := by
  refine .frame rfl rfl ?_ (.nil _)
  exact .done _

def incrExchange : Exchange where
  client := .inMulti []
  value := .array (some (words ["INCR", "n"]))
  asked := []
  reply := some (.simpleString "QUEUED")
  after := .inMulti [.base (.incr ⟨bytes "n"⟩)]

theorem incrExchange_dispatched :
    incrExchange.dispatched = .execute (.data .incr) (words ["INCR", "n"]) :=
  Client.dispatch_eq rfl rfl (by decide +kernel : _ = "INCR") (by decide +kernel)

theorem incrExchange_served : incrExchange.Served := by
  exact .done _

theorem serves_incr : Serves (.inMulti []) [incrExchange] incrExchange.after :=
  .frame rfl rfl incrExchange_served (.nil _)

theorem transaction_isolated_incr :
    (∀ exchange ∈ [incrExchange], exchange.Isolated) ∧
      ∀ final after items, Serves incrExchange.after [final] after → items.length < 2 →
        final.dispatched = .execute .exec items →
          Executes [.base (.incr ⟨bytes "n"⟩)] 0 final := by
  have hTransaction := transaction_isolated serves_multi multiExchange_dispatched rfl serves_incr
    (by simp [incrExchange_dispatched, Dispatch.Closes])
  have hQueues : ∀ exchange ∈ [incrExchange], exchange.dispatched.Queues := by
    simp [incrExchange_dispatched, Dispatch.Queues, Dispatch.queueReply, queueReply]
  refine ⟨hTransaction.1.mpr hQueues, fun final after items hFinal hItems hExec => ?_⟩
  have hOperation : incrExchange.dispatched.operation = some (.base (.incr ⟨bytes "n"⟩)) := by
    rw [incrExchange_dispatched]
    rfl
  have hExecutes := ((hTransaction.2 hQueues final after items hFinal hItems).2 hExec).1
  simp only [List.filterMap_cons, hOperation, List.filterMap_nil] at hExecutes
  exact hExecutes

/-- ZADD inside MULTI is written to the log at once, and its result is the reply. -/
theorem zadd_executed_inside_multi :
    ∃ (exchange : Exchange) (operation : Operation),
      Serves (.new 1 true) [multiExchange] (.inMulti []) ∧ multiExchange.reply = some .ok ∧
      Serves (.inMulti []) [exchange] (.inMulti []) ∧
      exchange.value = .array (some (words ["ZADD", "z", "1", "m"])) ∧
      exchange.asked = [⟨.write operation 0, .ok (.integer 1)⟩] ∧
      exchange.reply = some (.integer 1) ∧ ¬ exchange.Isolated := by
  have hDispatch : (Client.inMulti []).dispatch (.array (some (words ["ZADD", "z", "1", "m"]))) =
      .execute (.data .zAdd) (words ["ZADD", "z", "1", "m"]) :=
    Client.dispatch_eq rfl rfl (by decide +kernel : _ = "ZADD") (by decide +kernel)
  have hSome : (ZAddReq.parse (words ["ZADD", "z", "1", "m"])).toOption.isSome = true := by
    decide +kernel
  obtain ⟨req, hParse⟩ : ∃ req, ZAddReq.parse (words ["ZADD", "z", "1", "m"]) = .ok req := by
    cases hParsed : ZAddReq.parse (words ["ZADD", "z", "1", "m"]) with
    | error error => rw [hParsed] at hSome; cases hSome
    | ok req => exact ⟨req, rfl⟩
  have hRequest : (RaftCommand.zAdd.raftRequest (words ["ZADD", "z", "1", "m"])).toOption =
      some (.base (.zAdd req)) := by
    simp only [RaftCommand.raftRequest, hParse]
    rfl
  let exchange : Exchange := ⟨.inMulti [], .array (some (words ["ZADD", "z", "1", "m"])),
    [⟨.write (.base (.zAdd req)) 0, .ok (.integer 1)⟩], some (.integer 1), .inMulti []⟩
  have hServed : exchange.Served := by
    change ((Client.dispatch _ _).perform _).Transcript _ _
    rw [hDispatch]
    simp only [Dispatch.perform, Command.execute, executeData_unqueued _ hRequest rfl]
    exact .ask (.done _)
  refine ⟨exchange, .base (.zAdd req), serves_multi, rfl, .frame rfl rfl hServed (.nil _), rfl, rfl,
    rfl, fun hIsolated => ?_⟩
  exact hIsolated.untouched _ (List.mem_singleton.mpr rfl) trivial

end CacheCat.Protocol
