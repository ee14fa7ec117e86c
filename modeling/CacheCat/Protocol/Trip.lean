import CacheCat.Cache.Single
import CacheCat.Protocol.Session
import CacheCat.StateMachine.Apply

/-! A command on its way. What its `execute` asks of the databases is answered by the
node: a write is put into the log with the clock of the leader and answered when
the entry has been applied, and a read is made on the databases. -/
namespace CacheCat.Protocol

open Cache (State View LuaMachine UpdateType machine shows_view)
open Library (Program)
open StateMachine (applyEntry)
open Raft (clockBound)

variable {Vm : Type}

/-- The answers to what a command asks at one time of the leader. -/
inductive Answered (lua : LuaMachine Vm) (clock : Nat) :
    State Vm → List (Sigma Query.Answer) → State Vm → Prop
  | nil (s : State Vm) : Answered lua clock s [] s
  | write {s middle t : State Vm} {operation : Operation} {dbNumber : Fin (2 ^ 16)}
      {mode : UpdateType} {logId : StateMachine.LogId} {response : Value}
      {asked : List (Sigma Query.Answer)} (hMode : ∀ version, mode ≠ .cas version)
      (hApply : (machine lua).Runs s
        (applyEntry mode ⟨logId, .normal (.new clock dbNumber operation)⟩) middle response)
      (hRest : Answered lua clock middle asked t) :
      Answered lua clock s (⟨.write operation dbNumber, .ok response⟩ :: asked) t
  | read {s middle t : State Vm} {operation : ReadOperation} {dbNumber : Fin (2 ^ 16)}
      {response : Value} {asked : List (Sigma Query.Answer)} (hClock : s.writeClock ≤ clock)
      (hRead : (machine lua).Runs s
        (Cache.readRequest false dbNumber (some clock) operation) middle response)
      (hRest : Answered lua clock middle asked t) :
      Answered lua clock s (⟨.read operation dbNumber, .ok response⟩ :: asked) t

/-- A client sends the items of a data command, and gets `value` back. -/
def Sends (lua : LuaMachine Vm) (clock : Nat) (client : Client) (command : RaftCommand)
    (items : List Value) (s t : State Vm) (value : Value) : Prop :=
  ∃ asked after result, (executeData command client items).Transcript asked (after, result) ∧
    value = reply result ∧ Answered lua clock s asked t

/-- The command is answered, and every time it leaves this view. -/
def LeadsTo (lua : LuaMachine Vm) (clock : Nat) (client : Client) (command : RaftCommand)
    (items : List Value) (s : State Vm) (view : View) : Prop :=
  (∃ t value, Sends lua clock client command items s t value) ∧
    ∀ t value, Sends lua clock client command items s t value → t.view = view

/-- What an entry with this clock finds when it is applied. -/
def stamped (s : State Vm) (clock : Nat) : View := s.view.tick (clock % clockBound)

section

variable {lua : LuaMachine Vm} {clock : Nat} {client : Client} {command : RaftCommand}
    {items : List Value} {s t : State Vm} {value : Value} {operation : Operation}
    {post : View → Value → Prop}

theorem settles_applyEntry (mode : UpdateType) (logId : StateMachine.LogId)
    (dbNumber : Fin (2 ^ 16)) :
    (applyEntry mode ⟨logId, .normal (.new clock dbNumber operation)⟩).Settles View.effect post
        s.view ↔
      (Cache.doRequest ⟨dbNumber, (stamped s clock).writeClock, mode, false⟩ true
        operation).Settles View.effect post (stamped s clock) := by
  rw [StateMachine.applyEntry_normal mode logId
    (Raft.Request.splitU64_new clock dbNumber operation dbNumber.isLt), Program.settles_bind,
    Cache.settles_setWriteClock]
  rfl

theorem executeData_eq_submit (hQueue : client.transactionQueue = none)
    (hOperation : command.raftRequest items = .ok operation) :
    executeData command client items = submit (readsSeveral command) client operation := by
  simp only [executeData, hQueue, hOperation]

theorem submit_eq_write (several : Bool) (hWrite : ∀ read, operation ≠ .read read)
    (hProto : withProto client.protoVersion operation = operation) :
    submit several client operation = .ask (.write operation client.dbNumber) fun response =>
      .done (client, response.map (writeReply operation)) := by
  cases operation with
  | read read => exact absurd rfl (hWrite read)
  | base operation => rfl
  | redis operation =>
    change Program.ask (Query.write (withProto client.protoVersion _) client.dbNumber) _ = _
    rw [hProto]
    rfl

section

variable (hQueue : client.transactionQueue = none)
  (hOperation : command.raftRequest items = .ok operation)
  (hWrite : ∀ read, operation ≠ .read read)
  (hProto : withProto client.protoVersion operation = operation)

include hQueue hOperation hWrite hProto

/-- What a write leaves behind and what its client is told. -/
theorem Sends.settles_write (hSends : Sends lua clock client command items s t value)
    (hSettles : ∀ mode, (∀ version, mode ≠ UpdateType.cas version) →
      (Cache.doRequest ⟨client.dbNumber, (stamped s clock).writeClock, mode, false⟩ true
        operation).Settles View.effect post (stamped s clock)) :
    ∃ response, value = writeReply operation response ∧ post t.view response := by
  obtain ⟨asked, after, result, hTranscript, rfl, hAnswered⟩ := hSends
  rw [executeData_eq_submit hQueue hOperation, submit_eq_write _ hWrite hProto] at hTranscript
  obtain ⟨answer, rest, rfl, hRest⟩ := hTranscript.of_ask
  obtain ⟨rfl, hResult⟩ := hRest.of_done
  cases hAnswered with
  | write hMode hApply hRest =>
    cases hRest
    cases hResult
    refine ⟨_, rfl, hApply.settles (shows_view lua) ?_⟩
    exact (settles_applyEntry ..).mpr (hSettles _ hMode)

/-- An applied entry answers the command that asked for it. -/
theorem Sends.of_runs {mode : UpdateType} {logId : StateMachine.LogId} {response : Value}
    (hMode : ∀ version, mode ≠ .cas version)
    (hRun : (machine lua).Runs s
      (applyEntry mode ⟨logId, .normal (.new clock client.dbNumber operation)⟩) t response) :
    Sends lua clock client command items s t (writeReply operation response) := by
  refine ⟨_, client, .ok (writeReply operation response), ?_, rfl, .write hMode hRun (.nil t)⟩
  rw [executeData_eq_submit hQueue hOperation, submit_eq_write _ hWrite hProto]
  exact .ask (.done _)

theorem leadsTo_write {view : View} (hSettles : ∀ mode, (∀ version, mode ≠ UpdateType.cas version) →
      (Cache.doRequest ⟨client.dbNumber, (stamped s clock).writeClock, mode, false⟩ true
        operation).Settles View.effect (fun after _ => after = view) (stamped s clock)) :
    LeadsTo lua clock client command items s view := by
  constructor
  · have hMode (version : Nat) : UpdateType.none ≠ .cas version := nofun
    obtain ⟨t, response, hRun⟩ := (shows_view lua).exists_run
      ((settles_applyEntry .none ⟨0, 0, 0⟩ client.dbNumber).mpr (hSettles .none hMode))
    exact ⟨t, _, .of_runs hQueue hOperation hWrite hProto hMode hRun⟩
  · intro t value hSends
    obtain ⟨_, -, hView⟩ := hSends.settles_write hQueue hOperation hWrite hProto hSettles
    exact hView

end

section

variable (hQueue : client.transactionQueue = none) (hDb : client.dbNumber < s.count)

include hQueue hDb

/-- Where a write command on one key leads. -/
theorem leadsTo_compute (order : HashOrder) {operation : BaseOperation} {compute : ComputeCommand}
    (hOperation : command.raftRequest items = .ok (.base operation))
    (hCommand : operation.computeCommand order = some compute) :
    LeadsTo lua clock client command items s ((stamped s clock).compute
      ⟨client.dbNumber, (stamped s clock).writeClock, .none, false⟩ compute).1 := by
  refine leadsTo_write hQueue hOperation nofun rfl fun mode hMode => ?_
  simp only [Cache.doRequest]
  rw [Cache.settles_baseRequest hCommand, Cache.settles_executeCompute hMode hDb]
  rfl

/-- Where a command leads that is made of several handlers. -/
theorem leadsTo_redis {operation : RedisOperation}
    (hOperation : command.raftRequest items = .ok (.redis operation))
    (hSingle : operation.isSingle = true)
    (hFree : operation.takesLock = true → s.readersLocked = false) :
    LeadsTo lua clock client command items s ((stamped s clock).performRedis
      ⟨client.dbNumber, (stamped s clock).writeClock, .none, false⟩ operation).1 := by
  refine leadsTo_write hQueue hOperation nofun ?_ fun mode hMode => ?_
  · cases operation with
    | redisEval params => cases hSingle
    | _ => rfl
  · rw [Cache.doRequest, Cache.settles_performRedis hMode hDb hSingle fun _ => hFree]
    cases operation <;> rfl

end

section

variable {operation : ReadOperation} (hQueue : client.transactionQueue = none)
  (hOperation : command.raftRequest items = .ok (.read operation))
    (hOne : readsSeveral command = false)

include hQueue hOperation hOne

/-- What a client is told that reads one key. -/
theorem Sends.settles_read (hSends : Sends lua clock client command items s t value)
    (hSettles : s.writeClock ≤ clock → (Cache.readRequest false client.dbNumber (some clock)
      operation).Settles View.effect post s.view) : post t.view value := by
  obtain ⟨asked, after, result, hTranscript, rfl, hAnswered⟩ := hSends
  rw [executeData_eq_submit hQueue hOperation, hOne] at hTranscript
  obtain ⟨answer, rest, rfl, hRest⟩ := hTranscript.of_ask
  obtain ⟨rfl, hResult⟩ := hRest.of_done
  cases hAnswered with
  | read hClock hRead hRest =>
    cases hRest
    cases hResult
    exact hRead.settles (shows_view lua) (hSettles hClock)

theorem Sends.of_read (hClock : s.writeClock ≤ clock)
    (hRun : (machine lua).Runs s
      (Cache.readRequest false client.dbNumber (some clock) operation) t value) :
    Sends lua clock client command items s t value := by
  refine ⟨_, client, .ok value, ?_, rfl, .read hClock hRun (.nil t)⟩
  rw [executeData_eq_submit hQueue hOperation, hOne]
  exact .ask (.done _)

end

end
end CacheCat.Protocol
