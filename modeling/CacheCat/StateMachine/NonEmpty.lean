import CacheCat.Cache.Collections
import CacheCat.StateMachine.Apply

/-! Logs whose commands leave no empty collection. -/
namespace CacheCat.StateMachine

open Cache
open Library (Machine)

/-- What a client's request stands for. A script may also have been found by its digest. -/
inductive Requested : Operation → Prop
  | command {command : RaftCommand} {items : List Value} {operation : Operation}
      (hRequest : command.raftRequest items = .ok operation) : Requested operation
  | script (params : EvalParams) : Requested (.redis (.redisEval params))

theorem Requested.proper {operation : Operation} (hRequested : Requested operation) :
    operation.Proper := by
  cases hRequested with
  | command hRequest => exact RaftCommand.proper_raftRequest hRequest
  | script params => trivial

/-- What a log entry carries: one such operation, or the queue of a transaction. -/
inductive Logged : Operation → Prop
  | alone {operation : Operation} (hRequested : Requested operation) : Logged operation
  | transaction {operations : List Operation}
      (hRequested : ∀ operation ∈ operations, Requested operation) :
      Logged (.redis (.redisExec operations))

section

variable {Vm : Type} (lua : LuaMachine Vm)

/-- The operation of an entry leaves something, and each of a transaction does. -/
def LeavesSomeIn (update : Update) (s : State Vm) : Operation → Prop
  | .redis (.redisExec operations) => ∀ locked, (machine lua).Runs s (ask .lockReaders) locked () →
      AllLeaveSome lua update operations locked
  | operation => LeavesSomeThroughout lua update true operation s

/-- The same once the entry has moved the clock. -/
def LogEntry.LeavesSome (mode : UpdateType) (s : State Vm) (entry : LogEntry) : Prop :=
  match entry.payload with
  | .normal request => ∀ started clock,
      (machine lua).Runs s (ask (.setWriteClock request.splitU64.1)) started clock →
        LeavesSomeIn lua ⟨request.splitU64.2, clock, mode, false⟩ started request.operation
  | _ => True

/-- The states that logs of commands lead to from an empty store, as long as every
entry leaves something. -/
inductive Reached (count : Nat) (vm : Vm) : State Vm → Prop
  | new : Reached count vm (.new count vm)
  | apply {s t : State Vm} {mode : UpdateType} {entry : LogEntry} {reply : Value}
      (hReached : Reached count vm s)
      (hLogged : ∀ request, entry.payload = .normal request → Logged request.operation)
      (hLeaves : entry.LeavesSome lua mode s)
      (hRun : (machine lua).Runs s (applyEntry mode entry) t reply) : Reached count vm t

end

section

variable {Vm : Type} {lua : LuaMachine Vm} {s t : State Vm} {update : Update} {mode : UpdateType}
    {entry : LogEntry} {reply : Value}

theorem holds_of_logged {operation : Operation} (hLogged : Logged operation)
    (hLeaves : LeavesSomeIn lua update s operation) (hView : s.Holds ValueObject.NonEmpty)
    (hRun : (machine lua).Runs s (doRequest update true operation) t reply) :
    t.Holds ValueObject.NonEmpty := by
  cases hLogged with
  | alone hRequested =>
    have hProper := hRequested.proper
    have hThroughout : LeavesSomeThroughout lua update true operation s := by
      unfold LeavesSomeIn at hLeaves
      split at hLeaves
      · exact hProper.elim
      · exact hLeaves
    exact holds_of_doRequest hProper hThroughout hView hRun
  | @transaction operations hRequested =>
    have hLocked : (machine lua).Runs s (ask .lockReaders >>= fun _ =>
        (execOperations update operations >>= fun replies => .done (.array (some replies))) >>=
          fun reply => ask .unlockReaders >>= fun _ => .done reply) t reply := hRun
    obtain ⟨locked, _, hLock, hRest⟩ := hLocked.exists_of_bind
    obtain ⟨unlocking, _, hBody, hUnlock⟩ := hRest.exists_of_bind
    obtain ⟨replies, -, hOperations⟩ := Machine.Runs.of_bind_done hBody
    have hStart : Keeps ValueObject.NonEmpty (ask .lockReaders) := ⟨trivial, fun _ _ => trivial⟩
    have hEnd := holds_of_execOperations (fun operation hMem => (hRequested operation hMem).proper)
      (hLeaves locked hLock) (hStart.holds hView hLock) hOperations
    refine Keeps.holds ?_ hEnd hUnlock
    exact ⟨trivial, fun _ _ => trivial⟩

theorem holds_of_applyEntry
    (hLogged : ∀ request, entry.payload = .normal request → Logged request.operation)
    (hLeaves : entry.LeavesSome lua mode s) (hView : s.Holds ValueObject.NonEmpty)
    (hRun : (machine lua).Runs s (applyEntry mode entry) t reply) :
    t.Holds ValueObject.NonEmpty := by
  obtain ⟨logId, payload⟩ := entry
  cases payload with
  | blank | membership =>
    have hKeeps : Keeps ValueObject.NonEmpty (.done Value.ok) := trivial
    exact hKeeps.holds hView hRun
  | normal request =>
    obtain ⟨started, clock, hTick, hRequest⟩ := Machine.Runs.exists_of_bind hRun
    have hKeeps : Keeps ValueObject.NonEmpty (ask (.setWriteClock request.splitU64.1)) :=
      ⟨trivial, fun _ _ => trivial⟩
    exact holds_of_logged (hLogged request rfl) (hLeaves started clock hTick)
      (hKeeps.holds hView hTick) hRequest

theorem Reached.holds {count : Nat} {vm : Vm} (hReached : Reached lua count vm s) :
    s.Holds ValueObject.NonEmpty := by
  induction hReached with
  | new => exact State.holds_new count vm _
  | apply _ hLogged hLeaves hRun ih => exact holds_of_applyEntry hLogged hLeaves ih hRun

/-- No state that is reached so has an empty list, hash, sorted set or set, and a command
without a script, run in a database there is, makes no collection empty exactly if it
leaves something. -/
theorem nonEmpty_iff_leavesSome {count : Nat} {vm : Vm} (hReached : Reached lua count vm s) :
    s.Holds ValueObject.NonEmpty ∧
    ∀ (batch : Batch) (logId : LogId) (request : Raft.Request Operation) (t : State Vm)
      (reply : Value), Requested request.operation → hasEval request.operation = false →
      request.splitU64.2 < s.count →
      (machine lua).Runs s (applyEntry batch.mode ⟨logId, .normal request⟩) t reply →
      (t.Holds ValueObject.NonEmpty ↔
        request.operation.LeavesSome (s.view.tick request.splitU64.1) request.splitU64.2) := by
  refine ⟨hReached.holds, fun batch logId request t reply hRequested hEval hDb hRun => ?_⟩
  obtain ⟨started, clock, hTick, hRequest⟩ := Machine.Runs.exists_of_bind hRun
  have hStarted : started.view = s.view.tick request.splitU64.1 := by
    have hSettles : (ask (.setWriteClock request.splitU64.1)).Settles View.effect
        (fun after _ => after = s.view.tick request.splitU64.1) s.view :=
      (settles_setWriteClock _).mpr rfl
    exact hTick.settles (shows_view lua) hSettles
  have hCount : request.splitU64.2 < started.count := by
    have hSame : started.count = s.count := congrArg View.count hStarted
    rwa [hSame]
  have hView : started.Holds ValueObject.NonEmpty := by
    rw [State.Holds, hStarted]
    exact hReached.holds.tick _
  rw [← hStarted]
  constructor
  · exact leavesSome_of_doRequest hRequested.proper batch.mode_ne_cas hCount hView hRequest
  · intro hLeaves
    exact holds_of_plain hRequested.proper hEval hLeaves hView hRequest

end

/-! ### A list and its last element -/

/-- LPUSH k with some elements. -/
def pushEntry (elements : List Bytes) : LogEntry :=
  ⟨⟨1, 1, 1⟩, .normal (.new 5 0 (.base (.lPush ⟨[107], elements⟩)))⟩

/-- LPOP k. -/
def popEntry : LogEntry := ⟨⟨1, 1, 2⟩, .normal (.new 6 0 (.base (.lPop ⟨[107], 1⟩)))⟩

theorem reached_of_push {s : State Unit} {reply : Value}
    (hRun : (machine LuaMachine.none).Runs (.new 1 ()) (applyEntry .none (pushEntry [[97], [98]])) s
      reply) : Reached LuaMachine.none 1 () s := by
  have hRequest : RaftCommand.lPush.raftRequest [.simpleString "LPUSH", .bulkString (some [107]),
      .bulkString (some [97]), .bulkString (some [98])] =
        .ok (.base (.lPush ⟨[107], [[97], [98]]⟩)) := rfl
  refine .apply .new ?_ ?_ hRun
  · intro request hPayload
    cases hPayload
    exact .alone (.command hRequest)
  · intro started clock _
    exact ⟨trivial, fun middle _ operation hCalls => hCalls.elim⟩

/-- LPUSH k a b and LPOP k leave the list a. -/
theorem nonEmpty_after_pop :
    ∃ s t reply, Reached LuaMachine.none 1 () s ∧
      (machine LuaMachine.none).Runs s (applyEntry .none popEntry) t reply ∧
      t.visible 0 [107] = some (.list [[98]], none) ∧ t.Holds ValueObject.NonEmpty := by
  have hRuns : ∃ s t reply reply', execute LuaMachine.none .quiet 10 (State.new 1 ())
        (applyEntry .none (pushEntry [[97], [98]])) = some (s, reply) ∧
      execute LuaMachine.none .quiet 10 s (applyEntry .none popEntry) = some (t, reply') ∧
      (s.view.tick 6).contents ValueObject.asList 0 [107] = some [[97], [98]] ∧ s.count = 1 ∧
      t.visible 0 [107] = some (.list [[98]], none) :=
    ⟨_, _, _, _, rfl, rfl, rfl, rfl, rfl⟩
  obtain ⟨s, t, reply, reply', hPush, hPop, hList, hCount, hVisible⟩ := hRuns
  have hReached := reached_of_push (runs_of_execute hPush)
  have hPop := runs_of_execute hPop
  refine ⟨s, t, reply', hReached, hPop, hVisible, ?_⟩
  have hRequest : RaftCommand.lPop.raftRequest [.simpleString "LPOP", .bulkString (some [107])] =
      .ok (.base (.lPop ⟨[107], 1⟩)) := rfl
  have hDb : (Raft.Request.new 6 0 (Operation.base (.lPop ⟨[107], 1⟩))).splitU64.2 < s.count := by
    rw [hCount]
    decide
  refine ((nonEmpty_iff_leavesSome hReached).2 ⟨false, []⟩ _ _ t reply' (.command hRequest) rfl hDb
    hPop).mpr ?_
  intro list hContents
  have hSame : some list = some [[97], [98]] := hContents.symm.trans hList
  cases hSame
  decide

/-- LPUSH k a and LPOP k leave an empty list: EXISTS k is one, and k takes no set. -/
theorem empty_list_after_pop :
    ∃ s t u reply reply', (machine LuaMachine.none).Runs (.new 1 ())
        (applyEntry .none (pushEntry [[97]])) s reply ∧
      (machine LuaMachine.none).Runs s (applyEntry .none popEntry) t reply' ∧
      t.visible 0 [107] = some (.list [], none) ∧ ¬ t.Holds ValueObject.NonEmpty ∧
      (machine LuaMachine.none).Runs t (readRequest false 0 none (.exists ⟨[[107]]⟩)) t
        (.integer 1) ∧
      (machine LuaMachine.none).Runs t
        (baseRequest ⟨0, 6, .none, false⟩ (.sAdd ⟨[107], [[97]]⟩)) u
          ProtocolError.wrongType.toValue := by
  have hEmpty {t : State Unit} (hVisible : t.visible 0 [107] = some (.list [], none)) :
      ¬ t.Holds ValueObject.NonEmpty := fun hHolds => absurd rfl (hHolds.of_visible hVisible)
  exact ⟨_, _, _, _, _, runs_quietly 10 rfl, runs_quietly 10 rfl, rfl, hEmpty rfl,
    runs_quietly 10 rfl, runs_quietly 10 rfl⟩

end CacheCat.StateMachine
